import Finality.Proofs.Tracker.Step
import Finality.Tracker.Metrics

/-! # The history behind a matrix

`applied cfg cs` lists the sightings that a run took in since its matrix was last emptied: stale
sightings are left out, and an effective change of the authority set and `reset` start anew.  It is
kept beside the run, call by call (`note`), and never looks at a cell.  As long as no call empties
the matrix it only grows at its end (`prefix_appliedFrom`).

`GrowsUpward` restricts runs to those in which no sighting that is taken in opens a row below one
that exists already.  A relation between histories and matrices is kept by a call if it is kept by
the sighting that the call brings (`history_step`).  It holds after all runs when it survives a
recording followed by the loss of the oldest rows (`applied_induction`); from that follow the
principles for matrices alone (`run_matrix_induction`) and for single cells
(`run_cell_induction`).

`trail cfg t cs` lists the calls of a run, each with the state that it met.  What is said about the
calls of a run in view of what came before them (how many there were of some kind, what happened
since the last of some kind) is said about this list.  It grows at its end (`trail_concat`), so such
statements are proved by induction on the last call.  `meter cfg t x cs` are the counters after a
run, each call having been counted by its effect. -/

namespace Finality

/-- A height that has a row already or lies above all rows. -/
def Matrix.OnTop (m : Matrix) (h : Nat) : Prop := h ∈ m.heights ∨ ∀ g ∈ m.heights, g < h

instance (m : Matrix) (h : Nat) : Decidable (m.OnTop h) := inferInstanceAs (Decidable (_ ∨ _))

namespace Tracker

open Finality.Matrix (Front)

variable {cfg : Config} {t : Tracker} {c : Call} {s : Sighting} {past : List Sighting}

/-- The sightings that count after one more call, oldest first. -/
def note (cfg : Config) (t : Tracker) (past : List Sighting) (c : Call) : List Sighting :=
  match Sighting.ofCall? c with
  | some s => if t.Admits cfg s then past ++ [s] else past
  | none =>
    match c with
    | .authoritySet id _ => if t.authority.setId = some id then past else []
    | .reset => []
    | _ => past

/-- The sightings that count after some more calls. -/
def appliedFrom (cfg : Config) : Tracker → List Sighting → List Call → List Sighting
  | _, past, [] => past
  | t, past, c :: cs => appliedFrom cfg (t.apply cfg c) (t.note cfg past c) cs

/-- Sightings that a run from the fresh tracker took in since its matrix was last emptied. -/
def applied (cfg : Config) (cs : List Call) : List Sighting := appliedFrom cfg fresh [] cs

theorem note_of_admits (hs : Sighting.ofCall? c = some s) (ha : t.Admits cfg s) :
    t.note cfg past c = past ++ [s] := by
  simp only [note, hs, if_pos ha]

theorem note_of_not_admits (hs : Sighting.ofCall? c = some s) (ha : ¬t.Admits cfg s) :
    t.note cfg past c = past := by
  simp only [note, hs, if_neg ha]

theorem note_setKept {id : Int} {members : List Address} (hid : t.authority.setId = some id) :
    t.note cfg past (.authoritySet id members) = past := by
  simp only [note, Sighting.ofCall?, if_pos hid]

theorem note_setChanged {id : Int} {members : List Address} (hid : t.authority.setId ≠ some id) :
    t.note cfg past (.authoritySet id members) = [] := by
  simp only [note, Sighting.ofCall?, if_neg hid]

/-! ### Appending calls -/

theorem run_append (cfg : Config) (t : Tracker) (cs more : List Call) :
    run cfg t (cs ++ more) = run cfg (run cfg t cs) more := List.foldl_append

theorem appliedFrom_append (cfg : Config) (t : Tracker) (past : List Sighting)
    (cs more : List Call) :
    appliedFrom cfg t past (cs ++ more) =
      appliedFrom cfg (run cfg t cs) (appliedFrom cfg t past cs) more := by
  induction cs generalizing t past with
  | nil => rfl
  | cons c cs ih => exact ih (t.apply cfg c) (t.note cfg past c)

/-- The call empties the matrix. -/
def Empties (t : Tracker) : Call → Prop
  | .authoritySet id _ => t.authority.setId ≠ some id
  | .reset => True
  | _ => False

instance (t : Tracker) : (c : Call) → Decidable (t.Empties c)
  | .authoritySet _ _ => inferInstanceAs (Decidable (_ ≠ _))
  | .reset => inferInstanceAs (Decidable True)
  | .vote .. | .finalized .. | .bestBlock _ => inferInstanceAs (Decidable False)

/-- No call of the run empties the matrix. -/
def NeverEmptied (cfg : Config) : Tracker → List Call → Prop
  | _, [] => True
  | t, c :: cs => ¬t.Empties c ∧ NeverEmptied cfg (t.apply cfg c) cs

instance decidableNeverEmptied (cfg : Config) :
    (t : Tracker) → (cs : List Call) → Decidable (NeverEmptied cfg t cs)
  | _, [] => inferInstanceAs (Decidable True)
  | t, c :: cs =>
    have := decidableNeverEmptied cfg (t.apply cfg c) cs
    inferInstanceAs (Decidable (_ ∧ _))

theorem prefix_note (past : List Sighting) (hc : ¬t.Empties c) : past <+: t.note cfg past c := by
  cases hs : Sighting.ofCall? c with
  | some s =>
      by_cases ha : t.Admits cfg s
      · rw [note_of_admits hs ha]
        exact List.prefix_append past [s]
      · simp only [note_of_not_admits hs ha, List.prefix_rfl]
  | none =>
      cases c with
      | vote => cases hs
      | finalized => cases hs
      | bestBlock h => exact List.prefix_rfl
      | reset => exact absurd trivial hc
      | authoritySet id members =>
          simp only [note_setKept (not_not.mp hc), List.prefix_rfl]

/-- As long as the matrix is not emptied, no sighting is forgotten. -/
theorem prefix_appliedFrom {cs : List Call} (past : List Sighting) (hcs : NeverEmptied cfg t cs) :
    past <+: appliedFrom cfg t past cs := by
  induction cs generalizing t past with
  | nil => exact List.prefix_rfl
  | cons c cs ih =>
      obtain ⟨hc, hcs⟩ := hcs
      exact (prefix_note past hc).trans (ih _ hcs)

/-! ### Runs that grow upward -/

/-- Every sighting that the run takes in belongs to a row that exists or lies above all rows. -/
def GrowsUpward (cfg : Config) : Tracker → List Call → Prop
  | _, [] => True
  | t, c :: cs =>
    (∀ s ∈ Sighting.ofCall? c, t.Admits cfg s → t.matrix.OnTop s.height) ∧
      GrowsUpward cfg (t.apply cfg c) cs

instance decidableGrowsUpward (cfg : Config) :
    (t : Tracker) → (cs : List Call) → Decidable (GrowsUpward cfg t cs)
  | _, [] => inferInstanceAs (Decidable True)
  | t, c :: cs =>
    have := decidableGrowsUpward cfg (t.apply cfg c) cs
    inferInstanceAs (Decidable (_ ∧ _))

/-! ### Induction along a run -/

/-- A relation between the history and the matrix is kept by a call if it holds at the start of a
history and is kept by a sighting that is taken in. -/
theorem history_step (past : List Sighting) {P : List Sighting → Matrix → Prop}
    (hempty : P [] .empty)
    (hobserve : ∀ s ∈ Sighting.ofCall? c, t.Admits cfg s → P (past ++ [s]) (t.observe cfg s).matrix)
    (hp : P past t.matrix) : P (t.note cfg past c) (t.apply cfg c).matrix := by
  generalize ht' : t.apply cfg c = t'
  have hm : Moves cfg t c t' := ht' ▸ moves_apply cfg t c
  cases hm with
  | stale hs ha =>
      rw [note_of_not_admits hs ha]
      exact hp
  | observed hs ha =>
      rw [note_of_admits hs ha]
      exact hobserve _ hs ha
  | setKept hid =>
      rw [note_setKept hid]
      exact hp
  | setChanged hid =>
      rw [note_setChanged hid]
      exact hempty
  | bestSet => exact hp
  | forgot => exact hempty

/-- Such a relation holds after every run if each sighting, recorded and followed by the loss of the
oldest rows, keeps it. -/
theorem applied_induction {P : List Sighting → Matrix → Prop} (hempty : P [] .empty)
    (hobserve : ∀ past m s, P past m →
      P (past ++ [s]) (retain cfg (m.record cfg.precommitImpliesPrevote s)).1)
    (cs : List Call) :
    ∀ t past, P past t.matrix → P (appliedFrom cfg t past cs) (run cfg t cs).matrix := by
  induction cs with
  | nil => exact fun t past hp => hp
  | cons c cs ih =>
      intro t past hp
      exact ih _ _ (history_step past hempty (fun s _ _ => hobserve past _ s hp) hp)

/-- A property of matrices that holds of the empty one, and that survives recording and the loss of
the oldest rows, is kept by every run. -/
theorem run_matrix_induction {P : Matrix → Prop} (hempty : P .empty)
    (hrecord : ∀ s m, P m → P (m.record cfg.precommitImpliesPrevote s))
    (hfront : ∀ k m, Front k m → P m → P k) (cs : List Call) (ht : P t.matrix) :
    P (run cfg t cs).matrix :=
  -- a property of the matrix is a relation that does not look at the history
  applied_induction (P := fun _ => P) hempty
    (fun _ m s hp => hfront _ _ (front_retain cfg _) (hrecord s m hp)) cs t [] ht

/-- A property of cells at their places that holds of the empty cell, and that survives being seen
and being marked from above, holds of every cell after every run. -/
theorem run_cell_induction {P : Nat → Address → Address → Cell → Prop}
    (hempty : ∀ h r v, P h r v {})
    (hsee : ∀ (s : Sighting) c,
      P s.height s.reporter s.voter c → P s.height s.reporter s.voter (s.see c))
    (hmark : ∀ (s : Sighting) g c, g < s.height → P g s.reporter s.voter c →
      P g s.reporter s.voter ((s.observation cfg.precommitImpliesPrevote).mark s.height g c))
    (cs : List Call) (h : Nat) (r v : Address) : P h r v ((run cfg fresh cs).matrix.cell h r v) := by
  refine run_matrix_induction (P := fun m => ∀ h r v, P h r v (m.cell h r v)) ?_ ?_ ?_ cs ?_ h r v
  · exact hempty
  · exact fun s m hm => Matrix.forall_cell_record (hsee s) (hmark s) hm
  · intro k m hf hm h r v
    by_cases hh : h ∈ k.heights
    · rw [hf.cell hh]
      exact hm h r v
    · rw [Matrix.cell_eq_empty hh]
      exact hempty h r v
  · exact hempty

/-! ### The trail of a run -/

/-- The calls of a run, each with the state that it met. -/
def trail (cfg : Config) : Tracker → List Call → List (Tracker × Call)
  | _, [] => []
  | t, c :: cs => (t, c) :: trail cfg (t.apply cfg c) cs

theorem trail_append (cfg : Config) (t : Tracker) (cs more : List Call) :
    trail cfg t (cs ++ more) = trail cfg t cs ++ trail cfg (run cfg t cs) more := by
  induction cs generalizing t with
  | nil => rfl
  | cons c cs ih => simp only [List.cons_append, trail, run_cons, ih]

theorem trail_concat (cfg : Config) (t : Tracker) (cs : List Call) (c : Call) :
    trail cfg t (cs ++ [c]) = trail cfg t cs ++ [(run cfg t cs, c)] :=
  trail_append cfg t cs [c]

theorem run_concat (cfg : Config) (t : Tracker) (cs : List Call) (c : Call) :
    run cfg t (cs ++ [c]) = (run cfg t cs).apply cfg c :=
  run_append cfg t cs [c]

theorem neverEmptied_concat {cs : List Call} {c : Call} :
    NeverEmptied cfg t (cs ++ [c]) ↔ NeverEmptied cfg t cs ∧ ¬(run cfg t cs).Empties c := by
  induction cs generalizing t with
  | nil => simp [NeverEmptied]
  | cons d cs ih => simp only [List.cons_append, NeverEmptied, run_cons, ih, and_assoc]

/-! ### Counters -/

/-- Counters after a run, each call having been counted by its effect. -/
def meter (cfg : Config) (t : Tracker) (x : Metrics) (cs : List Call) : Metrics :=
  (trail cfg t cs).foldl (fun x e => x.record (e.1.step cfg e.2).2) x

theorem meter_concat (cfg : Config) (t : Tracker) (x : Metrics) (cs : List Call) (c : Call) :
    meter cfg t x (cs ++ [c]) = (meter cfg t x cs).record ((run cfg t cs).step cfg c).2 := by
  rw [meter, trail_concat, List.foldl_append]
  rfl

end Tracker

end Finality
