import Mathlib.Data.List.DropRight
import Finality.Proofs.Tracker.History

/-! # What the display waits for

The display waits for something to show.  Three calls write its flag, and one and the same call may
turn it on or off: the first announcement of a set makes it wait, be there votes or not, and every
other change of the set ends the wait.  `Restarts` and `Shows` sort the calls of a run into those
that make the display wait (again) and those that give it something to show, in view of the state
that they meet (`loading_apply`).

So over a whole run the display waits exactly if nothing was shown since the most recent restart,
or since the beginning (`loading_run_iff`).  What is known of the authority set is a matter of the
history as well: the id is the one announced last since the last reset (`setId_run`), and the
members are those of the announcement that brought it (`inForce_run`). -/

namespace Finality.Tracker

variable {cfg : Config} {t : Tracker} {c : Call} {cs : List Call}

/-! ### The flag -/

/-- The call makes the display wait. -/
def Restarts (t : Tracker) : Call → Prop
  | .authoritySet _ _ => t.authority.setId = none
  | .reset => True
  | _ => False

instance (t : Tracker) : (c : Call) → Decidable (t.Restarts c)
  | .authoritySet _ _ => inferInstanceAs (Decidable (_ = _))
  | .reset => inferInstanceAs (Decidable True)
  | .vote .. | .finalized .. | .bestBlock _ => inferInstanceAs (Decidable False)

/-- The call gives the display something to show: a sighting that is not stale, or a set other than
the known one. -/
def Shows (cfg : Config) (t : Tracker) : Call → Prop
  | .vote v r h _ w => t.Admits cfg (.vote v r h w)
  | .finalized r h hash => t.Admits cfg (.finalization r h hash)
  | .authoritySet id _ => ∃ known ∈ t.authority.setId, known ≠ id
  | _ => False

instance (cfg : Config) (t : Tracker) : (c : Call) → Decidable (t.Shows cfg c)
  | .vote .. | .finalized .. => inferInstanceAs (Decidable (Admits _ _ _))
  | .authoritySet id _ => inferInstanceAs (Decidable (∃ known ∈ t.authority.setId, known ≠ id))
  | .bestBlock _ | .reset => inferInstanceAs (Decidable False)

theorem shows_iff_admits {s : Sighting} (hs : Sighting.ofCall? c = some s) :
    t.Shows cfg c ↔ t.Admits cfg s := by
  cases c <;> cases hs <;> exact Iff.rfl

theorem not_restarts {s : Sighting} (hs : Sighting.ofCall? c = some s) : ¬t.Restarts c := by
  cases c <;> cases hs <;> exact id

/-- A new set ends the wait, unless it is the first one. -/
theorem shows_iff_of_setChanged {id : Int} {members : List Address}
    (hid : t.authority.setId ≠ some id) :
    t.Shows cfg (.authoritySet id members) ↔ ¬t.Restarts (.authoritySet id members) := by
  cases hknown : t.authority.setId with
  | none => simp [Restarts, Shows, hknown]
  | some known =>
      have hne : known ≠ id := fun h => hid (h ▸ hknown)
      simp [Restarts, Shows, hknown, hne]

theorem loading_apply (cfg : Config) (t : Tracker) (c : Call) :
    (t.apply cfg c).authority.loading = true ↔
      t.Restarts c ∨ ¬t.Shows cfg c ∧ t.authority.loading = true := by
  generalize ht' : t.apply cfg c = t'
  have hm : Moves cfg t c t' := ht' ▸ moves_apply cfg t c
  cases hm with
  | stale hs ha => simp [not_restarts hs, shows_iff_admits hs, ha]
  | observed hs ha =>
      have hflag : ∀ s, (t.observe cfg s).authority.loading = false := fun _ => rfl
      simp [not_restarts hs, shows_iff_admits hs, ha, hflag]
  | setKept hid => simp [Restarts, Shows, hid]
  | setChanged hid =>
      rw [shows_iff_of_setChanged hid, not_not, adopt, Option.isNone_iff_eq_none, Restarts]
      tauto
  | bestSet => simp [Restarts, Shows]
  | forgot => simp [Restarts, fresh]

/-- The calls since the most recent restart, each with the state that it met; all calls if there was
no restart. -/
def sinceRestart (cfg : Config) (cs : List Call) : List (Tracker × Call) :=
  (trail cfg fresh cs).rtakeWhile fun e => !decide (e.1.Restarts e.2)

theorem sinceRestart_concat (cfg : Config) (cs : List Call) (c : Call) :
    sinceRestart cfg (cs ++ [c]) =
      if (run cfg fresh cs).Restarts c then []
      else sinceRestart cfg cs ++ [(run cfg fresh cs, c)] := by
  rw [sinceRestart, trail_concat, List.rtakeWhile_concat, ← sinceRestart]
  by_cases hc : (run cfg fresh cs).Restarts c <;> simp [hc]

theorem loading_run_iff (cfg : Config) (cs : List Call) :
    (run cfg fresh cs).authority.loading = true ↔
      ∀ e ∈ sinceRestart cfg cs, ¬e.1.Shows cfg e.2 := by
  induction cs using List.reverseRecOn with
  | nil => exact iff_of_true rfl fun _ he => absurd he List.not_mem_nil
  | append_singleton cs c ih =>
      rw [run_concat, loading_apply, sinceRestart_concat, ih]
      by_cases hc : (run cfg fresh cs).Restarts c
      · simp [hc]
      · simp only [hc, false_or, if_false, List.forall_mem_append, List.forall_mem_singleton]
        exact and_comm

/-! ### The authority set -/

/-- While the display waits there are no rows, and without a known id there are no members. -/
structure Waits (t : Tracker) : Prop where
  rows : t.authority.loading = true → t.matrix = .empty
  members : t.authority.setId = none → t.authority.members = []

theorem Waits.apply (ht : Waits t) (cfg : Config) (c : Call) : Waits (t.apply cfg c) := by
  generalize ht' : t.apply cfg c = t'
  have hm : Moves cfg t c t' := ht' ▸ moves_apply cfg t c
  cases hm with
  | stale => exact ht
  | observed => exact ⟨nofun, ht.members⟩
  | setKept => exact ht
  | setChanged => exact ⟨fun _ => rfl, nofun⟩
  | bestSet => exact ⟨ht.rows, ht.members⟩
  | forgot => exact ⟨fun _ => rfl, fun _ => rfl⟩

theorem waits_run (cfg : Config) (cs : List Call) : Waits (run cfg fresh cs) := by
  induction cs using List.reverseRecOn with
  | nil => exact ⟨fun _ => rfl, fun _ => rfl⟩
  | append_singleton cs c ih =>
      rw [run_concat]
      exact ih.apply cfg c

/-- Id that a call announces. -/
def announces? : Call → Option Int
  | .authoritySet id _ => some id
  | _ => none

/-- The id that was announced last since the last reset. -/
def lastAnnounced (cs : List Call) : Option Int :=
  ((cs.rtakeWhile (· != .reset)).filterMap announces?).getLast?

theorem lastAnnounced_concat (cs : List Call) (c : Call) :
    lastAnnounced (cs ++ [c]) =
      if c = .reset then none else (announces? c).or (lastAnnounced cs) := by
  rw [lastAnnounced, List.rtakeWhile_concat]
  by_cases hc : c = .reset
  · simp [hc]
  · simp only [bne_iff_ne, ne_eq, hc, not_false_iff, if_true, if_false, List.filterMap_append,
      List.getLast?_append, lastAnnounced]
    cases hid : announces? c <;> simp [hid]

/-- The known id is the one that was announced last since the last reset. -/
theorem setId_run (cfg : Config) (cs : List Call) :
    (run cfg fresh cs).authority.setId = lastAnnounced cs := by
  induction cs using List.reverseRecOn with
  | nil => rfl
  | append_singleton cs c ih =>
      rw [run_concat, lastAnnounced_concat, ← ih]
      generalize ht' : (run cfg fresh cs).apply cfg c = t'
      have hm : Moves cfg (run cfg fresh cs) c t' := ht' ▸ moves_apply cfg _ c
      cases hm with
      | stale hs => cases c <;> cases hs <;> rfl
      | observed hs => cases c <;> cases hs <;> rfl
      | setKept hid => simp [announces?, hid]
      | setChanged => simp [announces?, adopt]
      | bestSet => simp [announces?]
      | forgot => simp [fresh]

/-- The set is the one that an announcement of the run brought: its id was not the known one then,
and no other set was announced since, nor was the set forgotten. -/
def InForce (cfg : Config) (cs : List Call) (id : Int) (members : List Address) : Prop :=
  ∃ before since, cs = before ++ .authoritySet id members :: since ∧
    (run cfg fresh before).authority.setId ≠ some id ∧
    NeverEmptied cfg (run cfg fresh (before ++ [.authoritySet id members])) since

theorem InForce.concat {id : Int} {members : List Address} (hset : InForce cfg cs id members)
    (hc : ¬(run cfg fresh cs).Empties c) : InForce cfg (cs ++ [c]) id members := by
  obtain ⟨before, since, rfl, hnew, hsince⟩ := hset
  refine ⟨before, since ++ [c], by simp, hnew, neverEmptied_concat.mpr ⟨hsince, ?_⟩⟩
  rwa [← run_append, List.append_assoc]

/-- The members are those of the announcement that brought the known id. -/
theorem inForce_run (cfg : Config) (cs : List Call) {id : Int}
    (hid : (run cfg fresh cs).authority.setId = some id) :
    InForce cfg cs id (run cfg fresh cs).authority.members := by
  induction cs using List.reverseRecOn with
  | nil => cases hid
  | append_singleton cs c ih =>
      rw [run_concat] at hid ⊢
      generalize ht' : (run cfg fresh cs).apply cfg c = t' at hid ⊢
      have hm : Moves cfg (run cfg fresh cs) c t' := ht' ▸ moves_apply cfg _ c
      cases hm with
      | stale hs => exact (ih hid).concat (by cases c <;> cases hs <;> exact not_false)
      | observed hs => exact (ih hid).concat (by cases c <;> cases hs <;> exact not_false)
      | setKept hkept => exact (ih hid).concat (not_not.mpr hkept)
      | setChanged hnew =>
          cases hid
          exact ⟨cs, [], rfl, hnew, trivial⟩
      | bestSet => exact (ih hid).concat not_false
      | forgot => cases hid

/-! ### Whole runs -/

/-- **What the display waits for.**  After every run:

* the display waits exactly if, since the most recent restart, no sighting was taken in that was not
  stale, and no set other than the known one was announced;
* while it waits there are no rows, and once there are rows it does not wait;
* the known id is the one that was announced last since the last reset; without it there are no
  members, and with it they are those of the announcement that brought it, whatever was announced
  with the same id later. -/
theorem loading_iff_nothing_shown (cfg : Config) (cs : List Call) :
    let t := run cfg fresh cs
    (t.authority.loading = true ↔ ∀ e ∈ sinceRestart cfg cs, ¬e.1.Shows cfg e.2) ∧
    (t.authority.loading = true → t.matrix = .empty) ∧
    (t.matrix ≠ .empty → t.authority.loading = false) ∧
    t.authority.setId = lastAnnounced cs ∧
    (t.authority.setId = none → t.authority.members = []) ∧
    (∀ id, t.authority.setId = some id → InForce cfg cs id t.authority.members) := by
  intro t
  have ht : Waits t := waits_run cfg cs
  refine ⟨loading_run_iff cfg cs, ht.rows, fun hrows => ?_, setId_run cfg cs, ht.members,
    fun _ hid => inForce_run cfg cs hid⟩
  rw [Bool.eq_false_iff]
  exact mt ht.rows hrows

/-- The first set makes the display wait although a vote came before it; a stale vote and the same
set with another member do not end the wait, and a second set does. -/
theorem loading_iff_nothing_shown_twoRows :
    let cs : List Call := [.vote .prevote "A" 7 "0x" "V", .authoritySet 1 ["V"], .bestBlock 100,
      .vote .prevote "A" 7 "0x" "V", .authoritySet 1 ["W"]]
    let t := run twoRows fresh cs
    let u := run twoRows fresh (cs ++ [.authoritySet 2 ["W"]])
    t.authority.loading = true ∧ t.matrix = .empty ∧ t.authority.setId = some 1 ∧
      InForce twoRows cs 1 ["V"] ∧ u.authority.loading = false := by
  intro cs t u
  obtain ⟨hwaits, hrows, -, hid, -, hset⟩ := loading_iff_nothing_shown twoRows cs
  have hloading : t.authority.loading = true := hwaits.mpr (by decide)
  have hknown : t.authority.setId = some 1 := hid.trans (by decide)
  have hends := (loading_iff_nothing_shown twoRows (cs ++ [.authoritySet 2 ["W"]])).1
  refine ⟨hloading, hrows hloading, hknown, hset 1 hknown, ?_⟩
  rw [Bool.eq_false_iff]
  exact fun hu => absurd (hends.mp hu) (by decide)

end Finality.Tracker
