import Finality.Proofs.Matrix.Count
import Finality.Proofs.Tracker.Accounting
import Finality.Proofs.Tracker.LateVote
import Finality.Proofs.Tracker.WellFormed

/-! # No cell is marked twice for the same kind

A walk marks the cells that lack its observation, and a marked cell carries the observation from
then on, whatever else is written into it (`Cell.Within.resolves`).  So as long as its row is there,
a cell is marked by at most one walk of each kind (`countP_marks_le_one`).

The counters of marked cells thus count cells and not just marks: a step adds to a counter no more
than it adds to the number of cells with the implied mark (`Counts.backfilled`).  Prevotes and
precommits are also implied by walks of other kinds, which do not count for them; finalizations are
not, so their counter is exact. -/

namespace Finality

/-- What the sightings of a kind propagate to lower heights. -/
def MarkKind.observation (b : Bool) : MarkKind → Observation
  | .vote v => .ofVote b v
  | .finalization => .finalization

theorem Sighting.observation_eq (b : Bool) (s : Sighting) :
    s.observation b = s.kind.observation b := by
  cases s <;> rfl

theorem Cell.Within.resolves {c d : Cell} (hw : c.Within d) {o : Observation}
    (hres : o.resolves c = true) : o.resolves d = true := by
  cases o with
  | vote v => exact hw.knows (f := .vote v) hres
  | finalization => exact hw.knows (f := .finalization) hres
  | precommitAndPrevote =>
      obtain ⟨hprecommit, hprevote⟩ := Bool.and_eq_true_iff.mp hres
      exact Bool.and_eq_true_iff.mpr
        ⟨hw.knows (f := .vote .precommit) hprecommit, hw.knows (f := .vote .prevote) hprevote⟩

namespace Tracker

open Finality.Matrix (Implied)

variable {cfg : Config} {t : Tracker} {c : Call} {cs : List Call} {k : MarkKind} {h : Nat}
  {r v : Address}

/-! ### At most one walk -/

/-- The walk of a call marks the cell: the call brings a sighting of the kind and of the pair, it is
not stale, and its walk reaches the height. -/
def Marks (cfg : Config) (k : MarkKind) (h : Nat) (r v : Address) (t : Tracker) (c : Call) : Prop :=
  ∃ s ∈ Sighting.ofCall? c, t.Admits cfg s ∧ s.kind = k ∧ s.reporter = r ∧ s.voter = v ∧
    Implied cfg.precommitImpliesPrevote s t.matrix h

instance (cfg : Config) (k : MarkKind) (h : Nat) (r v : Address) (t : Tracker) (c : Call) :
    Decidable (t.Marks cfg k h r v c) :=
  inferInstanceAs (Decidable (∃ s ∈ Sighting.ofCall? c, _))

/-- The cell carries the observation of a kind, if its row is there. -/
def Carries (cfg : Config) (k : MarkKind) (h : Nat) (r v : Address) (t : Tracker) : Prop :=
  h ∈ t.matrix.heights →
    (k.observation cfg.precommitImpliesPrevote).resolves (t.matrix.cell h r v) = true

theorem Marks.carries_apply (hm : t.Marks cfg k h r v c) : (t.apply cfg c).Carries cfg k h r v := by
  obtain ⟨s, hs, ha, rfl, rfl, rfl, hi⟩ := hm
  rw [apply_of_admits hs ha]
  intro hh
  rw [(front_observe cfg t s).cell hh, Matrix.cell_eq_of_cell? (Matrix.cell?_record_of_implied hi),
    ← Sighting.observation_eq]
  exact Observation.resolves_mark _ _ _ _

theorem Marks.not_carries (hm : t.Marks cfg k h r v c) : ¬t.Carries cfg k h r v := by
  obtain ⟨s, -, -, rfl, rfl, rfl, hh, hlt, hopen⟩ := hm
  intro hc
  have hres := hc hh
  rw [← Sighting.observation_eq, hopen h hh (Nat.le_refl h) hlt] at hres
  cases hres

/-- No call takes the observation away from a cell whose row is there. -/
theorem Carries.apply (hh : h ∈ t.matrix.heights) (hc : t.Carries cfg k h r v) (c : Call) :
    (t.apply cfg c).Carries cfg k h r v := by
  have hres := hc hh
  generalize ht' : t.apply cfg c = t'
  have hm : Moves cfg t c t' := ht' ▸ moves_apply cfg t c
  intro hh'
  cases hm with
  | stale | setKept | bestSet => exact hres
  | observed =>
      rw [(front_observe cfg t _).cell hh']
      exact (Matrix.within_cell_record _ _ _ _ _ _).resolves hres
  | setChanged | forgot => exact absurd hh' List.not_mem_nil

/-- While its row is there, a cell that carries the observation of a kind is not marked for it. -/
theorem Carries.not_marks (hc : t.Carries cfg k h r v)
    (hthere : ∀ e ∈ trail cfg t cs, h ∈ e.1.matrix.heights) :
    ∀ e ∈ trail cfg t cs, ¬e.1.Marks cfg k h r v e.2 := by
  induction cs generalizing t with
  | nil => exact fun _ he => absurd he List.not_mem_nil
  | cons c cs ih =>
      obtain ⟨hh, hthere⟩ := List.forall_mem_cons.mp hthere
      exact List.forall_mem_cons.mpr ⟨fun hm => hm.not_carries hc, ih (hc.apply hh c) hthere⟩

/-- While its row is there, a cell is marked by at most one walk of a kind. -/
theorem countP_marks_le_one (hthere : ∀ e ∈ (trail cfg t cs).tail, h ∈ e.1.matrix.heights) :
    (trail cfg t cs).countP (fun e => e.1.Marks cfg k h r v e.2) ≤ 1 := by
  induction cs generalizing t with
  | nil => exact Nat.zero_le 1
  | cons c cs ih =>
      rw [trail, List.tail_cons] at hthere
      rw [trail, List.countP_cons]
      by_cases hm : t.Marks cfg k h r v c
      · have hnone : (trail cfg (t.apply cfg c) cs).countP
            (fun e => e.1.Marks cfg k h r v e.2) = 0 := by
          rw [List.countP_eq_zero]
          simpa using hm.carries_apply.not_marks hthere
        simp [hm, hnone]
      · have hrest := ih fun e he => hthere e (List.mem_of_mem_tail he)
        simpa [hm] using hrest

end Tracker

/-! ### What a walk counts -/

namespace Matrix

variable {b : Bool} {s : Sighting} {m : Matrix}

theorem marked_recordBy (b : Bool) (s : Sighting) (m : Matrix) :
    (m.recordBy Matrix.backfill b s).2 = m.heights.countP fun g => Implied b s m g := by
  rw [recordBy, marked_backfill, List.countP_eq_length_filter, List.countP_eq_length_filter]
  refine congrArg List.length ?_
  refine ((heights_descending _).filter _).eq_of_mem_iff ((heights_descending _).filter _) ?_
  intro g
  simp only [List.mem_filter, decide_eq_true_eq, reached_alterCell_iff, mem_heights_alterCell]
  exact ⟨fun hg => ⟨hg.2.1, hg.2⟩, fun hg => ⟨Or.inr hg.1, hg.2⟩⟩

end Matrix

theorem Tracker.marked_step_eq_countP {cfg : Config} {t : Tracker} {c : Call} {s : Sighting}
    (hs : Sighting.ofCall? c = some s) : (t.step cfg c).2.marked =
      t.matrix.heights.countP fun h => t.Marks cfg s.kind h s.reporter s.voter c := by
  by_cases ha : t.Admits cfg s
  · rw [marked_step hs ha, Matrix.marked_recordBy]
    refine List.countP_congr fun h _ => ?_
    simp [Marks, hs, ha]
  · rw [marked_step_of_not_admits hs ha, eq_comm, List.countP_eq_zero]
    intro h _
    simp [Marks, hs, ha]

/-! ### Cells with an implied mark -/

/-- A cell has the implied mark of a kind. -/
def Cell.implied (k : MarkKind) (c : Cell) : Bool :=
  match k with
  | .vote .prevote => c.impliedPrevote
  | .vote .precommit => c.impliedPrecommit
  | .finalization => c.impliedFinal

theorem Cell.Within.implied {c d : Cell} (hw : c.Within d) {k : MarkKind}
    (hc : c.implied k = true) : d.implied k = true := by
  rcases k with ⟨_ | _⟩ | _
  · exact hw.impliedPrevote hc
  · exact hw.impliedPrecommit hc
  · exact hw.impliedFinal hc

theorem Cell.knows_of_implied {c : Cell} {k : MarkKind} (hc : c.implied k = true) :
    c.knows k = true := by
  rcases k with ⟨_ | _⟩ | _ <;> exact Bool.or_eq_true_iff.mpr (Or.inr hc)

namespace Sighting

variable {b : Bool} {s : Sighting} {c : Cell} {g : Nat} {r v : Address}

theorem implied_see (k : MarkKind) (c : Cell) : (s.see c).implied k = c.implied k := by
  rcases s with ⟨_ | _, -, -, -⟩ | ⟨-, -, -⟩ <;> rcases k with ⟨_ | _⟩ | _ <;> rfl

theorem implied_mark (b : Bool) (s : Sighting) (H g : Nat) (c : Cell) :
    ((s.observation b).mark H g c).implied s.kind = true := by
  rcases s with ⟨_ | _, -, -, -⟩ | ⟨-, -, -⟩ <;> cases b <;> rfl

/-- A cell that does not stop the walk lacks the implied mark of the kind.  Where precommits stand
for prevotes a precommit does not stop the walk on its own, but it is not implied on its own. -/
theorem implied_of_not_resolves (hc : c.WellFormed b g r v)
    (hres : (s.observation b).resolves c = false) : c.implied s.kind = false := by
  rw [Bool.eq_false_iff] at hres ⊢
  refine mt (fun himplied => ?_) hres
  have hknown := Cell.knows_of_implied himplied
  cases s with
  | finalization => exact hknown
  | vote w r' q v' =>
      cases w with
      | prevote => exact hknown
      | precommit =>
          cases b with
          | false => exact hknown
          | true =>
              have hprevote : c.knows (.vote .prevote) = true :=
                Cell.knows_of_implied (hc.prevote_of_precommit rfl himplied)
              exact Bool.and_eq_true_iff.mpr ⟨hknown, hprevote⟩

theorem impliedFinal_mark (hk : s.kind ≠ .finalization) (H g : Nat) :
    ((s.observation b).mark H g c).implied .finalization = c.implied .finalization := by
  cases s with
  | finalization => exact absurd rfl hk
  | vote w r' q v' => cases w <;> cases b <;> rfl

/-- What a cell gains that does not stop the walk: the implied mark of the kind, and possibly other
implied marks, but not that of a finalization. -/
theorem gains_mark (hc : c.WellFormed b g r v) (hres : (s.observation b).resolves c = false)
    (k : MarkKind) (H : Nat) :
    c.Gains (Cell.implied k) (if k = s.kind then 1 else 0)
      (if k = s.kind ∨ k ≠ .finalization then 1 else 0) ((s.observation b).mark H g c) := by
  by_cases hk : k = s.kind
  · subst hk
    simp [Cell.Gains, implied_of_not_resolves hc hres, implied_mark]
  · simp only [hk, false_or, if_false]
    by_cases hf : k = .finalization
    · subst hf
      simp [Cell.Gains, impliedFinal_mark (Ne.symm hk)]
    · have hgrows := (Observation.within_mark (s.observation b) H g c).implied (k := k)
      have hlower := Bool.toNat_le_toNat hgrows
      have hupper := Bool.toNat_le (((s.observation b).mark H g c).implied k)
      simp only [Cell.Gains, hf, not_false_eq_true, ne_eq, if_true]
      omega

end Sighting

/-! ### What a step adds -/

namespace Matrix

variable {b : Bool} {s : Sighting} {m : Matrix}

/-- A sighting adds as many cells with the implied mark of its kind as its walk marks.  It may add
implied marks of other kinds, but no more than one in each marked cell, and no finalizations. -/
theorem count_recordBy (hm : ∀ g r v, (m.cell g r v).WellFormed b g r v) (s : Sighting)
    (k : MarkKind) :
    let recorded := m.recordBy Matrix.backfill b s
    m.count (Cell.implied k) + (if k = s.kind then 1 else 0) * recorded.2 ≤
        recorded.1.count (Cell.implied k) ∧
      recorded.1.count (Cell.implied k) ≤
        m.count (Cell.implied k) +
          (if k = s.kind ∨ k ≠ .finalization then 1 else 0) * recorded.2 := by
  have hempty : Cell.implied k {} = false := by rcases k with ⟨_ | _⟩ | _ <;> rfl
  rw [← count_alterCell_of_eq (m := m) (h := s.height) (r := s.reporter) (v := s.voter) hempty
    (s.implied_see k)]
  refine count_backfill hempty fun e he hlt hres => ?_
  -- below the sighting the cells are as they were before it was written
  rw [(cell_of_mem_rows_alterCell he (Nat.ne_of_lt hlt)).2] at hres ⊢
  exact Sighting.gains_mark (hm _ _ _) hres k _

end Matrix

namespace Tracker

open Finality.Metrics (sample)

variable {cfg : Config} {t t' : Tracker} {x x' : Metrics} {c : Call}

/-- Without a bound, and as long as no rows are dropped otherwise, a step adds to the counter of a
kind no more than it adds to the cells with the implied mark.  For finalizations it adds the same to
both. -/
theorem Counts.backfilled (hm : Counts cfg t x c t' x') (hbound : cfg.maxHeights = none)
    (ht : ∀ g r v, (t.matrix.cell g r v).WellFormed cfg.precommitImpliesPrevote g r v)
    (hkept : t.Empties c → t.matrix = .empty) (k : MarkKind) :
    t.matrix.count (Cell.implied k) + sample k x'.backfilled ≤
        t'.matrix.count (Cell.implied k) + sample k x.backfilled ∧
      (k = .finalization → t.matrix.count (Cell.implied k) + sample k x'.backfilled =
        t'.matrix.count (Cell.implied k) + sample k x.backfilled) := by
  cases hm with
  | stale | setKept | bestSet => exact ⟨Nat.le_refl _, fun _ => rfl⟩
  | setChanged hid =>
      rw [hkept hid]
      exact ⟨Nat.le_refl _, fun _ => rfl⟩
  | forgot =>
      rw [hkept trivial]
      exact ⟨Nat.le_refl _, fun _ => rfl⟩
  | @observed _ s hs ha =>
      obtain ⟨hlower, hupper⟩ := Matrix.count_recordBy ht s k
      have hmatrix : (t.observe cfg s).matrix =
          (t.matrix.recordBy Matrix.backfill cfg.precommitImpliesPrevote s).1 :=
        matrix_observe_of_unbounded hbound t s
      rw [hmatrix, Metrics.backfilled_sighted]
      by_cases hk : k = s.kind
      · simp only [hk, true_or, if_true] at hlower hupper ⊢
        omega
      · simp only [hk, false_or, if_false] at hlower hupper ⊢
        refine ⟨by omega, fun hf => ?_⟩
        simp only [hf, ne_eq, not_true_eq_false, if_false] at hlower hupper ⊢
        omega

/-- So the counter of a kind never exceeds the number of cells with its implied mark, and for
finalizations it is this number. -/
theorem sample_meter_le (hbound : cfg.maxHeights = none) {cs : List Call}
    (hkept : ∀ e ∈ trail cfg fresh cs, e.1.Empties e.2 → e.1.matrix = .empty) (k : MarkKind) :
    sample k (meter cfg fresh {} cs).backfilled ≤
        (run cfg fresh cs).matrix.count (Cell.implied k) ∧
      (k = .finalization → sample k (meter cfg fresh {} cs).backfilled =
        (run cfg fresh cs).matrix.count (Cell.implied k)) := by
  induction cs using List.reverseRecOn with
  | nil => exact ⟨Nat.le_refl _, fun _ => rfl⟩
  | append_singleton cs c ih =>
      rw [trail_concat] at hkept
      obtain ⟨hbefore, hlast⟩ := List.forall_mem_append.mp hkept
      obtain ⟨hle, heq⟩ := ih hbefore
      have hstep := counts_record cfg (run cfg fresh cs) (meter cfg fresh {} cs) c
      obtain ⟨hle', heq'⟩ :=
        hstep.backfilled hbound (wellFormed_run cfg cs) (List.forall_mem_singleton.mp hlast) k
      rw [meter_concat, run_concat]
      refine ⟨by omega, fun hf => ?_⟩
      have := heq hf
      have := heq' hf
      omega

/-- **No cell is marked twice for the same kind.**  After every run, and during whatever calls come
next:

* as long as its row is there, a cell is marked by at most one walk of each kind;
* these are the marks that are counted: a sighting counts the heights at which its walk marks its
  pair;
* so if there is no bound on the rows, and no reset and no change of the set dropped any, as many
  finalizations were counted as there are cells with an implied finalization, and no more prevotes
  and precommits than there are cells with an implied prevote and precommit. -/
theorem marked_at_most_once (cfg : Config) (cs : List Call) :
    let t := run cfg fresh cs
    (∀ during k h r v, (∀ e ∈ (trail cfg t during).tail, h ∈ e.1.matrix.heights) →
      (trail cfg t during).countP (fun e => e.1.Marks cfg k h r v e.2) ≤ 1) ∧
    (∀ c s, Sighting.ofCall? c = some s → (t.step cfg c).2.marked =
      t.matrix.heights.countP fun h => t.Marks cfg s.kind h s.reporter s.voter c) ∧
    (cfg.maxHeights = none →
      (∀ e ∈ trail cfg fresh cs, e.1.Empties e.2 → e.1.matrix = .empty) →
      let x := meter cfg fresh {} cs
      sample .finalization x.backfilled = t.matrix.count (·.impliedFinal) ∧
      sample (.vote .prevote) x.backfilled ≤ t.matrix.count (·.impliedPrevote) ∧
      sample (.vote .precommit) x.backfilled ≤ t.matrix.count (·.impliedPrecommit)) := by
  intro t
  refine ⟨fun during k h r v hthere => countP_marks_le_one hthere,
    fun c s hs => marked_step_eq_countP hs, fun hbound hkept => ?_⟩
  have hcount := sample_meter_le hbound hkept
  exact ⟨(hcount .finalization).2 rfl, (hcount (.vote .prevote)).1, (hcount (.vote .precommit)).1⟩

/-- Row 5 is marked for the precommit at 7 and then for the finalization at 9.  The prevote at 9
stops above it, as the precommit has marked it for prevotes as well: this implied prevote is not
counted. -/
theorem marked_at_most_once_unboundedRule :
    let before : List Call := [.authoritySet 1 ["V"], .vote .prevote "V" 5 "0x" "V"]
    let precommit : Call := .vote .precommit "V" 7 "0x" "V"
    let during : List Call := [precommit, .vote .prevote "V" 9 "0x" "V", .finalized "V" 9 "0x09"]
    let t := run unboundedRule fresh before
    let marks (k : MarkKind) := (trail unboundedRule t during).countP
      fun e => e.1.Marks unboundedRule k 5 "V" "V" e.2
    let x := meter unboundedRule fresh {} (before ++ during)
    let m := (run unboundedRule fresh (before ++ during)).matrix
    (t.Marks unboundedRule (.vote .precommit) 5 "V" "V" precommit ∧ marks (.vote .precommit) ≤ 1) ∧
      marks .finalization ≤ 1 ∧ (t.step unboundedRule precommit).2.marked = 1 ∧
      (sample .finalization x.backfilled = 2 ∧ m.count (·.impliedFinal) = 2) ∧
      (sample (.vote .prevote) x.backfilled = 1 ∧ 1 ≤ m.count (·.impliedPrevote)) := by
  intro before precommit during t marks x m
  obtain ⟨honce, hmarked, -⟩ := marked_at_most_once unboundedRule before
  obtain ⟨-, -, hcount⟩ := marked_at_most_once unboundedRule (before ++ during)
  obtain ⟨hfinal, hprevote, -⟩ := hcount rfl (by decide)
  have hthere : ∀ e ∈ (trail unboundedRule t during).tail, 5 ∈ e.1.matrix.heights := by decide
  have htwo : sample .finalization x.backfilled = 2 := by decide
  have hone : sample (.vote .prevote) x.backfilled = 1 := by decide
  refine ⟨⟨by decide, honce during _ 5 "V" "V" hthere⟩, honce during _ 5 "V" "V" hthere, ?_,
    ⟨htwo, hfinal.symm.trans htwo⟩, ⟨hone, hone.symm.le.trans hprevote⟩⟩
  exact (hmarked precommit (.vote .precommit "V" 7 "V") rfl).trans (by decide)

end Tracker

end Finality
