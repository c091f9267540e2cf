import Finality.Proofs.Tracker.Completeness
import Finality.Proofs.Tracker.Parallel

/-! # What extrapolation adds, and what it loses

With the rule of extrapolation, a precommit that is propagated downward stands for the prevote that
it takes.  Here a tracker with the rule is compared with one without, on the same calls.

Rows and finalizations do not depend on the rule (`Parallel.apply_withRule`).  Votes do: the rule
adds prevotes, and as a walk of precommits has to find both votes before it stops, precommits as
well.  But where cells know more, other walks stop earlier.  The walk without the rule may go on to
a row that was opened late, which the walk with the rule, stopped at a row above, does not come to.
Such a row is `Missed`, and the tracker with the rule knows all that the other one knows exactly as
long as no call misses a row (`knowsAll_run_iff`).

In runs that grow upward no row is missed (`knowsAll_run_of_growsUpward`), in other runs one may be
(`not_knowsAll_run`). -/

namespace Finality

/-- The same configuration with or without the rule that precommits stand for prevotes. -/
def Config.withRule (rule : Bool) (cfg : Config) : Config where
  maxHeights := cfg.maxHeights
  staleWindow := cfg.staleWindow
  precommitImpliesPrevote := rule
  maxHeights_pos := cfg.maxHeights_pos

namespace Cell

/-- Both cells know of a finalization, or neither does. -/
def SameFinal (c d : Cell) : Prop := c.hasFinalization = d.hasFinalization

/-- All that `c` knows is known in `d`. -/
def KnownIn (c d : Cell) : Prop := ∀ f, c.knows f = true → d.knows f = true

end Cell

namespace Matrix

variable {b b' : Bool} {P : Cell → Cell → Prop} {s : Sighting} {k m : Matrix} {g h : Nat}
  {r v : Address}

/-! ### Cell by cell -/

/-- Two matrices have the same rows, and cells at the same place are related. -/
structure Cellwise (P : Cell → Cell → Prop) (m k : Matrix) : Prop where
  heights : m.heights = k.heights
  cells : ∀ h r v, P (m.cell h r v) (k.cell h r v)

/-- It is enough to look at the cells of the rows that are kept. -/
theorem cellwise_retain {cfg cfg' : Config} (hbound : cfg.maxHeights = cfg'.maxHeights)
    (hheights : m.heights = k.heights) (hempty : P {} {})
    (hcells : ∀ h ∈ (Tracker.retain cfg m).1.heights, ∀ r v, P (m.cell h r v) (k.cell h r v)) :
    Cellwise P (Tracker.retain cfg m).1 (Tracker.retain cfg' k).1 := by
  have hkept : (Tracker.retain cfg m).1.heights = (Tracker.retain cfg' k).1.heights :=
    Tracker.heights_retain_eq hbound hheights
  refine ⟨hkept, fun h r v => ?_⟩
  by_cases hh : h ∈ (Tracker.retain cfg m).1.heights
  · rw [(Tracker.front_retain cfg m).cell hh, (Tracker.front_retain cfg' k).cell (hkept ▸ hh)]
    exact hcells h hh r v
  · rw [cell_eq_empty hh, cell_eq_empty (hkept ▸ hh)]
    exact hempty

/-! ### Finalizations -/

/-- The walk of a finalization looks at finalizations only. -/
theorem Cellwise.implied_iff (hm : Cellwise Cell.SameFinal m k) (hs : s.kind = .finalization) :
    Implied b s m g ↔ Implied b' s k g := by
  have hresolves : ∀ (b : Bool) (c : Cell), (s.observation b).resolves c = c.hasFinalization := by
    intro b c
    cases s with
    | vote => cases hs
    | finalization => rfl
  have hcell : ∀ q, (m.cell q s.reporter s.voter).hasFinalization =
      (k.cell q s.reporter s.voter).hasFinalization := fun q => hm.cells q s.reporter s.voter
  unfold Implied Reached
  simp only [hresolves, hm.heights, hcell]

/-- A finalization is learnt from a finalization, where it is seen or implied. -/
theorem hasFinalization_record_iff : ((m.record b s).cell h r v).hasFinalization = true ↔
    (m.cell h r v).hasFinalization = true ∨ (s.kind = .finalization ∧
      r = s.reporter ∧ v = s.voter ∧ (h = s.height ∨ Implied b s m h)) := by
  rw [← Cell.knows, ← Cell.knows]
  rcases cell_record_cases b s m h r v with ⟨rfl, rfl, rfl, hc⟩ | ⟨rfl, rfl, hi, hc⟩ | ⟨hne, hc⟩
  · rw [hc, Sighting.knows_see]
    simp
  · rw [hc, Sighting.knows_mark]
    simp [hi]
  · rw [hc]
    simp only [hne, and_false, or_false]

theorem Cellwise.sameFinal_record (hm : Cellwise Cell.SameFinal m k) (h : Nat) (r v : Address) :
    Cell.SameFinal ((m.record b s).cell h r v) ((k.record b' s).cell h r v) := by
  refine Bool.eq_iff_iff.mpr ?_
  rw [hasFinalization_record_iff, hasFinalization_record_iff, hm.cells h r v]
  refine or_congr Iff.rfl (and_congr_right fun hs => ?_)
  rw [hm.implied_iff hs]

/-! ### Votes -/

/-- All that the cells of `m` know is known in `k`. -/
def KnowsAll (m k : Matrix) : Prop := ∀ h r v, (m.cell h r v).KnownIn (k.cell h r v)

/-- Without the rule the walk in `m` marks the row; with the rule a row above stops the walk in `k`,
and this row does not learn of the sighting. -/
def Missed (s : Sighting) (m k : Matrix) (g : Nat) : Prop :=
  Implied false s m g ∧ Shadowed true s k g

instance (s : Sighting) (m k : Matrix) (g : Nat) : Decidable (Missed s m k g) :=
  inferInstanceAs (Decidable (_ ∧ _))

/-- What is known without the rule is also known with it, unless the row is missed. -/
theorem knownIn_record (hm : Cellwise Cell.SameFinal m k) (hall : KnowsAll m k)
    (hmissed : ¬Missed s m k h) (r v : Address) :
    ((m.record false s).cell h r v).KnownIn ((k.record true s).cell h r v) := by
  intro f hf
  have hold : (m.cell h r v).knows f = true → ((k.record true s).cell h r v).knows f = true :=
    fun hk => (within_cell_record true s k h r v).knows (hall h r v f hk)
  rcases cell_record_cases false s m h r v with
    ⟨rfl, rfl, rfl, hc⟩ | ⟨rfl, rfl, hi, hc⟩ | ⟨-, hc⟩
  · rw [hc, Sighting.knows_see] at hf
    rcases hf with hk | hkind
    · exact hold hk
    · exact knows_record_self ⟨rfl, rfl, Or.inl ⟨hkind, Nat.le_refl _⟩⟩
  · rw [hc, Sighting.knows_mark] at hf
    rcases hf with hk | hkind | ⟨hrule, -⟩
    · exact hold hk
    · by_cases hs : s.kind = .finalization
      · -- the walks of a finalization are the same
        have hi' : Implied true s k h := (hm.implied_iff hs).mp hi
        exact knows_record_of_implied hi' ⟨rfl, rfl, Or.inl ⟨Or.inr hs, Nat.le_of_lt hi.2.1⟩⟩
      · obtain rfl : s.kind = f := hkind.resolve_right hs
        have hshadow : ¬Shadowed true s k h := fun hsh => hmissed ⟨hi, hsh⟩
        exact (knows_record_iff (hm.heights ▸ hi.1) hi.2.1).mpr hshadow
    · cases hrule
  · rw [hc] at hf
    exact hold hf

theorem Missed.not_knownIn (hm : m.heights = k.heights) (hmissed : Missed s m k g) :
    ¬((m.record false s).cell g s.reporter s.voter).KnownIn
      ((k.record true s).cell g s.reporter s.voter) := by
  obtain ⟨hi, hshadow⟩ := hmissed
  intro hknown
  have hle : g ≤ s.height := Nat.le_of_lt hi.2.1
  have hk := hknown s.kind (knows_record_of_implied hi (Sighting.tells_kind _ hle))
  exact (knows_record_iff (hm ▸ hi.1) hi.2.1).mp hk hshadow

end Matrix

namespace Tracker

open Finality.Matrix (Cellwise Explained KnowsAll Missed)

variable {cfg : Config} {t u : Tracker} {c : Call} {cs : List Call}

theorem Parallel.apply_withRule (hp : Parallel (Cellwise Cell.SameFinal) t u) (c : Call) :
    Parallel (Cellwise Cell.SameFinal) (t.apply (cfg.withRule false) c)
      (u.apply (cfg.withRule true) c) := by
  refine hp.apply rfl ⟨rfl, fun _ _ _ => rfl⟩ fun s _ _ => ?_
  refine Matrix.cellwise_retain rfl (Matrix.heights_record_eq hp.matrix.heights rfl _ _) rfl ?_
  exact fun h _ r v => hp.matrix.sameFinal_record h r v

/-- No kept row is missed by the call. -/
def MissesNone (cfg : Config) (t u : Tracker) (c : Call) : Prop :=
  ∀ s ∈ Sighting.ofCall? c, t.Admits cfg s →
    ∀ g ∈ (t.apply (cfg.withRule false) c).matrix.heights, ¬Missed s t.matrix u.matrix g

instance (cfg : Config) (t u : Tracker) (c : Call) : Decidable (MissesNone cfg t u c) :=
  inferInstanceAs (Decidable (∀ s ∈ Sighting.ofCall? c, _))

/-- No call of the run misses a row, where `t` takes the calls without the rule and `u` with it. -/
def NothingMissed (cfg : Config) : Tracker → Tracker → List Call → Prop
  | _, _, [] => True
  | t, u, c :: cs => MissesNone cfg t u c ∧
      NothingMissed cfg (t.apply (cfg.withRule false) c) (u.apply (cfg.withRule true) c) cs

instance decidableNothingMissed (cfg : Config) :
    (t u : Tracker) → (cs : List Call) → Decidable (NothingMissed cfg t u cs)
  | _, _, [] => inferInstanceAs (Decidable True)
  | t, u, c :: cs =>
    have := decidableNothingMissed cfg (t.apply (cfg.withRule false) c)
      (u.apply (cfg.withRule true) c) cs
    inferInstanceAs (Decidable (_ ∧ _))

/-- As long as a call misses no row, the tracker with the rule goes on knowing all. -/
theorem knowsAll_apply_iff (hp : Parallel (Cellwise Cell.SameFinal) t u)
    (hall : KnowsAll t.matrix u.matrix) (c : Call) :
    KnowsAll (t.apply (cfg.withRule false) c).matrix (u.apply (cfg.withRule true) c).matrix ↔
      MissesNone cfg t u c := by
  constructor
  · intro hall' s hs ha g hg hmissed
    have ha₀ : t.Admits (cfg.withRule false) s := ha
    have ha₁ : u.Admits (cfg.withRule true) s := (hp.admits_iff rfl rfl).mp ha₀
    have hg' : g ∈ (u.apply (cfg.withRule true) c).matrix.heights :=
      (hp.apply_withRule c).matrix.heights ▸ hg
    have hknown := hall' g s.reporter s.voter
    rw [apply_of_admits hs ha₀] at hg hknown
    rw [apply_of_admits hs ha₁] at hg' hknown
    rw [(front_observe _ t s).cell hg, (front_observe _ u s).cell hg'] at hknown
    exact hmissed.not_knownIn hp.matrix.heights hknown
  · intro hnone
    have hempty : Cell.KnownIn {} {} := fun _ hf => hf
    have hknown : Parallel (Cellwise Cell.KnownIn) t u :=
      ⟨⟨hp.matrix.heights, hall⟩, hp.best, hp.authority⟩
    have hknown' : Parallel (Cellwise Cell.KnownIn) (t.apply (cfg.withRule false) c)
        (u.apply (cfg.withRule true) c) := by
      refine hknown.apply rfl ⟨rfl, fun _ _ _ => hempty⟩ fun s hs ha => ?_
      have hheights := Matrix.heights_record_eq hp.matrix.heights (s := s) rfl false true
      refine Matrix.cellwise_retain rfl hheights hempty ?_
      intro h hh r v
      have hkept : h ∈ (t.apply (cfg.withRule false) c).matrix.heights := by
        rw [apply_of_admits hs ha]
        exact hh
      exact Matrix.knownIn_record hp.matrix hall (hnone s hs ha h hkept) r v
    exact hknown'.matrix.cells

theorem knowsAll_take_iff (hp : Parallel (Cellwise Cell.SameFinal) t u)
    (hall : KnowsAll t.matrix u.matrix) (cs : List Call) :
    (∀ n, KnowsAll (run (cfg.withRule false) t (cs.take n)).matrix
        (run (cfg.withRule true) u (cs.take n)).matrix) ↔ NothingMissed cfg t u cs := by
  induction cs generalizing t u with
  | nil =>
      refine iff_of_true (fun n => ?_) trivial
      rw [List.take_nil]
      exact hall
  | cons c cs ih =>
      have hp' : Parallel (Cellwise Cell.SameFinal) (t.apply (cfg.withRule false) c)
          (u.apply (cfg.withRule true) c) := hp.apply_withRule c
      have hstep : KnowsAll (t.apply (cfg.withRule false) c).matrix
          (u.apply (cfg.withRule true) c).matrix ↔ MissesNone cfg t u c :=
        knowsAll_apply_iff hp hall c
      constructor
      · intro hrun
        have hall' := hrun 1
        exact ⟨hstep.mp hall', (ih hp' hall').mp fun n => hrun (n + 1)⟩
      · rintro ⟨hnone, hrest⟩ n
        cases n with
        | zero => exact hall
        | succ n => exact (ih hp' (hstep.mpr hnone)).mpr hrest n

theorem parallel_fresh : Parallel (Cellwise Cell.SameFinal) fresh fresh :=
  ⟨⟨rfl, fun _ _ _ => rfl⟩, rfl, rfl⟩

theorem knowsAll_fresh : KnowsAll fresh.matrix fresh.matrix := fun _ _ _ _ hf => hf

/-- **What extrapolation changes.**  Run on the same calls with and without the rule, two trackers
have the same rows and the same finalizations after every call.  The one with the rule knows after
every call all that the other one knows, exactly if no call misses a row. -/
theorem knowsAll_run_iff (cfg : Config) (cs : List Call) :
    let m n := (run (cfg.withRule false) fresh (cs.take n)).matrix
    let k n := (run (cfg.withRule true) fresh (cs.take n)).matrix
    (∀ n, (m n).heights = (k n).heights ∧
      ∀ h r v, ((m n).cell h r v).hasFinalization = ((k n).cell h r v).hasFinalization) ∧
    ((∀ n, KnowsAll (m n) (k n)) ↔ NothingMissed cfg fresh fresh cs) := by
  intro m k
  refine ⟨fun n => ?_, knowsAll_take_iff parallel_fresh knowsAll_fresh cs⟩
  have hstep : ∀ {c d : Call} {t u : Tracker}, c = d → Parallel (Cellwise Cell.SameFinal) t u →
      Parallel (Cellwise Cell.SameFinal) (t.apply (cfg.withRule false) c)
        (u.apply (cfg.withRule true) d) := by
    rintro c _ t u rfl hp
    exact hp.apply_withRule c
  have hp := parallel_fresh.run hstep (List.forall₂_refl (cs.take n))
  exact ⟨hp.matrix.heights, hp.matrix.cells⟩

/-- With the rule, the precommit that `A` sees at 10 marks a prevote at row 5.  Row 3 is opened
late, and so the walk of the prevote that `A` sees at 10 stops at row 5 and does not come to row 3.
-/
theorem not_knowsAll_run :
    ¬∀ (cfg : Config) (cs : List Call) (n : Nat),
      KnowsAll (run (cfg.withRule false) fresh (cs.take n)).matrix
        (run (cfg.withRule true) fresh (cs.take n)).matrix := by
  intro hall
  let cs : List Call := [.vote .prevote "B" 5 "0x" "V", .vote .precommit "A" 10 "0x" "V",
    .vote .prevote "B" 3 "0x" "V", .vote .prevote "A" 10 "0x" "V"]
  have hknown := hall .standard cs 4 3 "A" "V" (.vote .prevote) (by decide)
  exact absurd hknown (by decide)

/-! ### Runs that grow upward -/

/-- A walk that is stopped in an explained matrix misses nothing. -/
theorem nothingMissed_of_explained {past : List Sighting}
    (hp : Parallel (Cellwise Cell.SameFinal) t u) (hu : Explained true past u.matrix)
    (hup : GrowsUpward (cfg.withRule true) u cs) : NothingMissed cfg t u cs := by
  induction cs generalizing t u past with
  | nil => trivial
  | cons c cs ih =>
      obtain ⟨htop, hrest⟩ := hup
      have hu' : Explained true (u.note (cfg.withRule true) past c)
          (u.apply (cfg.withRule true) c).matrix := Explained.apply hu htop
      refine ⟨fun s _ _ g _ hmissed => ?_, ih (hp.apply_withRule c) hu' hrest⟩
      obtain ⟨hi, hshadow⟩ := hmissed
      exact hu.closed.not_shadowed (hp.matrix.heights ▸ hi.1) hshadow

/-- In runs that grow upward extrapolation only adds to what is known. -/
theorem knowsAll_run_of_growsUpward (hup : GrowsUpward (cfg.withRule true) fresh cs) (n : Nat) :
    KnowsAll (run (cfg.withRule false) fresh (cs.take n)).matrix
      (run (cfg.withRule true) fresh (cs.take n)).matrix := by
  have hnothing := nothingMissed_of_explained parallel_fresh (Explained.empty _) hup
  exact (knowsAll_take_iff parallel_fresh knowsAll_fresh cs).mpr hnothing n

end Tracker

end Finality
