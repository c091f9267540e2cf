import Finality.Proofs.Tracker.Repetition
import Finality.Proofs.Tracker.History

/-! # What the counters say

`Counts cfg t x c t' x'` lists once what a call does to a tracker and to its counters: it is
`Moves` with the counters beside the state, and every call does one of the listed things
(`counts_record`).

There are four counters of sightings, one for each kind that is recorded and one for those that are
stale (`Metrics.tally`).  A sighting meets one `Fate` and adds one to its counter, no other call
adds to any of them (`Counts.tally_of_none`).  Over a whole run the four add up to the number of sightings,
the row gauge shows the number of rows, and the changes of the authority set are counted
(`meter_accounts`). -/

namespace Finality

/-- What becomes of a sighting. -/
inductive Fate where
  | recorded (k : MarkKind)
  | stale
deriving DecidableEq, Repr

namespace Metrics

/-- The counter of the sightings that met a fate. -/
def tally (x : Metrics) : Fate → Nat
  | .recorded (.vote v) => sample v x.votes
  | .recorded .finalization => x.finalizations
  | .stale => x.stale

/-- All sightings that were counted. -/
def sightings (x : Metrics) : Nat :=
  x.tally (.recorded (.vote .prevote)) + x.tally (.recorded (.vote .precommit)) +
    x.tally (.recorded .finalization) + x.tally .stale

theorem sample_bump {κ : Type} [DecidableEq κ] (j k : κ) (n : Nat) (samples : List (κ × Nat)) :
    sample j (bump k n samples) = sample j samples + if j = k then n else 0 := by
  by_cases hj : j = k
  · subst hj
    simp [sample, bump, Ordered.lookup_alter_self]
  · simp [sample, bump, Ordered.lookup_alter_ne (beq_false_of_ne hj), hj]

/-- Counts a sighting that was recorded. -/
def sighted (k : MarkKind) (marked size : Nat) (x : Metrics) : Metrics :=
  let x := { x with backfilled := bump k marked x.backfilled, rows := size }
  match k with
  | .vote v => { x with votes := bump v 1 x.votes }
  | .finalization => { x with finalizations := x.finalizations + 1 }

variable {x : Metrics} {k : MarkKind} {marked size : Nat}

@[simp] theorem rows_sighted : (x.sighted k marked size).rows = size := by cases k <;> rfl

@[simp] theorem resets_sighted : (x.sighted k marked size).resets = x.resets := by cases k <;> rfl

theorem backfilled_sighted (j : MarkKind) :
    sample j (x.sighted k marked size).backfilled =
      sample j x.backfilled + if j = k then marked else 0 := by
  cases k <;> exact sample_bump _ _ _ _

theorem tally_sighted (f : Fate) :
    (x.sighted k marked size).tally f = x.tally f + if f = .recorded k then 1 else 0 := by
  rcases f with (v | _) | _ <;> cases k <;> simp [tally, sighted, sample_bump]

end Metrics

namespace Tracker

open Finality.Metrics (sample)

variable {cfg : Config} {t t' : Tracker} {x x' : Metrics} {c : Call} {s : Sighting}

/-- What a call can do to a tracker and its counters. -/
inductive Counts (cfg : Config) (t : Tracker) (x : Metrics) : Call → Tracker → Metrics → Prop
  | stale {c : Call} {s : Sighting} : Sighting.ofCall? c = some s → ¬t.Admits cfg s →
      Counts cfg t x c t { x with stale := x.stale + 1 }
  | observed {c : Call} {s : Sighting} : Sighting.ofCall? c = some s → t.Admits cfg s →
      Counts cfg t x c (t.observe cfg s) (x.sighted s.kind
        (t.matrix.recordBy Matrix.backfill cfg.precommitImpliesPrevote s).2
        (t.observe cfg s).matrix.size)
  | setKept {id : Int} {members : List Address} : t.authority.setId = some id →
      Counts cfg t x (.authoritySet id members) t x
  | setChanged {id : Int} {members : List Address} : t.authority.setId ≠ some id →
      Counts cfg t x (.authoritySet id members) (t.adopt id members)
        { x with resets := x.resets + 1, rows := 0 }
  | bestSet {h : Nat} : Counts cfg t x (.bestBlock h) { t with best := some h } x
  | forgot : Counts cfg t x .reset fresh { x with rows := 0 }

theorem record_of_admits (hs : Sighting.ofCall? c = some s) (ha : t.Admits cfg s) (x : Metrics) :
    x.record (t.step cfg c).2 = x.sighted s.kind
      (t.matrix.recordBy Matrix.backfill cfg.precommitImpliesPrevote s).2
      (t.observe cfg s).matrix.size := by
  have hfresh : cfg.isStale t.best s.height = false := ha
  rw [← stepBy_backfill]
  simp only [stepBy, hs, hfresh, Bool.false_eq_true, if_false]
  cases s <;> rfl

theorem record_of_not_admits (hs : Sighting.ofCall? c = some s) (ha : ¬t.Admits cfg s)
    (x : Metrics) : x.record (t.step cfg c).2 = { x with stale := x.stale + 1 } := by
  have hstale : cfg.isStale t.best s.height = true := by simpa [Admits] using ha
  rw [← stepBy_backfill]
  simp only [stepBy, hs, hstale, if_true]
  rfl

theorem counts_record (cfg : Config) (t : Tracker) (x : Metrics) (c : Call) :
    Counts cfg t x c (t.apply cfg c) (x.record (t.step cfg c).2) := by
  cases hs : Sighting.ofCall? c with
  | some s =>
      by_cases ha : t.Admits cfg s
      · rw [apply_of_admits hs ha, record_of_admits hs ha]
        exact .observed hs ha
      · rw [apply_of_not_admits hs ha, record_of_not_admits hs ha]
        exact .stale hs ha
  | none =>
      cases c with
      | vote => cases hs
      | finalized => cases hs
      | bestBlock h => exact .bestSet
      | reset => exact .forgot
      | authoritySet id members =>
          by_cases hid : t.authority.setId = some id
          · have hx : x.record (t.step cfg (.authoritySet id members)).2 = x := by
              simp [step, Authority.announce, hid, Metrics.record]
            rw [apply_setKept hid, hx]
            exact .setKept hid
          · have hx : x.record (t.step cfg (.authoritySet id members)).2 =
                { x with resets := x.resets + 1, rows := 0 } := by
              simp [step, Authority.announce, hid, Metrics.record]
            rw [apply_setChanged hid, hx]
            exact .setChanged hid

/-! ### One call -/

/-- What becomes of a sighting that comes in. -/
def fate (cfg : Config) (t : Tracker) (s : Sighting) : Fate :=
  if t.Admits cfg s then .recorded s.kind else .stale

/-- The call announces a set other than the known one. -/
def changesSet (t : Tracker) : Call → Bool
  | .authoritySet id _ => t.authority.setId != some id
  | _ => false

namespace Counts

/-- A sighting adds one to the counter of its fate, and to no other. -/
theorem tally (hm : Counts cfg t x c t' x') (hs : Sighting.ofCall? c = some s) (f : Fate) :
    x'.tally f = x.tally f + if f = t.fate cfg s then 1 else 0 := by
  cases hm with
  | stale hs' ha =>
      obtain rfl := Option.some.inj (hs'.symm.trans hs)
      rw [fate, if_neg ha]
      rcases f with (v | _) | _ <;> simp [Metrics.tally]
  | observed hs' ha =>
      obtain rfl := Option.some.inj (hs'.symm.trans hs)
      rw [fate, if_pos ha, Metrics.tally_sighted]
  | setKept | setChanged | bestSet | forgot => cases hs

theorem tally_of_none (hm : Counts cfg t x c t' x') (hs : Sighting.ofCall? c = none) (f : Fate) :
    x'.tally f = x.tally f := by
  cases hm with
  | stale hs' | observed hs' => cases hs'.symm.trans hs
  | setKept | bestSet => rfl
  | setChanged | forgot => rcases f with (v | _) | _ <;> rfl

/-- Exactly the sightings that are stale add one to the stale counter. -/
theorem stale_iff (hm : Counts cfg t x c t' x') :
    x'.stale = x.stale + 1 ↔ ∃ s, Sighting.ofCall? c = some s ∧ ¬t.Admits cfg s := by
  cases hs : Sighting.ofCall? c with
  | none =>
      have hkept : x'.stale = x.stale := hm.tally_of_none hs .stale
      simp [hkept]
  | some s =>
      have hnext : x'.stale = x.stale + if .stale = t.fate cfg s then 1 else 0 :=
        hm.tally hs .stale
      by_cases ha : t.Admits cfg s <;> simp [hnext, fate, ha]

/-- A call that adds to the stale counter does nothing else. -/
theorem eq_of_stale (hm : Counts cfg t x c t' x') (hstale : x'.stale = x.stale + 1) :
    t' = t ∧ x' = { x with stale := x.stale + 1 } := by
  obtain ⟨s, hs, ha⟩ := hm.stale_iff.mp hstale
  cases hm with
  | stale => exact ⟨rfl, rfl⟩
  | observed hs' ha' =>
      obtain rfl := Option.some.inj (hs'.symm.trans hs)
      exact absurd ha' ha
  | setKept | setChanged | bestSet | forgot => cases hs

theorem rows (hm : Counts cfg t x c t' x') (hx : x.rows = t.matrix.size) :
    x'.rows = t'.matrix.size := by
  cases hm with
  | stale | setKept | bestSet => exact hx
  | observed => exact Metrics.rows_sighted
  | setChanged | forgot => rfl

theorem resets (hm : Counts cfg t x c t' x') :
    x'.resets = x.resets + if t.changesSet c then 1 else 0 := by
  cases hm with
  | stale hs => cases c <;> cases hs <;> rfl
  | observed hs => cases c <;> cases hs <;> rw [Metrics.resets_sighted] <;> rfl
  | setKept hid => simp [changesSet, hid]
  | setChanged hid => simp [changesSet, hid]
  | bestSet | forgot => rfl

end Counts

/-- A sighting is stale exactly if its height is below the best block less the window. -/
theorem not_admits_iff : ¬t.Admits cfg s ↔ ∃ window best, cfg.staleWindow = some window ∧
    t.best = some best ∧ (s.height : Int) < best - window := by
  unfold Admits Config.isStale
  cases cfg.staleWindow with
  | none => simp
  | some window =>
      cases t.best with
      | none => simp
      | some best =>
          simp only [decide_eq_false_iff_not, not_not]
          constructor
          · intro hlt
            exact ⟨window, best, rfl, rfl, by omega⟩
          · rintro ⟨_, _, ⟨⟩, ⟨⟩, hlt⟩
            omega

/-! ### Runs -/

theorem rows_meter (cfg : Config) (cs : List Call) :
    (meter cfg fresh {} cs).rows = (run cfg fresh cs).matrix.size := by
  induction cs using List.reverseRecOn with
  | nil => rfl
  | append_singleton cs c ih =>
      rw [meter_concat, run_concat]
      exact (counts_record cfg _ _ c).rows ih

theorem resets_meter (cfg : Config) (cs : List Call) :
    (meter cfg fresh {} cs).resets = (trail cfg fresh cs).countP fun e => e.1.changesSet e.2 := by
  induction cs using List.reverseRecOn with
  | nil => rfl
  | append_singleton cs c ih =>
      rw [meter_concat, trail_concat, List.countP_append, List.countP_singleton, ← ih]
      exact (counts_record cfg _ _ c).resets

theorem sightings_meter (cfg : Config) (cs : List Call) :
    (meter cfg fresh {} cs).sightings = cs.countP fun c => (Sighting.ofCall? c).isSome := by
  induction cs using List.reverseRecOn with
  | nil => rfl
  | append_singleton cs c ih =>
      rw [meter_concat, List.countP_append, List.countP_singleton, ← ih]
      have hm := counts_record cfg (run cfg fresh cs) (meter cfg fresh {} cs) c
      cases hs : Sighting.ofCall? c with
      | none => simp only [Metrics.sightings, hm.tally_of_none hs, Option.isSome_none,
          Bool.false_eq_true, if_false, Nat.add_zero]
      | some s =>
          -- whatever becomes of the sighting, one of the four summands grows
          simp only [Metrics.sightings, hm.tally hs]
          generalize (run cfg fresh cs).fate cfg s = f
          rcases f with ((_ | _) | _) | _ <;> simp <;> omega

/-- **The counters account for every call.**  After every run that was counted from the start:

* the row gauge shows the number of rows;
* votes and finalizations that were recorded and sightings that were stale add up to the number of
  sightings that came in;
* the resets are the announcements of a set other than the one known at that time;
* a next sighting adds one to exactly one of these four counters, and another call to none; if it
  adds to the stale counter nothing else changes, and it does so exactly if its height is below the
  best block less the window. -/
theorem meter_accounts (cfg : Config) (cs : List Call) :
    let t := run cfg fresh cs
    let x := meter cfg fresh {} cs
    x.rows = t.matrix.size ∧
    sample .prevote x.votes + sample .precommit x.votes + x.finalizations + x.stale =
      cs.countP (fun c => (Sighting.ofCall? c).isSome) ∧
    x.resets = (trail cfg fresh cs).countP (fun e => e.1.changesSet e.2) ∧
    ∀ c,
      let t' := t.apply cfg c
      let x' := x.record (t.step cfg c).2
      (∀ s, Sighting.ofCall? c = some s →
        ∃ f, ∀ g, x'.tally g = x.tally g + if g = f then 1 else 0) ∧
      (Sighting.ofCall? c = none → ∀ g, x'.tally g = x.tally g) ∧
      (x'.stale = x.stale + 1 → t' = t ∧ x' = { x with stale := x.stale + 1 }) ∧
      (x'.stale = x.stale + 1 ↔ ∃ s window best, Sighting.ofCall? c = some s ∧
        cfg.staleWindow = some window ∧ t.best = some best ∧
        (s.height : Int) < best - window) := by
  intro t x
  refine ⟨rows_meter cfg cs, sightings_meter cfg cs, resets_meter cfg cs, fun c => ?_⟩
  intro t' x'
  have hm : Counts cfg t x c t' x' := counts_record cfg t x c
  refine ⟨fun s hs => ⟨t.fate cfg s, hm.tally hs⟩, hm.tally_of_none, hm.eq_of_stale, ?_⟩
  rw [hm.stale_iff]
  simp only [not_admits_iff, exists_and_left]

/-- Three sightings are recorded, one of them in a row that is dropped at once, one is stale, and of
three announcements two change the set. -/
theorem meter_accounts_twoRows :
    let cs : List Call := [.authoritySet 1 ["V"], .vote .prevote "A" 7 "0x" "V",
      .finalized "V" 9 "0x", .vote .precommit "A" 3 "0x" "V", .authoritySet 1 ["V"], .bestBlock 60,
      .vote .prevote "A" 9 "0x" "V", .vote .prevote "A" 20 "0x" "V", .authoritySet 2 ["W"]]
    let t := run twoRows fresh cs
    let x := meter twoRows fresh {} cs
    let late : Call := .vote .precommit "B" 9 "0x" "V"
    x.rows = 0 ∧
      sample .prevote x.votes + sample .precommit x.votes + x.finalizations + x.stale = 5 ∧
      x.resets = 2 ∧ t.apply twoRows late = t ∧ (x.record (t.step twoRows late).2).stale = 2 := by
  intro cs t x late
  obtain ⟨hrows, hsightings, hresets, hnext⟩ := meter_accounts twoRows cs
  obtain ⟨-, -, honly, hstale⟩ := hnext late
  have hadds : (x.record (t.step twoRows late).2).stale = x.stale + 1 :=
    hstale.mpr ⟨.vote .precommit "B" 9 "V", 50, 60, rfl, rfl, by decide, by decide⟩
  refine ⟨hrows.trans (by decide), hsightings.trans (by decide), hresets.trans (by decide),
    (honly hadds).1, hadds.trans (by decide)⟩

end Tracker

end Finality
