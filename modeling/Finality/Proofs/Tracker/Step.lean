import Finality.Tracker.Basic
import Finality.Proofs.Tracker.Sighting

/-! # Steps and runs of a tracker

`Moves cfg t c t'` lists once what a call can do to a tracker: a sighting is dropped as stale or
observed, an announced set is kept or changed, the best block is set, or everything is forgotten
(`moves_apply`).  What a sighting does to the matrix is `Matrix.record` followed by dropping rows
from the bottom (`front_observe`). -/

namespace Finality.Tracker

open Finality.Matrix (Front)

variable {cfg : Config} {t : Tracker} {c : Call} {s : Sighting}

/-- A sighting is not stale when it comes in. -/
def Admits (cfg : Config) (t : Tracker) (s : Sighting) : Prop := cfg.isStale t.best s.height = false

instance (cfg : Config) (t : Tracker) (s : Sighting) : Decidable (t.Admits cfg s) :=
  inferInstanceAs (Decidable (_ = _))

/-- State after a sighting that is not stale. -/
def observe (cfg : Config) (t : Tracker) (s : Sighting) : Tracker :=
  (t.settle cfg (t.matrix.record cfg.precommitImpliesPrevote s)).1

/-- State after a change of the authority set. -/
def adopt (t : Tracker) (setId : Int) (members : List Address) : Tracker :=
  { t with
    matrix := .empty
    authority := { setId := some setId, members, loading := t.authority.setId.isNone } }

/-- What a call can do. -/
inductive Moves (cfg : Config) (t : Tracker) : Call → Tracker → Prop
  | stale {c : Call} {s : Sighting} :
      Sighting.ofCall? c = some s → ¬t.Admits cfg s → Moves cfg t c t
  | observed {c : Call} {s : Sighting} :
      Sighting.ofCall? c = some s → t.Admits cfg s → Moves cfg t c (t.observe cfg s)
  | setKept {id : Int} {members : List Address} :
      t.authority.setId = some id → Moves cfg t (.authoritySet id members) t
  | setChanged {id : Int} {members : List Address} :
      t.authority.setId ≠ some id → Moves cfg t (.authoritySet id members) (t.adopt id members)
  | bestSet {h : Nat} : Moves cfg t (.bestBlock h) { t with best := some h }
  | forgot : Moves cfg t .reset fresh

theorem apply_of_admits (hs : Sighting.ofCall? c = some s) (ha : t.Admits cfg s) :
    t.apply cfg c = t.observe cfg s := by
  cases c with
  | vote v r h hash w =>
      cases hs
      have hfresh : ¬cfg.isStale t.best h = true := ne_true_of_eq_false ha
      simp only [apply, step, observe, if_neg hfresh, ← Matrix.recordVote_eq_record]
  | finalized r h hash =>
      cases hs
      have hfresh : ¬cfg.isStale t.best h = true := ne_true_of_eq_false ha
      simp only [apply, step, observe, if_neg hfresh, ← Matrix.recordFinalization_eq_record]
  | authoritySet | bestBlock | reset => cases hs

theorem apply_of_not_admits (hs : Sighting.ofCall? c = some s) (ha : ¬t.Admits cfg s) :
    t.apply cfg c = t := by
  unfold Admits at ha
  cases c <;> cases hs <;> simp only [apply, step, Sighting.height] at ha ⊢ <;>
    rw [if_pos (by simpa using ha)]

theorem apply_setKept {id : Int} {members : List Address} (hid : t.authority.setId = some id) :
    t.apply cfg (.authoritySet id members) = t := by
  simp [apply, step, Authority.announce, hid]

theorem apply_setChanged {id : Int} {members : List Address} (hid : t.authority.setId ≠ some id) :
    t.apply cfg (.authoritySet id members) = t.adopt id members := by
  simp [apply, step, Authority.announce, hid, adopt]

/-- Every call does one of the listed things. -/
theorem moves_apply (cfg : Config) (t : Tracker) (c : Call) : Moves cfg t c (t.apply cfg c) := by
  cases hs : Sighting.ofCall? c with
  | some s =>
      by_cases ha : t.Admits cfg s
      · rw [apply_of_admits hs ha]
        exact .observed hs ha
      · rw [apply_of_not_admits hs ha]
        exact .stale hs ha
  | none =>
      cases c with
      | vote => cases hs
      | finalized => cases hs
      | bestBlock h => exact .bestSet
      | reset => exact .forgot
      | authoritySet id members =>
          by_cases hid : t.authority.setId = some id
          · rw [apply_setKept hid]
            exact .setKept hid
          · rw [apply_setChanged hid]
            exact .setChanged hid

/-! ### Observing -/

/-- What a bound leaves of a list. -/
def keepFirst {α : Type} (bound : Option Nat) (l : List α) : List α :=
  match bound with
  | none => l
  | some n => l.take n

theorem keepFirst_prefix {α : Type} (bound : Option Nat) (l : List α) : keepFirst bound l <+: l := by
  cases bound with
  | none => exact List.prefix_rfl
  | some n => exact List.take_prefix n l

theorem map_keepFirst {α β : Type} (f : α → β) (bound : Option Nat) (l : List α) :
    (keepFirst bound l).map f = keepFirst bound (l.map f) := by
  cases bound with
  | none => rfl
  | some n => exact List.map_take

theorem rows_retain (cfg : Config) (m : Matrix) :
    (retain cfg m).1.rows = keepFirst cfg.maxHeights m.rows := by
  unfold retain
  cases cfg.maxHeights with
  | none => rfl
  | some n => exact Matrix.rows_prune n m

theorem heights_retain_eq {cfg cfg' : Config} {m k : Matrix}
    (hbound : cfg.maxHeights = cfg'.maxHeights) (hm : m.heights = k.heights) :
    (retain cfg m).1.heights = (retain cfg' k).1.heights := by
  have hrows : m.rows.map (·.1) = k.rows.map (·.1) := hm
  rw [Matrix.heights, Matrix.heights, rows_retain, rows_retain, map_keepFirst, map_keepFirst, hrows,
    hbound]

theorem front_retain (cfg : Config) (m : Matrix) : Front (retain cfg m).1 m := by
  rw [Front, rows_retain]
  exact keepFirst_prefix _ _

/-- The bound is positive, so the newest row stays. -/
theorem rows_retain_ne_nil {m : Matrix} (hm : m.rows ≠ []) : (retain cfg m).1.rows ≠ [] := by
  rw [rows_retain]
  cases hn : cfg.maxHeights with
  | none => exact hm
  | some n =>
      have hpos : 0 < n := cfg.maxHeights_pos n hn
      simp only [keepFirst, ne_eq, List.take_eq_nil_iff, not_or]
      exact ⟨Nat.ne_of_gt hpos, hm⟩

theorem front_observe (cfg : Config) (t : Tracker) (s : Sighting) :
    Front (t.observe cfg s).matrix (t.matrix.record cfg.precommitImpliesPrevote s) :=
  front_retain cfg _

/-! ### Runs -/

@[simp] theorem run_nil (cfg : Config) (t : Tracker) : run cfg t [] = t := rfl

@[simp] theorem run_cons (cfg : Config) (t : Tracker) (c : Call) (cs : List Call) :
    run cfg t (c :: cs) = run cfg (t.apply cfg c) cs := rfl

/-- A tracker of two rows that lets precommits stand for prevotes; runs that serve as instances
use it. -/
def twoRows : Config := { maxHeights := some 2, precommitImpliesPrevote := true }

end Finality.Tracker
