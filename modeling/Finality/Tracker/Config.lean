import Finality.Schema

/-! # Configuration

The limits of a tracker and its one rule of extrapolation.  A configuration is given as the fields
of a document; `Config.ofFields` accepts them exactly when every key is the name or the upper-case
spelling of a field, no field is given twice, and every value has the type and range of its field.

* `maxHeights` is an integer of at least one, or null for no bound.  So pruning always keeps a row.
* `staleWindow` is an integer of at least zero, or null for no filter.
* `precommitImpliesPrevote` is a truth value. -/

namespace Finality

/-- Settings of a tracker. -/
structure Config where
  /-- Greatest number of rows that the matrix keeps. -/
  maxHeights : Option Nat := some 50
  /-- How far behind the best block an event may lag. -/
  staleWindow : Option Nat := some 50
  /-- Whether an implied precommit also implies a prevote. -/
  precommitImpliesPrevote : Bool := false
  maxHeights_pos : ∀ n ∈ maxHeights, 0 < n := by simp
deriving DecidableEq, Repr

namespace Config

open Schema (Field Problem Issue Keyed)

/-- A value of a document, as far as a configuration can tell values apart. -/
inductive Setting where
  | null
  | int (n : Int)
  | bool (b : Bool)
  | other
deriving DecidableEq, Repr

/-- Setting of a JSON value. -/
def Setting.ofJson : Json.Value → Setting
  | .null => .null
  | .int n => .int n
  | .bool b => .bool b
  | _ => .other

/-- The configuration of an empty document. -/
def standard : Config := {}

/-- Name of the configuration in reports. -/
def title : String := "TrackerConfig"

/-- The bound on rows. -/
def maxHeightsField : Field := ⟨"max_heights", "MAX_HEIGHTS"⟩

/-- The stale window. -/
def staleWindowField : Field := ⟨"stale_window", "STALE_WINDOW"⟩

/-- The rule of extrapolation. -/
def precommitImpliesPrevoteField : Field :=
  ⟨"precommit_implies_prevote", "PRECOMMIT_IMPLIES_PREVOTE"⟩

/-- All fields, in the order of their declaration. -/
def declared : List Field := [maxHeightsField, staleWindowField, precommitImpliesPrevoteField]

/-- An optional integer with a least value. -/
def boundOf (least : Nat) : Setting → Except Problem (Option Nat)
  | .null => .ok none
  | .int n => if (least : Int) ≤ n then .ok (some n.toNat) else .error (.below least)
  | _ => .error .notInteger

/-- A truth value. -/
def truthOf : Setting → Except Problem Bool
  | .bool b => .ok b
  | _ => .error .notTruthValue

/-- A bound that was read is at least the least value. -/
theorem le_of_boundOf {least n : Nat} {s : Setting} (h : boundOf least s = .ok (some n)) :
    least ≤ n := by
  cases s with
  | int k =>
    simp only [boundOf] at h
    split at h
    · simp only [Except.ok.injEq, Option.some.injEq] at h
      omega
    · simp at h
  | _ => simp [boundOf] at h

/-- The bound on rows that the fields give; fifty if they give none. -/
def maxHeightsOf (fields : List (Keyed Setting)) :
    Except Issue { bound : Option Nat // ∀ n ∈ bound, 0 < n } :=
  match maxHeightsField.find? fields with
  | none => .ok ⟨some 50, by simp⟩
  | some (spelling, s) =>
    match h : boundOf 1 s with
    | .ok none => .ok ⟨none, by simp⟩
    | .ok (some n) => .ok ⟨some n, fun k hk => by cases hk; exact le_of_boundOf h⟩
    | .error problem => .error (.ofField spelling problem)

/-- Configuration of the fields of a document, or all that is wrong with them: first the declared
fields in their order, then the other keys in theirs. -/
def ofFields (fields : List (Keyed Setting)) : Except (List Issue) Config :=
  let heights := maxHeightsOf fields
  let window := staleWindowField.read fields (some 50) (boundOf 0)
  let rule := precommitImpliesPrevoteField.read fields false truthOf
  match heights, window, rule, Schema.unexpected declared fields with
  | .ok heights, .ok window, .ok rule, [] =>
    .ok { maxHeights := heights.1
          staleWindow := window
          precommitImpliesPrevote := rule
          maxHeights_pos := heights.2 }
  | heights, window, rule, others =>
    .error (Schema.issues heights ++ Schema.issues window ++ Schema.issues rule ++ others)

/-- Configuration of a JSON value. -/
def ofJson : Json.Value → Except (List Issue) Config
  | .object fields => ofFields (fields.map fun f => (.name f.1, Setting.ofJson f.2))
  | _ => .error [.notObject title]

/-- A configuration as an object, with upper-case keys if asked for. -/
def toJson (byAlias : Bool) (c : Config) : Json.Value :=
  .object [
    (maxHeightsField.key byAlias, .ofOption .nat c.maxHeights),
    (staleWindowField.key byAlias, .ofOption .nat c.staleWindow),
    (precommitImpliesPrevoteField.key byAlias, .bool c.precommitImpliesPrevote)]

/-- Events at a height are stale when the best block is more than the window above it. -/
def isStale (c : Config) (best : Option Nat) (height : Nat) : Bool :=
  match c.staleWindow, best with
  | some window, some best => height + window < best
  | _, _ => false

end Config

end Finality
