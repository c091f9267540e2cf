import Finality.Height
import Finality.Proofs.Decimal.Exact
import Finality.Proofs.Except
import Finality.Proofs.Text.Numeral

/-! # The spellings of heights

What a value must be to spell an integer (`Spells`): an integer itself, a floating point number whose
rational is this integer, which zero is under either sign, or a text that is a numeral of it.  What
speaks against a value as a height (`Grounds`), whether or not something else speaks against it as
well, and which of these objections comes first in the order in which they are raised (`First`).

Heights are accepted by this grammar and nothing else is, and what is refused is refused for the
first of its objections, by a fault that names the type and the value (`ofValue_grammar`). -/

namespace Finality.Height

open Text (Numeral.Denotes Numeral.maxDigits Numeral.read_eq_ok_iff)
open Except (bind_eq_error_iff bind_eq_ok_iff mapError_eq_error_iff mapError_eq_ok_iff)

/-! ### The grammar -/

/-- A value spells an integer. -/
inductive Spells : Json.Value → Int → Prop
  | int {n : Int} : Spells (.int n) n
  | float {x : Decimal.Binary64} {n : Int} : x.value? = some (n : ℚ) → Spells (.float x) n
  | text {s : String} {n : Int} : Numeral.Denotes s.toList n → Spells (.text s) n

/-- What speaks against a value as a height. -/
inductive Grounds : Json.Value → Objection → Prop
  | truthValue {b : Bool} : Grounds (.bool b) .truthValue
  | notIntegral {x : Decimal.Binary64} :
      (∀ n : Int, x.value? ≠ some (n : ℚ)) → Grounds (.float x) .notIntegral
  | notInteger {v : Json.Value} : (∀ n, ¬Spells v n) → Grounds v .notInteger
  | negative {v : Json.Value} {n : Int} : Spells v n → n < 0 → Grounds v .negative

/-- Objections in the order in which they are raised. -/
def Objection.order : List Objection := [truthValue, notIntegral, notInteger, negative]

/-- The first objection that applies to a value. -/
def First (v : Json.Value) (o : Objection) : Prop :=
  Grounds v o ∧ ∀ o' ∈ Objection.order.takeWhile (· != o), ¬Grounds v o'

variable {v : Json.Value} {o : Objection} {x : Decimal.Binary64} {n : Int} {h : Nat} {fault : Fault}

/-! ### Integers -/

theorem integerOf_eq_ok_iff : integerOf v = .ok n ↔ Spells v n := by
  constructor
  · intro hread
    cases v with
    | int m =>
        cases hread
        exact .int
    | float x =>
        cases hx : x.toInt? with
        | none => simp [integerOf, hx] at hread
        | some m =>
            obtain rfl : m = n := by simpa [integerOf, hx] using hread
            exact .float (Decimal.Binary64.toInt?_eq_some_iff.mp hx)
    | text s =>
        cases hs : Text.Numeral.read 10 s.toList with
        | error fault => simp [integerOf, hs] at hread
        | ok m =>
            obtain rfl : m = n := by simpa [integerOf, hs] using hread
            exact .text (Numeral.read_eq_ok_iff.mp hs)
    | null => cases hread
    | bool b => cases hread
    | array items => cases hread
    | object fields => cases hread
  · intro hspells
    cases hspells with
    | int => rfl
    | float hx => simp [integerOf, Decimal.Binary64.toInt?_eq_some_iff.mpr hx]
    | text hs => simp [integerOf, Numeral.read_eq_ok_iff.mpr hs]

theorem Spells.unique {m : Int} (hm : Spells v m) (hn : Spells v n) : m = n :=
  Except.ok.inj ((integerOf_eq_ok_iff.mpr hm).symm.trans (integerOf_eq_ok_iff.mpr hn))

/-- A value that is neither a truth value nor a floating point number is only not an integer. -/
theorem first_notInteger (hnone : ∀ n, ¬Spells v n) (hbool : ∀ b, v ≠ .bool b)
    (hfloat : ∀ x, v ≠ .float x) : First v .notInteger := by
  refine ⟨.notInteger hnone, fun o' ho' hgrounds => ?_⟩
  cases hgrounds with
  | truthValue => exact hbool _ rfl
  | notIntegral => exact hfloat _ rfl
  | notInteger => simp [Objection.order] at ho'
  | negative => simp [Objection.order] at ho'

theorem first_notIntegral (hnone : ∀ n, ¬Spells (.float x) n) : First (.float x) .notIntegral := by
  refine ⟨.notIntegral fun n hn => hnone n (.float hn), fun o' ho' hgrounds => ?_⟩
  cases hgrounds <;> simp [Objection.order] at ho'

/-- What is refused as an integer is refused for its first objection. -/
theorem First.of_integerOf (hread : integerOf v = .error o) : First v o := by
  have hnone : ∀ n, ¬Spells v n := by
    intro n hspells
    rw [integerOf_eq_ok_iff.mpr hspells] at hread
    cases hread
  cases v with
  | bool b =>
      cases hread
      exact ⟨.truthValue, by simp [Objection.order]⟩
  | float x =>
      cases hx : x.toInt? with
      | some n => simp [integerOf, hx] at hread
      | none =>
          obtain rfl : Objection.notIntegral = o := by simpa [integerOf, hx] using hread
          exact first_notIntegral hnone
  | text s =>
      cases hs : Text.Numeral.read 10 s.toList with
      | ok n => simp [integerOf, hs] at hread
      | error fault =>
          obtain rfl : Objection.notInteger = o := by simpa [integerOf, hs] using hread
          exact first_notInteger hnone nofun nofun
  | int m => cases hread
  | null => cases hread; exact first_notInteger hnone nofun nofun
  | array items => cases hread; exact first_notInteger hnone nofun nofun
  | object fields => cases hread; exact first_notInteger hnone nofun nofun

/-! ### Heights -/

theorem ofValue?_eq_ok_iff : ofValue? v = .ok h ↔ Spells v h := by
  rw [← integerOf_eq_ok_iff, ofValue?, bind_eq_ok_iff]
  constructor
  · rintro ⟨n, hn, hsign⟩
    cases n with
    | ofNat m => cases hsign; exact hn
    | negSucc m => cases hsign
  · intro hread
    exact ⟨h, hread, rfl⟩

theorem First.of_ofValue? (hread : ofValue? v = .error o) : First v o := by
  obtain hread | ⟨n, hread, hsign⟩ := bind_eq_error_iff.mp hread
  · exact .of_integerOf hread
  · have hspells := integerOf_eq_ok_iff.mp hread
    cases n with
    | ofNat m => cases hsign
    | negSucc m =>
        cases hsign
        refine ⟨.negative hspells (Int.negSucc_lt_zero m), ?_⟩
        intro o' ho' hgrounds
        cases hgrounds with
        | truthValue => cases hspells
        | notIntegral hx =>
            cases hspells with
            | float hvalue => exact hx _ hvalue
        | notInteger hnone => exact hnone _ hspells
        | negative => simp [Objection.order] at ho'

theorem First.unique {o' : Objection} (ho : First v o) (ho' : First v o') : o = o' := by
  obtain ⟨hgrounds, hbefore⟩ := ho
  obtain ⟨hgrounds', hbefore'⟩ := ho'
  have hcomparable : o = o' ∨ o ∈ Objection.order.takeWhile (· != o')
      ∨ o' ∈ Objection.order.takeWhile (· != o) := by
    cases o <;> cases o' <;> decide
  obtain heq | hmem | hmem := hcomparable
  · exact heq
  · exact absurd hgrounds (hbefore' o hmem)
  · exact absurd hgrounds' (hbefore o' hmem)

theorem First.not_spells (ho : First v o) : ¬Spells v h := by
  intro hspells
  obtain ⟨hgrounds, -⟩ := ho
  cases hgrounds with
  | truthValue => cases hspells
  | notIntegral hx =>
      cases hspells with
      | float hvalue => exact hx _ hvalue
  | notInteger hnone => exact hnone _ hspells
  | negative hneg hlt =>
      have := hneg.unique hspells
      omega

theorem ofValue?_eq_error_iff : ofValue? v = .error o ↔ First v o := by
  constructor
  · exact First.of_ofValue?
  · intro ho
    cases hread : ofValue? v with
    | ok h => exact absurd (ofValue?_eq_ok_iff.mp hread) ho.not_spells
    | error o' => rw [ho.unique (.of_ofValue? hread)]

theorem ofValue_eq_ok_iff : ofValue v = .ok h ↔ Spells v h := by
  rw [ofValue, mapError_eq_ok_iff, ofValue?_eq_ok_iff]

theorem ofValue_eq_error_iff :
    ofValue v = .error fault ↔ ∃ o, First v o ∧ fault = .value typeName v o.message := by
  rw [ofValue, mapError_eq_error_iff]
  constructor
  · rintro ⟨o, ho, rfl⟩
    exact ⟨o, ofValue?_eq_error_iff.mp ho, rfl⟩
  · rintro ⟨o, ho, rfl⟩
    exact ⟨o, ofValue?_eq_error_iff.mpr ho, rfl⟩

theorem spells_toString (hlength : (toString h).length ≤ Numeral.maxDigits) :
    Spells (.text (toString h)) h := by
  have hdigits : (toString h).toList = Nat.toDigits 10 h := by
    rw [Nat.toString_eq_ofList_toDigits, String.toList_ofList]
  have hshort : Text.Numeral.Short h := by
    rwa [Text.Numeral.Short, ← hdigits, String.length_toList]
  refine .text (Numeral.read_eq_ok_iff.mp ?_)
  rw [hdigits, Text.Numeral.read_toDigits hshort]

/-- **Heights are accepted by their grammar.**  A value is accepted as a height exactly if it spells
it, and otherwise refused for the first of the objections to it, one of which there is.  Heights are
accepted as themselves, and by their decimal digits unless they have too many. -/
theorem ofValue_grammar (v : Json.Value) :
    (∀ h : Nat, ofValue v = .ok h ↔ Spells v h) ∧
    (∀ fault, ofValue v = .error fault ↔
      ∃ o, First v o ∧ fault = .value typeName v o.message) ∧
    ((∃ h : Nat, Spells v h) ∨ ∃ o, First v o) ∧
    (∀ h, ofValue v = .ok h → ofValue (.int h) = .ok h) ∧
    ∀ h : Nat, (toString h).length ≤ Numeral.maxDigits → ofValue (.text (toString h)) = .ok h := by
  refine ⟨fun h => ofValue_eq_ok_iff, fun fault => ofValue_eq_error_iff, ?_, ?_, ?_⟩
  · cases hread : ofValue? v with
    | ok h => exact .inl ⟨h, ofValue?_eq_ok_iff.mp hread⟩
    | error o => exact .inr ⟨o, .of_ofValue? hread⟩
  · intro h _
    exact ofValue_eq_ok_iff.mpr .int
  · intro h hlength
    exact ofValue_eq_ok_iff.mpr (spells_toString hlength)

/-- A numeral with a sign, foreign digits and an underscore, and the height that it is accepted as. -/
theorem ofValue_grammar_foreign :
    ofValue (.text "\u00A0+\u0664_2\n") = .ok 42 ∧ ofValue (.int 42) = .ok 42 ∧
      (toString 42).length ≤ Numeral.maxDigits ∧ ofValue (.text (toString 42)) = .ok 42 := by
  obtain ⟨-, -, -, hself, hdigits⟩ := ofValue_grammar (.text "\u00A0+\u0664_2\n")
  have hread : ofValue (.text "\u00A0+\u0664_2\n") = .ok 42 := rfl
  have hlength : (toString 42).length ≤ Numeral.maxDigits := by decide
  exact ⟨hread, hself 42 hread, hlength, hdigits 42 hlength⟩

/-- Zero is accepted under either sign. -/
example (negative : Bool) (e : Int) : ofValue (.float (.finite negative 0 e)) = .ok 0 :=
  ofValue_eq_ok_iff.mpr (.float (by simp [Decimal.Binary64.value?]))

end Finality.Height
