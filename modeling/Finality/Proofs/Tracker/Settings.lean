import Mathlib.Data.List.Basic
import Finality.Proofs.Except
import Finality.Proofs.Ordered
import Finality.Tracker.ConfigFile

/-! # What a mapping gives the fields of a configuration

A mapping may spell a field in two ways, and the alias comes before the name: `Gives` has the value
under the spelling in force.  From it follow what the field takes, which is its default if nothing
is given (`Takes`), and what it is blamed for (`FieldIssues`).  With distinct keys the fields are
read accordingly (`read_eq_ok_iff`, `fieldIssues_iff`).

The keys that no field is read from are blamed in the order of the mapping (`unexpected_eq`). -/

namespace Finality.Config

open Except (mapError_eq_ok_iff)
open Schema (Field Issue Keyed Problem)
open Yaml (Member Scalar)

/-! ### Fields in a mapping -/

section entries
variable (entries : List (Scalar × Member))

/-- A mapping has a text among its keys. -/
def HasKey (s : String) : Prop := ∃ e ∈ entries, e.1 = .text s

instance (s : String) : Decidable (HasKey entries s) := inferInstanceAs (Decidable (∃ e ∈ entries, _))

/-- Value that a mapping gives a field, under the spelling in force. -/
inductive Gives (f : Field) : String → Member → Prop
  | byAlias {m : Member} : (.text f.aliasName, m) ∈ entries → Gives f f.aliasName m
  | byName {m : Member} : (.text f.name, m) ∈ entries → ¬HasKey entries f.aliasName →
      Gives f f.name m

/-- A field takes the value that a mapping gives it, or else its default. -/
def Takes {β : Type} (f : Field) (denotes : Member → β → Prop) (default b : β) : Prop :=
  (∃ spelling m, Gives entries f spelling m ∧ denotes m b) ∨
    ¬HasKey entries f.aliasName ∧ ¬HasKey entries f.name ∧ b = default

end entries

/-- Values of an optional integer with a least value. -/
inductive IsBound (least : Nat) : Member → Option Nat → Prop
  | null : IsBound least (.scalar .null) none
  | int {n : Nat} : least ≤ n → IsBound least (.scalar (.int n)) (some n)

/-- Values of a truth value. -/
inductive IsTruth : Member → Bool → Prop
  | bool (b : Bool) : IsTruth (.scalar (.bool b)) b

/-- What is wrong with a value that is no bound. -/
inductive BoundProblem (least : Nat) : Member → Problem → Prop
  | below {n : Int} : n < least → BoundProblem least (.scalar (.int n)) (.below least)
  | notInteger {m : Member} : m ≠ .scalar .null → (∀ n, m ≠ .scalar (.int n)) →
      BoundProblem least m .notInteger

/-- What is wrong with a value that is no truth value. -/
inductive TruthProblem : Member → Problem → Prop
  | notTruthValue {m : Member} : (∀ b, m ≠ .scalar (.bool b)) → TruthProblem m .notTruthValue

/-- Issues of a field: what is wrong with the value that a mapping gives it, if anything is. -/
inductive FieldIssues (entries : List (Scalar × Member)) (f : Field)
    (wrong : Member → Problem → Prop) : List Issue → Prop
  | none : (∀ spelling m problem, Gives entries f spelling m → ¬wrong m problem) →
      FieldIssues entries f wrong []
  | one {spelling : String} {m : Member} {problem : Problem} : Gives entries f spelling m →
      wrong m problem → FieldIssues entries f wrong [⟨[.name spelling], problem⟩]

/-- A key is the spelling in force of a field. -/
def IsRead (entries : List (Scalar × Member)) (key : Scalar) : Prop :=
  ∃ f ∈ declared, key = .text f.aliasName ∨ key = .text f.name ∧ ¬HasKey entries f.aliasName

instance (entries : List (Scalar × Member)) (key : Scalar) : Decidable (IsRead entries key) :=
  inferInstanceAs (Decidable (∃ f ∈ declared, _))

/-- Issue of a key that is not read. -/
def keyIssue (key : Scalar) : Issue :=
  match keyOf key with
  | .name s => ⟨[.name s], .unexpected⟩
  | .foreign place => ⟨[place], .keyNotText⟩

/-- Issues of the keys that are not read, in the order of the document. -/
def keyIssues (entries : List (Scalar × Member)) : List Issue :=
  (entries.filter fun e => ¬IsRead entries e.1).map fun e => keyIssue e.1

variable {entries : List (Scalar × Member)} {is : List Issue} {f : Field} {m : Member}

/-! ### Values of fields -/

theorem boundOf_eq_ok_iff {least : Nat} {b : Option Nat} :
    boundOf least (.ofMember m) = .ok b ↔ IsBound least m b := by
  constructor
  · intro h
    unfold Setting.ofMember at h
    split at h
    · cases h
      exact .null
    · rename_i n
      simp only [boundOf] at h
      split at h
      · rename_i hle
        cases h
        lift n to Nat using Int.le_trans (Int.natCast_nonneg least) hle
        exact .int (Int.ofNat_le.mp hle)
      · cases h
    · cases h
    · cases h
  · rintro (_ | hle)
    · rfl
    · have hle : (least : Int) ≤ _ := Int.ofNat_le.mpr hle
      simp only [Setting.ofMember, boundOf, if_pos hle, Int.toNat_natCast]

theorem boundOf_eq_error_iff {least : Nat} {problem : Problem} :
    boundOf least (.ofMember m) = .error problem ↔ BoundProblem least m problem := by
  constructor
  · intro h
    unfold Setting.ofMember at h
    split at h
    · cases h
    · simp only [boundOf] at h
      split at h
      · cases h
      · rename_i hlt
        cases h
        exact .below (Int.not_le.mp hlt)
    · cases h
      exact .notInteger (by simp) (by simp)
    · rename_i hnull hint _
      cases h
      exact .notInteger hnull hint
  · rintro (hlt | ⟨hnull, hint⟩)
    · simp only [Setting.ofMember, boundOf, if_neg (Int.not_le.mpr hlt)]
    · unfold Setting.ofMember
      split
      · exact absurd rfl hnull
      · exact absurd rfl (hint _)
      · rfl
      · rfl

theorem truthOf_eq_ok_iff {b : Bool} : truthOf (.ofMember m) = .ok b ↔ IsTruth m b := by
  constructor
  · intro h
    unfold Setting.ofMember at h
    split at h <;> cases h
    exact .bool _
  · rintro ⟨b⟩
    rfl

theorem truthOf_eq_error_iff {problem : Problem} :
    truthOf (.ofMember m) = .error problem ↔ TruthProblem m problem := by
  constructor
  · intro h
    unfold Setting.ofMember at h
    split at h
    · cases h
      exact .notTruthValue (by simp)
    · cases h
      exact .notTruthValue (by simp)
    · cases h
    · rename_i hbool
      cases h
      exact .notTruthValue hbool
  · rintro ⟨hbool⟩
    unfold Setting.ofMember
    split
    · rfl
    · rfl
    · exact absurd rfl (hbool _)
    · rfl

/-! ### Reading fields -/

/-- The fields of a mapping as a configuration sees them. -/
def fieldsOf (entries : List (Scalar × Member)) : List (Keyed Setting) :=
  entries.map fun e => (keyOf e.1, .ofMember e.2)

theorem keyOf_eq_name_iff {key : Scalar} {s : String} : keyOf key = .name s ↔ key = .text s := by
  cases key <;> simp [keyOf]

theorem lookup_fieldsOf (entries : List (Scalar × Member)) (s : String) :
    (fieldsOf entries).lookup (.name s) = (entries.lookup (.text s)).map Setting.ofMember := by
  induction entries with
  | nil => rfl
  | cons e entries ih =>
      obtain ⟨key, m⟩ := e
      rw [fieldsOf, List.map_cons, List.lookup_cons, List.lookup_cons]
      by_cases hkey : key = .text s
      · subst hkey
        simp [keyOf]
      · have hname : keyOf key ≠ .name s := fun h => hkey (keyOf_eq_name_iff.mp h)
        rw [beq_false_of_ne (Ne.symm hname), beq_false_of_ne (Ne.symm hkey)]
        exact ih

section distinct
variable (hd : (Ordered.keys entries).Nodup)
include hd

theorem lookup_fieldsOf_of_mem {s : String} (hm : (.text s, m) ∈ entries) :
    (fieldsOf entries).lookup (.name s) = some (.ofMember m) := by
  rw [lookup_fieldsOf, (Ordered.lookup_eq_some_iff_mem hd).mpr hm]
  rfl

theorem lookup_fieldsOf_of_not_hasKey {s : String} (hs : ¬HasKey entries s) :
    (fieldsOf entries).lookup (.name s) = none := by
  rw [lookup_fieldsOf]
  cases hlookup : entries.lookup (.text s) with
  | none => rfl
  | some m => exact absurd ⟨_, (Ordered.lookup_eq_some_iff_mem hd).mp hlookup, rfl⟩ hs

/-- A field is given one value at most. -/
theorem Gives.unique {s s' : String} {m' : Member} (h : Gives entries f s m)
    (h' : Gives entries f s' m') : s = s' ∧ m = m' := by
  have hsame : ∀ {key m m'}, (key, m) ∈ entries → (key, m') ∈ entries → m = m' := by
    intro key m m' hm hm'
    have hlookup := (Ordered.lookup_eq_some_iff_mem hd).mpr hm
    rw [(Ordered.lookup_eq_some_iff_mem hd).mpr hm'] at hlookup
    exact (Option.some.inj hlookup).symm
  cases h with
  | byAlias hm =>
      cases h' with
      | byAlias hm' => exact ⟨rfl, hsame hm hm'⟩
      | byName _ hnone => exact absurd ⟨_, hm, rfl⟩ hnone
  | byName hm hnone =>
      cases h' with
      | byAlias hm' => exact absurd ⟨_, hm', rfl⟩ hnone
      | byName hm' _ => exact ⟨rfl, hsame hm hm'⟩

theorem find?_of_gives {spelling : String} (h : Gives entries f spelling m) :
    f.find? (fieldsOf entries) = some (spelling, .ofMember m) := by
  cases h with
  | byAlias hm => rw [Field.find?, lookup_fieldsOf_of_mem hd hm]
  | byName hm hnone =>
      rw [Field.find?, lookup_fieldsOf_of_not_hasKey hd hnone, lookup_fieldsOf_of_mem hd hm]
      rfl

theorem find?_of_absent (halias : ¬HasKey entries f.aliasName) (hname : ¬HasKey entries f.name) :
    f.find? (fieldsOf entries) = none := by
  rw [Field.find?, lookup_fieldsOf_of_not_hasKey hd halias, lookup_fieldsOf_of_not_hasKey hd hname]
  rfl

end distinct

theorem gives_or_absent (entries : List (Scalar × Member)) (f : Field) :
    (∃ spelling m, Gives entries f spelling m) ∨
      ¬HasKey entries f.aliasName ∧ ¬HasKey entries f.name := by
  by_cases halias : HasKey entries f.aliasName
  · obtain ⟨⟨_, m⟩, hm, rfl⟩ := halias
    exact .inl ⟨_, m, .byAlias hm⟩
  by_cases hname : HasKey entries f.name
  · obtain ⟨⟨_, m⟩, hm, rfl⟩ := hname
    exact .inl ⟨_, m, .byName hm halias⟩
  exact .inr ⟨halias, hname⟩

theorem Gives.hasKey {spelling : String} (h : Gives entries f spelling m) :
    HasKey entries f.aliasName ∨ HasKey entries f.name := by
  cases h with
  | byAlias hm => exact .inl ⟨_, hm, rfl⟩
  | byName hm _ => exact .inr ⟨_, hm, rfl⟩

section read
variable {β : Type} {default b : β} {reader : Setting → Except Problem β}

theorem read_of_gives (hd : (Ordered.keys entries).Nodup) {spelling : String}
    (h : Gives entries f spelling m) : f.read (fieldsOf entries) default reader =
      (reader (.ofMember m)).mapError (.ofField spelling) := by
  rw [Field.read, find?_of_gives hd h]

theorem read_of_absent (hd : (Ordered.keys entries).Nodup) (halias : ¬HasKey entries f.aliasName)
    (hname : ¬HasKey entries f.name) : f.read (fieldsOf entries) default reader = .ok default := by
  rw [Field.read, find?_of_absent hd halias hname]

theorem read_eq_ok_iff (hd : (Ordered.keys entries).Nodup) {denotes : Member → β → Prop}
    (hreader : ∀ m b, reader (.ofMember m) = .ok b ↔ denotes m b) :
    f.read (fieldsOf entries) default reader = .ok b ↔ Takes entries f denotes default b := by
  constructor
  · intro h
    rcases gives_or_absent entries f with ⟨spelling, m, hm⟩ | ⟨halias, hname⟩
    · rw [read_of_gives hd hm, mapError_eq_ok_iff] at h
      exact .inl ⟨spelling, m, hm, (hreader m b).mp h⟩
    · rw [read_of_absent hd halias hname] at h
      cases h
      exact .inr ⟨halias, hname, rfl⟩
  · rintro (⟨spelling, m, hm, hb⟩ | ⟨halias, hname, rfl⟩)
    · rw [read_of_gives hd hm, mapError_eq_ok_iff]
      exact (hreader m b).mpr hb
    · exact read_of_absent hd halias hname

theorem fieldIssues_iff (hd : (Ordered.keys entries).Nodup) {wrong : Member → Problem → Prop}
    (hreader : ∀ m problem, reader (.ofMember m) = .error problem ↔ wrong m problem) :
    FieldIssues entries f wrong is ↔
      is = Schema.issues (f.read (fieldsOf entries) default reader) := by
  rcases gives_or_absent entries f with ⟨spelling, m, hm⟩ | ⟨halias, hname⟩
  · rw [read_of_gives hd hm]
    constructor
    · rintro (hfine | ⟨hm', hwrong⟩)
      · cases hread : reader (.ofMember m) with
        | ok b => rfl
        | error problem => exact absurd ((hreader m problem).mp hread) (hfine _ _ _ hm)
      · obtain ⟨rfl, rfl⟩ := hm.unique hd hm'
        rw [(hreader m _).mpr hwrong]
        rfl
    · rintro rfl
      cases hread : reader (.ofMember m) with
      | ok b =>
          refine .none fun _ _ problem hm' hwrong => ?_
          obtain ⟨rfl, rfl⟩ := hm.unique hd hm'
          rw [← hreader, hread] at hwrong
          cases hwrong
      | error problem => exact .one hm ((hreader m problem).mp hread)
  · rw [read_of_absent hd halias hname]
    have hnone : ∀ {spelling m}, ¬Gives entries f spelling m :=
      fun h => h.hasKey.elim halias hname
    constructor
    · rintro (_ | ⟨hm, _⟩)
      · rfl
      · exact absurd hm hnone
    · rintro rfl
      exact .none fun _ _ _ h => absurd h hnone

end read

/-! ### Keys that are not read -/

/-- A text among the keys is read if it is the spelling of a value. -/
theorem isRead_text_iff {s : String} (hs : HasKey entries s) :
    IsRead entries (.text s) ↔ ∃ f ∈ declared, ∃ m, Gives entries f s m := by
  obtain ⟨⟨_, m⟩, hm, rfl⟩ := hs
  constructor
  · rintro ⟨f, hf, halias | ⟨hname, hnone⟩⟩
    · cases halias
      exact ⟨f, hf, m, .byAlias hm⟩
    · cases hname
      exact ⟨f, hf, m, .byName hm hnone⟩
  · rintro ⟨f, hf, _, _ | ⟨_, hnone⟩⟩
    · exact ⟨f, hf, .inl rfl⟩
    · exact ⟨f, hf, .inr ⟨rfl, hnone⟩⟩

theorem owns_iff (hd : (Ordered.keys entries).Nodup) {s : String} :
    f.owns (fieldsOf entries) s = true ↔ ∃ m, Gives entries f s m := by
  rw [Field.owns, beq_iff_eq]
  constructor
  · intro h
    rcases gives_or_absent entries f with ⟨spelling, m, hm⟩ | ⟨halias, hname⟩
    · rw [find?_of_gives hd hm] at h
      cases h
      exact ⟨m, hm⟩
    · rw [find?_of_absent hd halias hname] at h
      cases h
  · rintro ⟨m, hm⟩
    rw [find?_of_gives hd hm]
    rfl

/-- What is left of the keys is blamed in the order of the document. -/
theorem unexpected_eq (hd : (Ordered.keys entries).Nodup) :
    Schema.unexpected declared (fieldsOf entries) = keyIssues entries := by
  rw [keyIssues, ← List.filterMap_eq_map, ← List.filterMap_eq_filter, List.filterMap_filterMap,
    Schema.unexpected, fieldsOf, List.filterMap_map]
  refine List.filterMap_congr fun e he => ?_
  obtain ⟨key, m⟩ := e
  simp only [Function.comp_apply]
  cases hkey : keyOf key with
  | foreign place =>
      have hread : ¬IsRead entries key := by
        rintro ⟨f, -, rfl | ⟨rfl, -⟩⟩ <;> cases hkey
      simp [Option.guard, hread, keyIssue, hkey]
  | name s =>
      obtain rfl := keyOf_eq_name_iff.mp hkey
      have howned : declared.any (·.owns (entries.map fun e => (keyOf e.1, Setting.ofMember e.2)) s) =
          true ↔ IsRead entries (.text s) := by
        rw [isRead_text_iff ⟨_, he, rfl⟩, List.any_eq_true]
        exact exists_congr fun f => and_congr_right fun _ => owns_iff hd
      by_cases hread : IsRead entries (.text s)
      · simp only [howned, Option.guard, hread]
        simp
      · simp only [howned, Option.guard, hread]
        simp [keyIssue, hkey]

/-- All keys are read exactly if they are spellings of fields, each spelled once. -/
theorem keyIssues_eq_nil_iff : keyIssues entries = [] ↔
    (∀ e ∈ entries, ∃ f ∈ declared, e.1 = .text f.aliasName ∨ e.1 = .text f.name) ∧
      ∀ f ∈ declared, ¬(HasKey entries f.aliasName ∧ HasKey entries f.name) := by
  have hread : keyIssues entries = [] ↔ ∀ e ∈ entries, IsRead entries e.1 := by
    simp [keyIssues]
  have hspellings : ∀ f ∈ declared, ∀ g ∈ declared, f.name ≠ g.aliasName ∧
      (f.name = g.name → f = g) := by decide
  rw [hread]
  constructor
  · intro h
    refine ⟨fun e he => ?_, ?_⟩
    · obtain ⟨f, hf, hkey⟩ := h e he
      exact ⟨f, hf, hkey.imp_right And.left⟩
    · rintro f hf ⟨halias, ⟨⟨_, m⟩, hm, rfl⟩⟩
      obtain ⟨g, hg, hkey | ⟨hkey, hnone⟩⟩ := h _ hm
      · exact (hspellings f hf g hg).1 (Scalar.text.inj hkey)
      · rw [← (hspellings f hf g hg).2 (Scalar.text.inj hkey)] at hnone
        exact hnone halias
  · rintro ⟨hknown, honce⟩ e he
    obtain ⟨f, hf, hkey | hkey⟩ := hknown e he
    · exact ⟨f, hf, .inl hkey⟩
    · exact ⟨f, hf, .inr ⟨hkey, fun halias => honce f hf ⟨halias, e, he, hkey⟩⟩⟩

end Finality.Config
