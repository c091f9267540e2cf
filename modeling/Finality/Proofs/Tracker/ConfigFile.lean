import Finality.Proofs.Tracker.Settings
import Finality.Proofs.Tracker.Step
import Finality.Proofs.Yaml.Entries

/-! # What a configuration file says

A document is valid for a configuration if it says nothing, or if it is a mapping that `Describes`
the configuration: all its keys are spellings of fields, no field is spelled twice, and the values
are those of the configuration, which has its defaults elsewhere.  Any other document is blamed, for
not being a mapping or for its values and its keys (`Blames`).

The fields of a mapping come to a configuration or to all that is wrong with them
(`ofFields_eq_ok_iff`, `ofFields_eq_error`).  The keys of a document are distinct, so its fields are
read as `Describes` and `Blames` have it, and the law of files follows (`ofSource_law`). -/

namespace Finality.Config

open Except (mapError_eq_error_iff mapError_eq_ok_iff)
open Schema (Field Issue Keyed Problem)
open Yaml (Document Member Scalar)

/-! ### Documents -/

/-- Documents that count as nothing: null, false, the zeros, and all that is empty. -/
inductive Falsy : Document → Prop
  | null : Falsy (.scalar .null)
  | false : Falsy (.scalar (.bool false))
  | zero : Falsy (.scalar (.int 0))
  | float (negative : Bool) (exponent : Int) : Falsy (.scalar (.float (.finite negative 0 exponent)))
  | text : Falsy (.scalar (.text ""))
  | bytes : Falsy (.scalar (.bytes []))
  | sequence : Falsy (.sequence 0)
  | mapping : Falsy (.mapping [])

/-- A mapping describes a configuration. -/
structure Describes (entries : List (Scalar × Member)) (c : Config) : Prop where
  known : ∀ e ∈ entries, ∃ f ∈ declared, e.1 = .text f.aliasName ∨ e.1 = .text f.name
  once : ∀ f ∈ declared, ¬(HasKey entries f.aliasName ∧ HasKey entries f.name)
  maxHeights : Takes entries maxHeightsField (IsBound 1) (some 50) c.maxHeights
  staleWindow : Takes entries staleWindowField (IsBound 0) (some 50) c.staleWindow
  precommitImpliesPrevote :
    Takes entries precommitImpliesPrevoteField IsTruth false c.precommitImpliesPrevote

/-- A document, or the lack of one, is valid for a configuration. -/
inductive Accepts : Option Document → Config → Prop
  | nothing : Accepts none .standard
  | falsy {d : Document} : Falsy d → Accepts (some d) .standard
  | mapping {entries : List (Scalar × Member)} {c : Config} : Describes entries c →
      Accepts (some (.mapping entries)) c

/-- What a document is blamed for: the fields in the order of their declaration, then the keys. -/
inductive Blames : Document → List Issue → Prop
  | notMapping {d : Document} : ¬Falsy d → (∀ entries, d ≠ .mapping entries) →
      Blames d [.notObject title]
  | mapping {entries : List (Scalar × Member)} {heights window rule : List Issue} :
      (∀ c, ¬Describes entries c) →
      FieldIssues entries maxHeightsField (BoundProblem 1) heights →
      FieldIssues entries staleWindowField (BoundProblem 0) window →
      FieldIssues entries precommitImpliesPrevoteField TruthProblem rule →
      Blames (.mapping entries) (heights ++ window ++ rule ++ keyIssues entries)

variable {d : Document} {entries : List (Scalar × Member)} {c : Config} {is : List Issue}

theorem falsy_of_isVoid {s : Scalar} (h : s.isVoid = true) : Falsy (.scalar s) := by
  cases s with
  | null => exact .null
  | bool b =>
      obtain rfl : b = false := by simpa [Scalar.isVoid] using h
      exact .false
  | int n =>
      obtain rfl : n = 0 := by simpa [Scalar.isVoid] using h
      exact .zero
  | float x =>
      cases x with
      | finite negative m e =>
          obtain rfl : m = 0 := by simpa [Scalar.isVoid, Decimal.Binary64.isZero] using h
          exact .float negative e
      | nan => cases h
      | infinity => cases h
  | undefined node => cases h
  | text s =>
      obtain rfl : s = "" := by simpa [Scalar.isVoid] using h
      exact .text
  | bytes bs =>
      obtain rfl : bs = [] := by simpa [Scalar.isVoid] using h
      exact .bytes
  | timestamp t => cases h

theorem falsy_iff : Falsy d ↔ d.isVoid = true := by
  constructor
  · rintro (_ | _ | _ | _ | _ | _ | _ | _) <;> rfl
  · intro h
    cases d with
    | scalar s => exact falsy_of_isVoid h
    | sequence size =>
        obtain rfl : size = 0 := by simpa [Document.isVoid] using h
        exact .sequence
    | mapping entries =>
        obtain rfl : entries = [] := by simpa [Document.isVoid] using h
        exact .mapping

/-! ### Configurations -/

theorem maxHeightsOf_eq (fields : List (Keyed Setting)) :
    (maxHeightsOf fields).map (·.1) = maxHeightsField.read fields (some 50) (boundOf 1) := by
  unfold maxHeightsOf Field.read
  split
  · rename_i hfind
    rw [hfind]
    rfl
  · rename_i spelling s hfind
    rw [hfind]
    dsimp only
    split
    · rename_i hbound
      simp only [hbound]
      rfl
    · rename_i hbound
      simp only [hbound]
      rfl
    · rename_i hbound
      simp only [hbound]
      rfl

theorem issues_map {α β : Type} (g : α → β) (x : Except Issue α) :
    Schema.issues (x.map g) = Schema.issues x := by
  cases x <;> rfl

section ofFields
variable (fields : List (Keyed Setting))

theorem ofFields_eq_ok_iff : ofFields fields = .ok c ↔
    maxHeightsField.read fields (some 50) (boundOf 1) = .ok c.maxHeights ∧
      staleWindowField.read fields (some 50) (boundOf 0) = .ok c.staleWindow ∧
      precommitImpliesPrevoteField.read fields false truthOf = .ok c.precommitImpliesPrevote ∧
      Schema.unexpected declared fields = [] := by
  rw [← maxHeightsOf_eq, ofFields]
  constructor
  · intro h
    split at h
    · rename_i hheights hwindow hrule hothers
      cases h
      rw [hheights]
      exact ⟨rfl, hwindow, hrule, hothers⟩
    · cases h
  · rintro ⟨hheights, hwindow, hrule, hothers⟩
    cases hbound : maxHeightsOf fields with
    | error issue =>
        rw [hbound] at hheights
        cases hheights
    | ok bound =>
        rw [hbound] at hheights
        obtain ⟨maxHeights, staleWindow, rule, hpos⟩ := c
        have hheights : bound.1 = maxHeights := Except.ok.inj hheights
        subst hheights
        simp only [hwindow, hrule, hothers]

theorem ofFields_eq_error (h : ∀ c, ofFields fields ≠ .ok c) : ofFields fields = .error
    (Schema.issues (maxHeightsField.read fields (some 50) (boundOf 1)) ++
      Schema.issues (staleWindowField.read fields (some 50) (boundOf 0)) ++
      Schema.issues (precommitImpliesPrevoteField.read fields false truthOf) ++
      Schema.unexpected declared fields) := by
  cases hfields : ofFields fields with
  | ok c => exact absurd hfields (h c)
  | error is =>
      rw [ofFields] at hfields
      split at hfields
      · cases hfields
      · rw [← maxHeightsOf_eq, issues_map]
        exact hfields.symm

end ofFields

section mapping
variable (hd : (Ordered.keys entries).Nodup)
include hd

theorem ofFields_eq_ok_iff_describes :
    ofFields (fieldsOf entries) = .ok c ↔ Describes entries c := by
  rw [ofFields_eq_ok_iff, read_eq_ok_iff hd fun _ _ => boundOf_eq_ok_iff,
    read_eq_ok_iff hd fun _ _ => boundOf_eq_ok_iff, read_eq_ok_iff hd fun _ _ => truthOf_eq_ok_iff,
    unexpected_eq hd, keyIssues_eq_nil_iff]
  constructor
  · rintro ⟨hheights, hwindow, hrule, hknown, honce⟩
    exact ⟨hknown, honce, hheights, hwindow, hrule⟩
  · rintro ⟨hknown, honce, hheights, hwindow, hrule⟩
    exact ⟨hheights, hwindow, hrule, hknown, honce⟩

theorem ofFields_eq_error_iff_blames :
    ofFields (fieldsOf entries) = .error is ↔ Blames (.mapping entries) is := by
  have hok : (∀ c, ofFields (fieldsOf entries) ≠ .ok c) ↔ ∀ c, ¬Describes entries c :=
    forall_congr' fun c => not_congr (ofFields_eq_ok_iff_describes hd)
  constructor
  · intro h
    have hnot : ∀ c, ofFields (fieldsOf entries) ≠ .ok c := by
      intro c hc
      rw [h] at hc
      cases hc
    rw [ofFields_eq_error _ hnot, unexpected_eq hd] at h
    cases h
    exact .mapping (hok.mp hnot)
      ((fieldIssues_iff hd fun _ _ => boundOf_eq_error_iff).mpr rfl)
      ((fieldIssues_iff hd fun _ _ => boundOf_eq_error_iff).mpr rfl)
      ((fieldIssues_iff hd fun _ _ => truthOf_eq_error_iff).mpr rfl)
  · rintro (⟨-, hmapping⟩ | ⟨hnot, hheights, hwindow, hrule⟩)
    · exact absurd rfl (hmapping entries)
    · rw [ofFields_eq_error _ (hok.mpr hnot), unexpected_eq hd,
        ← (fieldIssues_iff hd fun _ _ => boundOf_eq_error_iff).mp hheights,
        ← (fieldIssues_iff hd fun _ _ => boundOf_eq_error_iff).mp hwindow,
        ← (fieldIssues_iff hd fun _ _ => truthOf_eq_error_iff).mp hrule]

end mapping

/-! ### Files -/

theorem ofDocument_of_falsy (h : Falsy d) : ofDocument d = .ok .standard := by
  unfold ofDocument
  rw [if_pos (falsy_iff.mp h)]

theorem ofDocument_mapping (entries : List (Scalar × Member)) :
    ofDocument (.mapping entries) = ofFields (fieldsOf entries) := by
  cases entries with
  | nil => exact ofDocument_of_falsy .mapping
  | cons e entries => rfl

theorem ofDocument_of_not_mapping (hfalsy : ¬Falsy d) (hd : ∀ entries, d ≠ .mapping entries) :
    ofDocument d = .error [.notObject title] := by
  unfold ofDocument
  rw [if_neg fun h => hfalsy (falsy_iff.mpr h)]
  split
  · exact absurd rfl (hd _)
  · rfl

section document
variable (hd : d.Distinct)
include hd

theorem ofDocument_eq_ok_iff : ofDocument d = .ok c ↔ Accepts (some d) c := by
  constructor
  · intro h
    by_cases hfalsy : Falsy d
    · rw [ofDocument_of_falsy hfalsy] at h
      cases h
      exact .falsy hfalsy
    by_cases hmapping : ∃ entries, d = .mapping entries
    · obtain ⟨entries, rfl⟩ := hmapping
      rw [ofDocument_mapping, ofFields_eq_ok_iff_describes (Document.nodup_keys hd)] at h
      exact .mapping h
    · rw [ofDocument_of_not_mapping hfalsy (not_exists.mp hmapping)] at h
      cases h
  · rintro (_ | hfalsy | hdescribes)
    · exact ofDocument_of_falsy hfalsy
    · rw [ofDocument_mapping]
      exact (ofFields_eq_ok_iff_describes (Document.nodup_keys hd)).mpr hdescribes

theorem ofDocument_eq_error_iff : ofDocument d = .error is ↔ Blames d is := by
  by_cases hmapping : ∃ entries, d = .mapping entries
  · obtain ⟨entries, rfl⟩ := hmapping
    rw [ofDocument_mapping]
    exact ofFields_eq_error_iff_blames (Document.nodup_keys hd)
  · have hno := not_exists.mp hmapping
    constructor
    · intro h
      by_cases hfalsy : Falsy d
      · rw [ofDocument_of_falsy hfalsy] at h
        cases h
      · rw [ofDocument_of_not_mapping hfalsy hno] at h
        cases h
        exact .notMapping hfalsy hno
    · rintro (⟨hfalsy, -⟩ | _)
      · exact ofDocument_of_not_mapping hfalsy hno
      · exact absurd rfl (hno _)

end document

section source
variable {source : Yaml.Source} {document : Option Document}
  (h : Document.ofSource source = .ok document)
include h

theorem ofSource_eq : ofSource source =
    document.elim (.ok .standard) fun d => (ofDocument d).mapError .issues := by
  rw [ofSource, h]
  cases document <;> rfl

theorem ofSource_eq_ok_iff : ofSource source = .ok c ↔ Accepts document c := by
  rw [ofSource_eq h]
  cases document with
  | none =>
      constructor
      · rintro ⟨⟩
        exact .nothing
      · rintro ⟨⟩
        rfl
  | some d =>
      exact mapError_eq_ok_iff.trans (ofDocument_eq_ok_iff (Document.distinct_of_ofSource h))

theorem ofSource_eq_error_iff {fault : FileFault} : ofSource source = .error fault ↔
    ∃ d is, document = some d ∧ Blames d is ∧ fault = .issues is := by
  rw [ofSource_eq h]
  cases document with
  | none =>
      constructor
      · rintro ⟨⟩
      · rintro ⟨_, _, ⟨⟩, -⟩
  | some d =>
      have hd := Document.distinct_of_ofSource h
      constructor
      · intro hfault
        obtain ⟨is, his, rfl⟩ := mapError_eq_error_iff.mp hfault
        exact ⟨d, is, rfl, (ofDocument_eq_error_iff hd).mp his, rfl⟩
      · rintro ⟨_, is, ⟨⟩, his, rfl⟩
        exact mapError_eq_error_iff.mpr ⟨is, (ofDocument_eq_error_iff hd).mpr his, rfl⟩

end source

/-- **Loading accepts exactly the valid documents.**  A text with a document, or with none, yields a
configuration exactly if the document is valid for it, and is otherwise blamed for all that is wrong
with the document.  Every configuration that is loaded leaves a row to a matrix that has one. -/
theorem ofSource_law {source : Yaml.Source} {document : Option Document}
    (h : Document.ofSource source = .ok document) :
    (∀ c, ofSource source = .ok c ↔ Accepts document c) ∧
      (∀ fault, ofSource source = .error fault ↔
        ∃ d is, document = some d ∧ Blames d is ∧ fault = .issues is) ∧
      ∀ c m, ofSource source = .ok c → m.heights ≠ [] → (Tracker.retain c m).1.heights ≠ [] := by
  refine ⟨fun c => ofSource_eq_ok_iff h, fun fault => ofSource_eq_error_iff h, ?_⟩
  intro c m _ hm
  have hrows : m.rows ≠ [] := fun hnil => hm (by rw [Matrix.heights, hnil]; rfl)
  exact fun hnil => Tracker.rows_retain_ne_nil hrows (List.map_eq_nil_iff.mp hnil)

theorem ofSource_zeroBound : Document.ofSource (.ofText "a: 1\nmax_heights: 0".toList) =
    .ok (some (.mapping [(.text "a", .scalar (.int 1)), (.text "max_heights", .scalar (.int 0))])) := by
  have htokens : Yaml.tokens (.ofText "a: 1\nmax_heights: 0".toList) =
      ([.blockMappingStart, .key, .scalar true "a", .value, .scalar true "1", .key,
        .scalar true "max_heights", .value, .scalar true "0", .blockEnd], none) := rfl
  refine Document.ofSource_eq_some_iff.mpr ⟨0, ⟨#[.mapping .mapping [(1, 2), (3, 4)],
    .scalar .text "a", .scalar .int "1", .scalar .text "max_heights", .scalar .int "0"]⟩, ?_, ?_⟩
  · rw [htokens]
    rfl
  · rfl

/-- A bound of zero is blamed before the key in front of it, which no field has. -/
theorem ofSource_law_zeroBound :
    let source : Yaml.Source := .ofText "a: 1\nmax_heights: 0".toList
    let d : Document :=
      .mapping [(.text "a", .scalar (.int 1)), (.text "max_heights", .scalar (.int 0))]
    let is : List Issue := [⟨[.name "max_heights"], .below 1⟩, ⟨[.name "a"], .unexpected⟩]
    Document.ofSource source = .ok (some d) ∧ Blames d is ∧
      ofSource source = .error (.issues is) ∧ ∀ c, ¬Accepts (some d) c := by
  intro source d is
  have hdocument : Document.ofSource source = .ok (some d) := ofSource_zeroBound
  obtain ⟨haccepts, hblames, -⟩ := ofSource_law hdocument
  have hfault : ofSource source = .error (.issues is) := by
    rw [ofSource, hdocument]
    rfl
  obtain ⟨_, _, ⟨⟩, his, ⟨⟩⟩ := (hblames _).mp hfault
  refine ⟨hdocument, his, hfault, fun c hc => ?_⟩
  rw [← haccepts, hfault] at hc
  cases hc

end Finality.Config
