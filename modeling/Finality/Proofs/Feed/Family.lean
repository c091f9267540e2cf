import Finality.Proofs.Feed.Source
import Finality.Proofs.Json.Overlong

/-! # The family of decode faults

What is wrong with a frame is reported as a `decode` fault, or as one of the kinds that are a part
of `decode`, so that a caller who handles this family handles every frame (`Source.OneFamily`).  One
failure is outside: an integer literal too long to be read (`Failure.fault?`).

It is the only one.  A frame keeps to the family exactly if the reading of its text does not come to
such a literal (`Source.oneFamily_iff`). -/

namespace Finality

/-- A kind is another one or a part of it. -/
def Fault.Kind.IsA (k family : Fault.Kind) : Prop := k = family ∨ family ∈ k.ancestors

instance (k family : Fault.Kind) : Decidable (k.IsA family) :=
  inferInstanceAs (Decidable (_ ∨ _))

namespace Feed.Frame

open Json.Reader (BeginsOverlong Comes Overlong document document_overlong_iff ofText_overlong_iff
  skip)
open Except (mapError_eq_error_iff)

variable {n : Nat} {frame : Source} {failure : Failure}

/-- A failure is reported as a fault of the `decode` family. -/
def Failure.InFamily (failure : Failure) : Prop :=
  ∃ fault, failure.fault? = some fault ∧ fault.kind.IsA .decode

theorem Failure.inFamily_iff : failure.InFamily ↔ ∀ n, failure ≠ .overlongInteger n := by
  constructor
  · rintro ⟨fault, hfault, -⟩ n rfl
    cases hfault
  · intro hother
    cases failure with
    | json problem => exact ⟨_, rfl, .inl rfl⟩
    | encoding fault => exact ⟨_, rfl, .inl rfl⟩
    | shape => exact ⟨_, rfl, .inl rfl⟩
    | overlongInteger n => exact absurd rfl (hother n)
    | message refusal =>
        obtain ⟨cause, index⟩ := refusal
        cases cause with
        | unknownAction code =>
            exact ⟨.unknownAction code (some index), rfl, .inr List.mem_cons_self⟩
        | tooFew action least => exact ⟨_, rfl, .inl rfl⟩
        | payload action objection => exact ⟨_, rfl, .inl rfl⟩

namespace Source

/-- Whatever is wrong with the frame is reported in the `decode` family. -/
def OneFamily (frame : Source) : Prop := ∀ failure, frame.events = .error failure → failure.InFamily

/-- The reading of the frame comes to an integer of `n` digits that are too many to be read. -/
def StopsAtOverlong (n : Nat) (frame : Source) : Prop :=
  ∃ cs p, frame.text? = .ok cs ∧ Comes .value (skip cs) p ∧ BeginsOverlong n p

end Source

/-! ### The stages of decoding -/

theorem ofJson_eq_overlongInteger_iff {fault : Json.Fault} :
    Failure.ofJson fault = .overlongInteger n ↔ fault.problem = .overlongInteger n := by
  unfold Failure.ofJson
  split
  · rename_i digits h
    simp [h]
  · rename_i h
    refine iff_of_false (by simp) fun heq => h n heq

theorem ofJson_ne_overlongInteger (v : Json.Value) : ofJson v ≠ .error (.overlongInteger n) := by
  intro h
  unfold ofJson at h
  split at h
  · cases h
  · obtain ⟨refusal, -, hrefusal⟩ := mapError_eq_error_iff.mp h
    cases hrefusal

theorem mapError_ofJson_iff {α : Type} {x : Except Json.Fault α} :
    x.mapError Failure.ofJson = .error (.overlongInteger n) ↔ Overlong n x := by
  rw [mapError_eq_error_iff]
  constructor
  · rintro ⟨fault, rfl, hfault⟩
    exact Json.Reader.overlong_error_iff.mpr (ofJson_eq_overlongInteger_iff.mp hfault)
  · rintro ⟨left, rfl⟩
    exact ⟨_, rfl, rfl⟩

theorem value_of_text?_error {fault : Encoding.Fault} (h : frame.text? = .error fault) :
    frame.value = .error (.encoding fault) := by
  cases frame with
  | text cs => cases h
  | octets bs =>
      simp only [Source.text?] at h
      simp only [Source.value, h]
      rfl

theorem value_eq_overlong_iff_of_text? {cs : List Char} (h : frame.text? = .ok cs) :
    frame.value = .error (.overlongInteger n) ↔ Overlong n (document cs) := by
  cases frame with
  | text cs' =>
      cases h
      rw [Source.value, mapError_ofJson_iff, ofText_overlong_iff]
  | octets bs =>
      simp only [Source.text?] at h
      simp only [Source.value, h]
      exact mapError_ofJson_iff

theorem value_eq_overlong_iff :
    frame.value = .error (.overlongInteger n) ↔ frame.StopsAtOverlong n := by
  cases htext : frame.text? with
  | error fault => simp [value_of_text?_error htext, Source.StopsAtOverlong, htext]
  | ok cs =>
      rw [value_eq_overlong_iff_of_text? htext, document_overlong_iff]
      simp [Source.StopsAtOverlong, htext]

theorem events_eq_overlong_iff :
    frame.events = .error (.overlongInteger n) ↔ frame.StopsAtOverlong n := by
  rw [← value_eq_overlong_iff, Source.events_eq]
  cases frame.value with
  | error failure => exact ⟨fun h => by cases h; rfl, fun h => by cases h; rfl⟩
  | ok v => exact iff_of_false (ofJson_ne_overlongInteger v) (by simp)

/-! ### The result -/

/-- **One failure is outside the family.**  A frame keeps to the family exactly if the reading of
its text does not come to an integer that is too long to be read. -/
theorem Source.oneFamily_iff (frame : Source) :
    frame.OneFamily ↔ ∀ n, ¬frame.StopsAtOverlong n := by
  constructor
  · intro hfamily n hstops
    exact Failure.inFamily_iff.mp (hfamily _ (events_eq_overlong_iff.mpr hstops)) n rfl
  · intro hnever failure hfailure
    refine Failure.inFamily_iff.mpr fun n heq => hnever n ?_
    rw [← events_eq_overlong_iff, hfailure, heq]

theorem stopsAtOverlong_of_ones (hn : Text.Numeral.maxDigits < n) (rest : List Char) :
    (Source.text ('[' :: (List.replicate n '1' ++ ',' :: rest))).StopsAtOverlong n := by
  obtain ⟨k, rfl⟩ : ∃ k, n = k + 1 := ⟨n - 1, by omega⟩
  have hskip : skip (List.replicate (k + 1) '1' ++ ',' :: rest) =
      List.replicate (k + 1) '1' ++ ',' :: rest := rfl
  refine ⟨_, _, rfl, .array ?_ (.item .here), ?_⟩
  · rw [hskip]
    simp [List.replicate_succ]
  · rw [hskip]
    refine ⟨List.replicate (k + 1) '1', ',' :: rest,
      ⟨by simp, hn, ?_, by simp [List.replicate_succ], ?_, rfl, rfl⟩, .inl rfl⟩
    · intro c hc
      rw [List.eq_of_mem_replicate hc]
      decide
    · intro c hc
      cases hc
      decide

/-- `[1…1,null]` with 4301 ones. -/
theorem Source.not_oneFamily_ones :
    ¬(Source.text ('[' :: (List.replicate 4301 '1' ++ ",null]".toList))).OneFamily := by
  intro hfamily
  have hstops := stopsAtOverlong_of_ones (n := 4301) (by decide) "null]".toList
  exact Failure.inFamily_iff.mp (hfamily _ (events_eq_overlong_iff.mpr hstops)) 4301 rfl

end Feed.Frame

end Finality
