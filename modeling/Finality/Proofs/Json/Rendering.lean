import Finality.Proofs.Json.Spelling
import Finality.Proofs.Ordered

/-! # What is written can be read

A value is written with its fields in order, compactly or laid out over lines, and read back as
itself (`ofText_render`) if it is `Legible`: the integers in it have not too many digits, no object
has a key twice, and there are no fractional numbers.

The proof goes along `Legible`.  A value that is read on its own is also read in front of what
follows it (`readValue_append`), because the writer puts a break, a comma or a closing mark behind
it; breaks are blanks, which the reader skips. -/

namespace Finality.Json

open Text.Numeral (Short)

/-- Values that are read back as they were written. -/
inductive Legible : Value → Prop
  | null : Legible .null
  | bool (b : Bool) : Legible (.bool b)
  | int {n : Int} : Short n.natAbs → Legible (.int n)
  | text (s : String) : Legible (.text s)
  | array {vs : List Value} : (∀ v ∈ vs, Legible v) → Legible (.array vs)
  | object {fs : List (String × Value)} : (Ordered.keys fs).Nodup → (∀ f ∈ fs, Legible f.2) →
      Legible (.object fs)

namespace Reader

variable {cs r t : List Char} {v : Value} {vs : List Value} {fs : List (String × Value)}
  {indent : Writer.Indent} {depth : Nat}

/-! ### Breaks -/

theorem skip_newline (indent : Writer.Indent) (depth : Nat) (t : List Char) :
    skip (Writer.newline indent depth ++ t) = skip t := by
  refine skip_append_of_blank ?_ t
  cases indent with
  | none => rfl
  | some width =>
      rw [Writer.newline, skip, List.dropWhile_eq_nil_iff]
      intro c hc
      rcases List.mem_cons.mp hc with rfl | hc
      · rfl
      · rw [List.eq_of_mem_replicate hc]
        rfl

theorem skip_of_readValue (h : readValue cs = .ok (v, r)) : skip cs = cs := by
  cases cs with
  | nil => rfl
  | cons c cs =>
      have hblank : isBlank c = false := by
        have hne : ∀ d ∈ noBeginning, c ≠ d := by
          rintro d hd rfl
          exact head?_ne_of_readValue h hd rfl
        simp [isBlank, hne ' ' (by decide), hne '\t' (by decide), hne '\n' (by decide),
          hne '\r' (by decide)]
      rw [skip, List.dropWhile_cons_of_neg (by simp [hblank])]

/-- What stands behind a break, or behind nothing, goes on with no number. -/
theorem apart_newline_append {c : Char} (hc : extendsNumber c = false) (indent : Writer.Indent)
    (depth : Nat) (t : List Char) : Apart (Writer.newline indent depth ++ c :: t) := by
  cases indent with
  | none => exact apart_cons hc t
  | some width => exact apart_cons (by decide) _

theorem skip_append_of_readValue (h : readValue cs = .ok (v, r)) (t : List Char) :
    skip (cs ++ t) = cs ++ t := by
  have hne : cs ≠ [] := ne_nil_of_length (length_readValue h)
  rw [skip_append (by rwa [skip_of_readValue h]), skip_of_readValue h]

/-! ### Items -/

theorem readItems_written (hv : readValue (Writer.value indent depth v) = .ok (v, []))
    (hvs : ∀ w ∈ vs, readValue (Writer.value indent depth w) = .ok (w, [])) (outer : Nat) :
    readItems (Writer.value indent depth v ++ (Writer.items indent depth vs ++
      (Writer.newline indent outer ++ [']']))) = .ok (v :: vs, []) := by
  induction vs generalizing v with
  | nil =>
      have hread := readValue_append (apart_newline_append (c := ']') (by decide) indent outer []) hv
      rw [Writer.items, List.nil_append]
      exact readItems_last hread (by rw [List.nil_append, skip_newline]; rfl)
  | cons w vs ih =>
      obtain ⟨hw, hvs⟩ := List.forall_mem_cons.mp hvs
      have hmore := ih hw hvs
      simp only [Writer.items, List.cons_append, List.append_assoc]
      have hread := readValue_append (apart_cons (by decide) _) hv
        (t := ',' :: (Writer.newline indent depth ++ (Writer.value indent depth w ++
          (Writer.items indent depth vs ++ (Writer.newline indent outer ++ [']'])))))
      refine readItems_cons hread rfl ?_
      rw [skip_newline, skip_append_of_readValue hw]
      exact hmore

/-! ### Fields -/

theorem readFields_field (k : String) (indent : Writer.Indent) (h : readValue cs = .ok (v, r)) :
    readFields (Writer.string k ++ (Writer.colon indent ++ cs)) =
      readMore '\x7d' readFields (k, v) r := by
  have hcolon : skip (Writer.colon indent ++ cs) =
      ':' :: ((if indent.isSome then [' '] else []) ++ cs) := by cases indent <;> rfl
  have hvalue : skip ((if indent.isSome then [' '] else []) ++ cs) = cs := by
    cases indent
    · exact skip_of_readValue h
    · exact skip_of_readValue h
  rw [Writer.string, List.cons_append, List.cons_append, List.append_assoc, List.singleton_append,
    readFields_eq, string_flatMap fun c _ => string_writer_escape c]
  simp only [hcolon, hvalue, h, String.ofList_toList]
  rfl

theorem readFields_written (k : String)
    (hv : readValue (Writer.value indent depth v) = .ok (v, []))
    (hfs : ∀ f ∈ fs, readValue (Writer.value indent depth f.2) = .ok (f.2, [])) (outer : Nat) :
    readFields (Writer.string k ++ (Writer.colon indent ++ (Writer.value indent depth v ++
      (Writer.fields indent depth fs ++ (Writer.newline indent outer ++ ['\x7d']))))) =
        .ok ((k, v) :: fs, []) := by
  induction fs generalizing k v with
  | nil =>
      have hread := readValue_append (apart_newline_append (c := '\x7d') (by decide) indent outer []) hv
      rw [Writer.fields, List.nil_append, readFields_field k indent hread]
      exact readMore_close (by decide) (by rw [List.nil_append, skip_newline]; rfl)
  | cons f fs ih =>
      obtain ⟨key, w⟩ := f
      obtain ⟨hw, hfs⟩ := List.forall_mem_cons.mp hfs
      have hmore := ih key hw hfs
      simp only [Writer.fields, List.cons_append, List.append_assoc]
      have hread := readValue_append (apart_cons (by decide) _) hv
        (t := ',' :: (Writer.newline indent depth ++ (Writer.string key ++ (Writer.colon indent ++
          (Writer.value indent depth w ++ (Writer.fields indent depth fs ++
            (Writer.newline indent outer ++ ['\x7d'])))))))
      rw [readFields_field k indent hread, readMore_comma rfl, skip_newline]
      have hkey : ∀ t, skip (Writer.string key ++ t) = Writer.string key ++ t := fun _ => rfl
      rw [hkey, hmore]
      rfl

/-! ### Values -/

theorem readValue_null : readValue "null".toList = .ok (.null, []) :=
  (readValue_scalar (by decide) (by decide) (by decide)).trans rfl

theorem readValue_bool (b : Bool) :
    readValue (if b then "true" else "false").toList = .ok (.bool b, []) := by
  cases b
  · exact (readValue_scalar (by decide) (by decide) (by decide)).trans rfl
  · exact (readValue_scalar (by decide) (by decide) (by decide)).trans rfl

theorem readValue_array_written
    (h : ∀ v ∈ vs, readValue (Writer.value indent (depth + 1) v) = .ok (v, [])) :
    readValue (Writer.value indent depth (.array vs)) = .ok (.array vs, []) := by
  cases vs with
  | nil => exact readValue_array_nil rfl
  | cons v vs =>
      obtain ⟨hv, hvs⟩ := List.forall_mem_cons.mp h
      have hitems := readItems_written hv hvs depth
      simp only [Writer.value, List.cons_append, List.append_assoc]
      rw [← skip_append_of_readValue hv, ← skip_newline indent (depth + 1)] at hitems
      refine readValue_of_readItems ?_ hitems
      rw [skip_newline, skip_append_of_readValue hv]
      exact head?_append_ne (ne_nil_of_length (length_readValue hv))
        (head?_ne_of_readValue hv (by decide))

/-- An object is read from its text if its values are, and no key occurs twice. -/
theorem readValue_object_written (hkeys : (Ordered.keys fs).Nodup)
    (h : ∀ f ∈ fs, readValue (Writer.value indent (depth + 1) f.2) = .ok (f.2, [])) :
    readValue (Writer.value indent depth (.object fs)) = .ok (.object fs, []) := by
  cases fs with
  | nil => exact readValue_object_nil rfl
  | cons f fs =>
      obtain ⟨key, v⟩ := f
      obtain ⟨hv, hfs⟩ := List.forall_mem_cons.mp h
      have hfields := readFields_written key hv hfs depth
      simp only [Writer.value, List.cons_append, List.append_assoc]
      have hskip : ∀ t, skip (Writer.newline indent (depth + 1) ++ (Writer.string key ++ t)) =
          Writer.string key ++ t := fun t => skip_newline indent (depth + 1) _
      rw [readValue_object (by rw [hskip]; exact (by decide : some '"' ≠ some '\x7d')), hskip,
        hfields]
      show Except.ok (Value.object (Ordered.ofList ((key, v) :: fs)), _) = _
      rw [Ordered.ofList_eq_self hkeys]

/-- A legible value is read from its text. -/
theorem readValue_written (hv : Legible v) (indent : Writer.Indent) (depth : Nat) :
    readValue (Writer.value indent depth v) = .ok (v, []) := by
  induction hv generalizing depth with
  | null => exact readValue_null
  | bool b => exact readValue_bool b
  | int hn => exact readValue_int hn
  | text s => exact readValue_quoted (fun c _ => string_writer_escape c) s
  | array _ ih => exact readValue_array_written fun v hv => ih v hv (depth + 1)
  | object hkeys _ ih => exact readValue_object_written hkeys fun f hf => ih f hf (depth + 1)

end Reader

/-- **What is written is read as it was.** -/
theorem Value.ofText_render {v : Value} (hv : Legible v) (indent : Writer.Indent) :
    Value.ofText (v.render indent).toList = .ok v := by
  have hread := Reader.readValue_written hv indent 0
  have hmark := Reader.head?_ne_of_readValue hread (c := Char.ofNat 0xFEFF) (by decide)
  rw [← Reader.skip_of_readValue hread] at hread
  rw [Value.render, String.toList_ofList]
  have hdocument := Reader.document_of_readValue hread rfl
  cases hcs : Writer.value indent 0 v with
  | nil =>
      rw [hcs] at hdocument
      exact hdocument
  | cons c cs =>
      rw [hcs] at hmark hdocument
      have hc : (c.toNat == 0xFEFF) = false := by
        rw [beq_eq_false_iff_ne]
        intro heq
        exact hmark (by rw [← heq, Char.ofNat_toNat]; rfl)
      rw [Value.ofText, hc]
      exact hdocument

end Finality.Json
