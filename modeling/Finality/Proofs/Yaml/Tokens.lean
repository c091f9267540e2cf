import Finality.Proofs.Except
import Finality.Yaml.Token.Scan

/-! # Faults of the tokens

What can be wrong with a text before its nodes are looked at.  Nearly everything is `malformed`; the
other faults come from escapes in quotes and from the version in a directive.

A scan that fails does so for a lexical fault (`Lexical`), which is shown reader by reader, from the
places of a text to its tokens. -/

namespace Finality.Yaml

open Except (FailsOnly)

/-- Faults that a text has before the value of any scalar is asked for. -/
inductive IsLexical : Fault → Prop where
  | malformed : IsLexical .malformed
  /-- An escape for a character that there is not. -/
  | codePoint {n : Nat} : 0x110000 ≤ n → IsLexical (.codePoint n)
  /-- A part of the version that is too long to be read. -/
  | version {n : Nat} : Text.Numeral.maxDigits < n → IsLexical (.overlongNumeral n)

/-- The fault of a scan is lexical. -/
def ScanFault.IsLexical (f : ScanFault) : Prop := Yaml.IsLexical f.fault

/-- A scan that fails does so for a lexical fault. -/
abbrev Lexical {α : Type} (x : Except ScanFault α) : Prop := x.FailsOnly ScanFault.IsLexical

namespace Cursor

variable (c : Cursor)

theorem fail_lexical {α : Type} : Lexical (c.fail : Except ScanFault α) := .error .malformed

/-! ### Properties and directives -/

theorem word_lexical : Lexical c.word := by
  unfold word
  split
  · exact c.fail_lexical
  · exact .ok

theorem address_lexical : Lexical c.address := by
  unfold address
  split
  · exact c.fail_lexical
  · exact .ite c.fail_lexical .ok

theorem expect_lexical (p : Option Char → Bool) : Lexical (c.expect p) := .ite .ok c.fail_lexical

theorem handle_lexical : Lexical c.handle :=
  .bind (c.expect_lexical _) fun _ => .ite .ok (.ite .ok (fail_lexical _))

theorem nodeName_lexical : Lexical c.nodeName :=
  .bind (word_lexical _) fun _ => .bind (expect_lexical _ _) fun _ => .ok

theorem tag_lexical : Lexical c.tag := by
  unfold tag
  extract_lets finish
  have hfinish : ∀ t, Lexical (finish t) := fun _ => .bind (expect_lexical _ _) fun _ => .ok
  refine .ite ?verbatim (.ite (.bind .ok hfinish) ?shorthand)
  case verbatim =>
    exact .bind (address_lexical _) fun _ => .bind (expect_lexical _ _) fun _ => .bind .ok hfinish
  case shorthand =>
    rename_i named
    have hnamed : ∀ handle, Lexical (named handle) := fun _ =>
      .bind (address_lexical _) fun _ => .bind .ok hfinish
    exact .ite (.bind (handle_lexical _) hnamed) (.bind .ok hnamed)

theorem natural_lexical : Lexical c.natural := by
  unfold natural
  split
  · exact c.fail_lexical
  · split
    · rename_i hlong
      exact .error (.version hlong)
    · exact .ok

theorem blankLine_lexical : Lexical c.blankLine :=
  .bind (expect_lexical _ _) fun _ => .ok

theorem directive_lexical : Lexical c.directive := by
  refine .bind (word_lexical _) fun ⟨name, c⟩ => .bind (expect_lexical _ _) fun _ => ?_
  extract_lets finish
  have hfinish : ∀ d, Lexical (finish d) := fun _ => .bind (blankLine_lexical _) fun _ => .ok
  refine .ite ?version (.ite ?tag (.bind .ok hfinish))
  case version =>
    exact .bind (natural_lexical _) fun _ => .bind (expect_lexical _ _) fun _ =>
      .bind (natural_lexical _) fun _ => .bind (expect_lexical _ _) fun _ => .bind .ok hfinish
  case tag =>
    exact .bind (handle_lexical _) fun _ => .bind (expect_lexical _ _) fun _ =>
      .bind (address_lexical _) fun _ => .bind (expect_lexical _ _) fun _ => .bind .ok hfinish

end Cursor

open Cursor (fail_lexical)

/-! ### Scalars -/

theorem codePoint_lexical (length : Nat) (c : Cursor) : Lexical (codePoint length c) := by
  unfold codePoint
  extract_lets ds known n
  refine .ite (fail_lexical _) ?_
  split
  · exact .ok
  · rename_i hn
    exact .error (.codePoint (Nat.le_of_not_lt hn))

theorem quotedBreaks_lexical (fuel : Nat) (c : Cursor) : Lexical (quotedBreaks fuel c) := by
  induction fuel generalizing c with
  | zero => exact .ok
  | succ fuel ih =>
      unfold quotedBreaks
      refine .ite (fail_lexical _) ?_
      extract_lets c
      split
      · exact .ok
      · exact .bind (ih _) fun _ => .ok

theorem quotedParts_lexical (double : Bool) (fuel : Nat) (c : Cursor) :
    Lexical (quotedParts double fuel c) := by
  induction fuel generalizing c with
  | zero => exact fail_lexical _
  | succ fuel ih =>
      unfold quotedParts
      extract_lets add
      have hadd : ∀ cs c, Lexical (add cs c) := fun _ _ => .bind (ih _) fun _ => .ok
      split
      · exact fail_lexical _
      refine .ite (.ite .ok (hadd _ _)) (.ite (.ite (hadd _ _) (.ite (hadd _ _) .ok))
        (.ite ?escape (.ite ?blank ?word)))
      case escape =>
        extract_lets
        split
        · exact fail_lexical _
        · split
          · exact hadd _ _
          · exact .bind (codePoint_lexical _ _) fun _ => hadd _ _
          · split
            · exact fail_lexical _
            · exact .bind (quotedBreaks_lexical _ _) fun _ => hadd _ _
      case blank =>
        dsimp only
        split
        · exact hadd _ _
        · exact .bind (quotedBreaks_lexical _ _) fun _ => hadd _ _
      case word => exact .ite (hadd _ _) (hadd _ _)

theorem quotedScalar_lexical (c : Cursor) : Lexical (quotedScalar c) :=
  .bind (quotedParts_lexical _ _ _) fun _ => .ok

theorem increment?_lexical (c : Cursor) : Lexical (increment? c) := by
  unfold increment?
  split
  · exact .ite (fail_lexical _) (.ite .ok .ok)
  · exact .ok

theorem blockHeader_lexical (c : Cursor) : Lexical (blockHeader c) := by
  unfold blockHeader
  extract_lets finish
  have hfinish : ∀ h, Lexical (finish h) := fun _ => .ite .ok (fail_lexical _)
  split
  · refine .bind (increment?_lexical _) fun _ => ?_
    split <;> exact .bind .ok hfinish
  · refine .bind (increment?_lexical _) fun _ => ?_
    split
    · split <;> exact .bind .ok hfinish
    · exact .bind .ok hfinish

theorem blockScalar_lexical (folded : Bool) (parent : Int) (c : Cursor) :
    Lexical (blockScalar folded parent c) :=
  .bind (blockHeader_lexical _) fun _ => .ite (fail_lexical _) .ok

/-! ### Tokens -/

namespace Scan

variable (s : Scan)

theorem dropStale_lexical : Lexical s.dropStale := .ite (fail_lexical _) .ok

theorem removeKey_lexical : Lexical s.removeKey := by
  unfold removeKey
  split
  · exact .ok
  · exact .ite (fail_lexical _) .ok

theorem saveKey_lexical : Lexical s.saveKey :=
  .ite (.bind (removeKey_lexical _) fun _ => .ok) .ok

theorem endBlocks_lexical : Lexical s.endBlocks := .bind (removeKey_lexical _) fun _ => .ok

theorem openFlow_lexical (t : Token) : Lexical (s.openFlow t) :=
  .bind s.saveKey_lexical fun _ => .ok

theorem closeFlow_lexical (t : Token) : Lexical (s.closeFlow t) :=
  .bind s.removeKey_lexical fun _ => .ok

theorem flowEntry_lexical : Lexical s.flowEntry := .bind (removeKey_lexical _) fun _ => .ok

theorem openBlock_lexical (t : Token) : Lexical (s.openBlock t) :=
  .ite .ok (.ite (fail_lexical _) .ok)

theorem blockEntry_lexical : Lexical s.blockEntry :=
  .bind (s.openBlock_lexical _) fun _ => .bind (removeKey_lexical _) fun _ => .ok

theorem key_lexical : Lexical s.key :=
  .bind (s.openBlock_lexical _) fun _ => .bind (removeKey_lexical _) fun _ => .ok

theorem value_lexical : Lexical s.value := by
  unfold value
  split
  · exact .ok
  · exact .bind (s.openBlock_lexical _) fun _ => .bind (removeKey_lexical _) fun _ => .ok

theorem keyed_lexical {read : Cursor → Except ScanFault (Token × Cursor)}
    (h : ∀ c, Lexical (read c)) : Lexical (s.keyed read) :=
  .bind s.saveKey_lexical fun _ => .bind (h _) fun _ => .ok

theorem plain_lexical : Lexical s.plain := .bind s.saveKey_lexical fun _ => .ok

theorem block_lexical (folded : Bool) : Lexical (s.block folded) :=
  .bind (removeKey_lexical _) fun _ => .bind (blockScalar_lexical _ _ _) fun _ => .ok

theorem token_lexical (x : Char) : Lexical (s.token x) := by
  unfold token
  extract_lets c inFlow alone
  refine .ite ?directive (.ite ?start (.ite ?stop ?_))
  case directive =>
    exact .bind s.endBlocks_lexical fun _ => .bind (Cursor.directive_lexical _) fun _ => .ok
  case start => exact .bind s.endBlocks_lexical fun _ => .ok
  case stop => exact .bind s.endBlocks_lexical fun _ => .ok
  refine .ite (s.openFlow_lexical _) (.ite (s.openFlow_lexical _) ?_)
  refine .ite (s.closeFlow_lexical _) (.ite (s.closeFlow_lexical _) (.ite s.flowEntry_lexical ?_))
  refine .ite s.blockEntry_lexical (.ite s.key_lexical (.ite s.value_lexical ?_))
  refine .ite ?reference (.ite ?anchor (.ite (s.keyed_lexical Cursor.tag_lexical) ?_))
  case reference => exact s.keyed_lexical fun c => .map c.nodeName_lexical
  case anchor => exact s.keyed_lexical fun c => .map c.nodeName_lexical
  refine .ite (s.block_lexical _) (.ite (s.block_lexical _) (.ite ?quoted ?_))
  case quoted => exact s.keyed_lexical fun c => .map (quotedScalar_lexical c)
  exact .ite s.plain_lexical (fail_lexical _)

theorem step_lexical : Lexical s.step := by
  refine .bind (dropStale_lexical _) fun s => ?_
  extract_lets s
  split
  · exact .bind s.endBlocks_lexical fun _ => .ok
  · exact .bind (s.token_lexical _) fun _ => .ok

theorem faultOf_cases {broken : Option Fault} {f : ScanFault} (h : f.IsLexical) :
    IsLexical (faultOf broken f) ∨ broken = some (faultOf broken f) := by
  unfold faultOf
  split
  · cases broken with
    | none => exact .inl h
    | some fault => exact .inr rfl
  · exact .inl h

theorem run_fault {broken : Option Fault} {fuel : Nat} {f : Fault}
    (h : (run broken fuel s).2 = some f) : IsLexical f ∨ broken = some f := by
  induction fuel generalizing s with
  | zero =>
      cases h
      exact .inl .malformed
  | succ fuel ih =>
      unfold run at h
      split at h
      · rename_i stale hstale
        cases h
        exact .inl (s.dropStale_lexical stale hstale)
      split at h
      · rename_i fault hfault
        cases h
        exact faultOf_cases (s.step_lexical fault hfault)
      split at h
      · exact .inr h
      split at h
      · exact ih _ h
      · cases h

end Scan

/-- **The tokens end early for a lexical fault, or because the text breaks off.** -/
theorem tokens_fault {source : Source} {f : Fault} (h : (tokens source).2 = some f) :
    IsLexical f ∨ source.broken = some f :=
  Scan.run_fault _ h

end Finality.Yaml
