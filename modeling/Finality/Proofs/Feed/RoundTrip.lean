import Finality.Feed.Frame
import Finality.Proofs.Feed.Grammar
import Finality.Proofs.Json.Spelling

/-! # The way over the wire and back

An `Outgoing` message is an event that the tracker consumes, together with all that its sender is
free to choose: a height is written as a number or as a numeral in a string, and an authority set or
a best block may carry further elements, which nobody reads.  The further elements are texts of
their own, and any text will do that can be read as JSON.

Each part of a payload is read as what was written, whatever the choices (`exists_value`).  So a
frame of outgoing messages is decoded to their events, in order (`ofText_frame`). -/

namespace Finality.Feed

open Finality.Json (Spelling.array Spelling.int Spelling.string)
open Finality.Json.Reader (Spells document_of_readValue ofText_array readValue_scalar spells_array
  spells_int spells_of_ofText spells_string spells_strings)
open Finality.Text.Numeral (Short)

/-- Ways to write a height. -/
inductive HeightForm where
  | number
  | numeral
deriving DecidableEq, Repr

/-- Text of a height. -/
def HeightForm.spell : HeightForm → Nat → List Char
  | number, h => Spelling.int h
  | numeral, h => Spelling.string (toString h)

/-- A message as it is sent. -/
inductive Outgoing where
  | vote (v : Vote) (reporter : Address) (form : HeightForm) (height : Nat) (hash : BlockHash)
      (voter : Address)
  | finalized (reporter : Address) (form : HeightForm) (height : Nat) (hash : BlockHash)
  | authoritySet (setId : Int) (members : List Address) (extras : List (List Char))
  | bestBlock (form : HeightForm) (height : Nat) (extras : List (List Char))
  | subscribed (chain : String)
  | chainRemoved (chain : String)
deriving DecidableEq, Repr

namespace Outgoing

/-- What the message says. -/
def event : Outgoing → Event
  | vote v reporter _ height hash voter => .vote v reporter height hash voter
  | finalized reporter _ height hash => .finalized reporter height hash
  | authoritySet setId members _ => .authoritySet setId members
  | bestBlock _ height _ => .bestBlock height
  | subscribed chain => .subscribed chain
  | chainRemoved chain => .chainRemoved chain

def action : Outgoing → Action
  | vote .prevote .. => .afgReceivedPrevote
  | vote .precommit .. => .afgReceivedPrecommit
  | finalized .. => .afgFinalized
  | authoritySet .. => .afgAuthoritySet
  | bestBlock .. => .bestBlock
  | subscribed _ => .subscribedTo
  | chainRemoved _ => .removedChain

/-- Text of the payload. -/
def payload : Outgoing → List Char
  | vote _ reporter form height hash voter =>
    Spelling.array [Spelling.string reporter, form.spell height, Spelling.string hash,
      Spelling.string voter]
  | finalized reporter form height hash =>
    Spelling.array [Spelling.string reporter, form.spell height, Spelling.string hash]
  | authoritySet setId members extras =>
    Spelling.array (Spelling.int setId :: Spelling.array (members.map Spelling.string) :: extras)
  | bestBlock form height extras => Spelling.array (form.spell height :: extras)
  | subscribed chain => Spelling.string chain
  | chainRemoved chain => Spelling.string chain

/-- Numbers have not too many digits, and further elements can be read. -/
def Fits : Outgoing → Prop
  | vote _ _ _ height _ _ => Short height
  | finalized _ _ height _ => Short height
  | authoritySet setId _ extras =>
    Short setId.natAbs ∧ ∀ x ∈ extras, ∃ v, Json.Value.ofText x = .ok v
  | bestBlock _ height extras => Short height ∧ ∀ x ∈ extras, ∃ v, Json.Value.ofText x = .ok v
  | subscribed _ => True
  | chainRemoved _ => True

/-- The elements of a frame that the message takes: action code and payload. -/
def elements (m : Outgoing) : List (List Char) := [Spelling.int m.action.code, m.payload]

/-- Text of a frame. -/
def frame (ms : List Outgoing) : List Char := Spelling.array (ms.flatMap elements)

/-! ### Payloads -/

theorem exists_height (form : HeightForm) {h : Nat} (hh : Short h) :
    ∃ v, Spells (form.spell h) v ∧ Height.ofValue v = .ok h := by
  cases form with
  | number => exact ⟨.int h, spells_int hh, rfl⟩
  | numeral =>
      refine ⟨.text (toString h), spells_string _, ?_⟩
      have hdigits : (toString h).toList = Nat.toDigits 10 h := by
        rw [Nat.toString_eq_ofList_toDigits, String.toList_ofList]
      simp only [Height.ofValue, Height.ofValue?, Height.integerOf, hdigits,
        Text.Numeral.read_toDigits hh]
      rfl

theorem exists_extras {extras : List (List Char)}
    (h : ∀ x ∈ extras, ∃ v, Json.Value.ofText x = .ok v) :
    ∃ vs, List.Forall₂ Spells extras vs := by
  induction extras with
  | nil => exact ⟨[], .nil⟩
  | cons x extras ih =>
      obtain ⟨⟨v, hv⟩, hextras⟩ := List.forall_mem_cons.mp h
      obtain ⟨vs, hvs⟩ := ih hextras
      exact ⟨v :: vs, .cons (spells_of_ofText hv) hvs⟩

/-- The payload is read as a value that makes the event, whatever the choices of the sender. -/
theorem exists_value {m : Outgoing} (hm : m.Fits) :
    ∃ v, Spells m.payload v ∧ Message.Carries Payload.setId m.action v m.event := by
  cases m with
  | vote k reporter form height hash voter =>
      obtain ⟨x, hx, hheight⟩ := exists_height form hm
      refine ⟨.array [.text reporter, x, .text hash, .text voter], ?_, ?_⟩
      · exact spells_array (.cons (spells_string _) (.cons hx (.cons (spells_string _)
          (.cons (spells_string _) .nil))))
      · cases k with
        | prevote => exact .vote (k := .prevote) hheight
        | precommit => exact .vote (k := .precommit) hheight
  | finalized reporter form height hash =>
      obtain ⟨x, hx, hheight⟩ := exists_height form hm
      refine ⟨.array [.text reporter, x, .text hash], ?_, .finalized hheight⟩
      exact spells_array (.cons (spells_string _) (.cons hx (.cons (spells_string _) .nil)))
  | authoritySet setId members extras =>
      obtain ⟨hid, hextras⟩ := hm
      obtain ⟨vs, hvs⟩ := exists_extras hextras
      refine ⟨.array (.int setId :: .array (members.map .text) :: vs), ?_, .authoritySet rfl⟩
      exact spells_array (.cons (spells_int hid) (.cons (spells_array (spells_strings _)) hvs))
  | bestBlock form height extras =>
      obtain ⟨hshort, hextras⟩ := hm
      obtain ⟨x, hx, hheight⟩ := exists_height form hshort
      obtain ⟨vs, hvs⟩ := exists_extras hextras
      exact ⟨.array (x :: vs), spells_array (.cons hx hvs), .bestBlock hheight⟩
  | subscribed chain => exact ⟨.text chain, spells_string _, .subscribed⟩
  | chainRemoved chain => exact ⟨.text chain, spells_string _, .chainRemoved⟩

/-! ### Frames -/

theorem exists_pairs {ms : List Outgoing} (hms : ∀ m ∈ ms, m.Fits) :
    ∃ items messages, List.Forall₂ Spells (ms.flatMap elements) items ∧
      Frame.pairs? items = some messages ∧
      ∀ index, Frame.events index messages = .ok (ms.map event) := by
  induction ms with
  | nil => exact ⟨[], [], .nil, rfl, fun _ => rfl⟩
  | cons m ms ih =>
      obtain ⟨hm, hms⟩ := List.forall_mem_cons.mp hms
      obtain ⟨v, hv, hcarries⟩ := exists_value hm
      obtain ⟨items, messages, hitems, hpairs, hevents⟩ := ih hms
      have hcode : Spells (Spelling.int m.action.code) (.int m.action.code) :=
        spells_int m.action.short_code
      refine ⟨.int m.action.code :: v :: items, (.int m.action.code, v) :: messages,
        .cons hcode (.cons hv hitems), ?_, fun index => ?_⟩
      · rw [Frame.pairs?, hpairs]
        rfl
      · have hdecode : Message.decode (.int m.action.code) v index = .ok m.event :=
          Message.decodeWith_eq_ok_iff.mpr ⟨m.action, rfl, hcarries⟩
        simp only [Frame.events, hdecode, hevents, bind, Except.bind, List.map_cons]

/-- **Round trip.**  A frame of messages is decoded to what they say, in order, whatever their
strings and whichever way their heights are written, as long as their numbers have not too many
digits and their further elements can be read. -/
theorem ofText_frame (ms : List Outgoing) (hne : ms ≠ []) (hfit : ∀ m ∈ ms, m.Fits) :
    Frame.ofText (frame ms) = .ok (ms.map event) := by
  obtain ⟨items, messages, hitems, hpairs, hevents⟩ := exists_pairs hfit
  have hread : Json.Value.ofText (frame ms) = .ok (.array items) :=
    (ofText_array _).trans (spells_array hitems)
  have hitems_ne : items.isEmpty = false := by
    cases ms with
    | nil => exact absurd rfl hne
    | cons m ms => cases hitems; rfl
  have hmessages : Frame.messages? (.array items) = some messages := by
    simp only [Frame.messages?, hitems_ne, Bool.false_eq_true, if_false, hpairs]
  simp only [Frame.ofText, hread, Frame.ofJson, hmessages, hevents]
  rfl

/-- A frame with characters to escape, a pair of surrogates, both forms of heights, and further
elements. -/
theorem ofText_frame_escapes :
    let ms : List Outgoing :=
      [.vote .prevote "Ä\n" .numeral 1050 "0x" "🦀", .authoritySet (-7) ["V"] [" null ".toList],
        .bestBlock .number 60 ["1e3".toList]]
    String.ofList (frame ms) = "[17, [\"\\u00c4\\n\", \"1050\", \"0x\", \"\\ud83e\\udd80\"], " ++
        "19, [-7, [\"V\"],  null ], 1, [60, 1e3]]" ∧
      Frame.ofText (frame ms) =
        .ok [.vote .prevote "Ä\n" 1050 "0x" "🦀", .authoritySet (-7) ["V"], .bestBlock 60] := by
  intro ms
  have hnull : ∃ v, Json.Value.ofText " null ".toList = .ok v :=
    ⟨.null, document_of_readValue (readValue_scalar (by decide) (by decide) (by decide)) rfl⟩
  have hfloat : ∃ v, Json.Value.ofText "1e3".toList = .ok v :=
    ⟨_, document_of_readValue (readValue_scalar (by decide) (by decide) (by decide)) rfl⟩
  have hfit : ∀ m ∈ ms, m.Fits := by
    simp only [ms, List.forall_mem_cons, Fits]
    exact ⟨by decide, ⟨by decide, hnull, by simp⟩, ⟨by decide, hfloat, by simp⟩, by simp⟩
  exact ⟨by decide, ofText_frame ms (by simp [ms]) hfit⟩

end Outgoing

end Finality.Feed
