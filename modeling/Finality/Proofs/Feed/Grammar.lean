import Finality.Feed.Message
import Finality.Proofs.Except
import Finality.Proofs.Text.Decimal

/-! # The grammar of messages

What a message may look like, said without the reader of messages.  `Message.Carries a payload e`
lists the payloads of an action with the event that each of them makes: arrays of a fixed length,
arrays that only have to begin in a certain way, texts, and for an action that the tracker has no
use for any payload at all.  `Message.Says` adds the action code, which has to be an integer.  How an
authority set spells its id is left to the reader of ids.

Every reader of a part of a payload has one law, which tells exactly what it accepts.  Together they
say that decoding accepts the grammar and nothing else, and that what it refuses is blamed on the
code or on the payload, as long as the blame can be put in words (`receive_grammar`). -/

namespace Finality.Feed

open Except (bind_eq_ok_iff mapError_eq_error_iff mapError_eq_ok_iff)
open Text.Numeral (Short maxDigits)

namespace Action

/-- Actions that the tracker has a use for. -/
def consumed : List Action :=
  [bestBlock, removedChain, subscribedTo, afgFinalized, afgReceivedPrevote, afgReceivedPrecommit,
    afgAuthoritySet]

/-- The action that tells of a vote. -/
def ofVote : Vote → Action
  | .prevote => afgReceivedPrevote
  | .precommit => afgReceivedPrecommit

theorem short_code (a : Action) : Short a.code := by
  cases a <;> decide

theorem ofCode?_eq_some_iff {n : Int} {a : Action} : ofCode? n = some a ↔ n = a.code := by
  constructor
  · intro h
    cases n with
    | negSucc n => cases h
    | ofNat n =>
        have hnodup : all.Nodup := by decide
        obtain ⟨hn, ha⟩ := List.getElem?_eq_some_iff.mp h
        rw [code, ← ha, hnodup.idxOf_getElem]
        rfl
  · rintro rfl
    exact ofCode?_code a

end Action

/-! ### Payloads -/

namespace Payload

variable {α : Type} {v : Json.Value} {items : List Json.Value} {e : Event}

theorem text_eq_ok_iff {s : String} : text v = .ok s ↔ v = .text s := by
  cases v <;> simp [text, Json.Value.text?]

theorem height_eq_ok_iff {h : Nat} : height v = .ok h ↔ Height.ofValue v = .ok h :=
  mapError_eq_ok_iff

theorem element_eq_ok_iff {read : Json.Value → Except Problem α} {i : Nat} {a : α} :
    element read items i = .ok a ↔ ∃ v, items[i]? = some v ∧ read v = .ok a := by
  unfold element
  split
  · rename_i h
    simp [h]
  · rename_i v h
    simp [h, mapError_eq_ok_iff]

theorem tuple_eq_ok_iff {most : Nat} :
    tuple most v = .ok items ↔ v = .array items ∧ items.length ≤ most := by
  cases v with
  | array xs =>
      simp only [tuple]
      split
      · rename_i hlong
        refine iff_of_false (by simp) ?_
        rintro ⟨heq, hle⟩
        cases heq
        omega
      · rename_i hfits
        constructor
        · intro h
          cases h
          exact ⟨rfl, Nat.le_of_not_lt hfits⟩
        · rintro ⟨heq, -⟩
          cases heq
          rfl
  | _ => simp [tuple]

theorem members_eq_ok_iff {i : Nat} {members : List Address} :
    Payload.members i items = .ok members ↔ items = members.map .text := by
  induction items generalizing i members with
  | nil =>
      simp only [Payload.members, Except.ok.injEq]
      cases members <;> simp
  | cons v items ih =>
      simp only [Payload.members, bind_eq_ok_iff, mapError_eq_ok_iff, text_eq_ok_iff, ih]
      constructor
      · rintro ⟨a, rfl, rest, rfl, h⟩
        cases h
        rfl
      · intro h
        cases members with
        | nil => cases h
        | cons a rest =>
            cases h
            exact ⟨a, rfl, rest, rfl, rfl⟩

theorem vote_eq_ok_iff {k : Vote} :
    vote k v = .ok e ↔ ∃ reporter x h hash voter,
      v = .array [.text reporter, x, .text hash, .text voter] ∧ Height.ofValue x = .ok h ∧
        e = .vote k reporter h hash voter := by
  simp only [vote, bind_eq_ok_iff, tuple_eq_ok_iff, element_eq_ok_iff, text_eq_ok_iff,
    height_eq_ok_iff]
  constructor
  · rintro ⟨items, ⟨rfl, hlen⟩, reporter, ⟨_, h0, rfl⟩, h, ⟨x, h1, hx⟩, hash, ⟨_, h2, rfl⟩, voter,
      ⟨_, h3, rfl⟩, he⟩
    cases he
    match items, hlen with
    | [a, b, c, d], _ =>
        simp only [List.getElem?_cons_zero, List.getElem?_cons_succ, Option.some.injEq] at h0 h1 h2 h3
        subst h0 h1 h2 h3
        exact ⟨reporter, b, h, hash, voter, rfl, hx, rfl⟩
  · rintro ⟨reporter, x, h, hash, voter, rfl, hx, rfl⟩
    exact ⟨_, ⟨rfl, Nat.le_refl _⟩, reporter, ⟨_, rfl, rfl⟩, h, ⟨x, rfl, hx⟩, hash, ⟨_, rfl, rfl⟩, voter,
      ⟨_, rfl, rfl⟩, rfl⟩

theorem finalized_eq_ok_iff :
    finalized v = .ok e ↔ ∃ reporter x h hash,
      v = .array [.text reporter, x, .text hash] ∧ Height.ofValue x = .ok h ∧
        e = .finalized reporter h hash := by
  simp only [finalized, bind_eq_ok_iff, tuple_eq_ok_iff, element_eq_ok_iff, text_eq_ok_iff,
    height_eq_ok_iff]
  constructor
  · rintro ⟨items, ⟨rfl, hlen⟩, reporter, ⟨_, h0, rfl⟩, h, ⟨x, h1, hx⟩, hash, ⟨_, h2, rfl⟩, he⟩
    cases he
    match items, hlen with
    | [a, b, c], _ =>
        simp only [List.getElem?_cons_zero, List.getElem?_cons_succ, Option.some.injEq] at h0 h1 h2
        subst h0 h1 h2
        exact ⟨reporter, b, h, hash, rfl, hx, rfl⟩
  · rintro ⟨reporter, x, h, hash, rfl, hx, rfl⟩
    exact ⟨_, ⟨rfl, Nat.le_refl _⟩, reporter, ⟨_, rfl, rfl⟩, h, ⟨x, rfl, hx⟩, hash, ⟨_, rfl, rfl⟩, rfl⟩

theorem authoritySet_eq_ok_iff {readId : IdReader} {w : Json.Value} :
    authoritySet readId v w = .ok e ↔ ∃ n members,
      readId v = .ok n ∧ w = .array (members.map .text) ∧ e = .authoritySet n members := by
  simp only [authoritySet, bind_eq_ok_iff, mapError_eq_ok_iff]
  constructor
  · rintro ⟨n, hn, h⟩
    cases w with
    | array items =>
        simp only [bind_eq_ok_iff, members_eq_ok_iff] at h
        obtain ⟨members, rfl, he⟩ := h
        cases he
        exact ⟨n, members, hn, rfl, rfl⟩
    | _ => cases h
  · rintro ⟨n, members, hn, rfl, rfl⟩
    refine ⟨n, hn, ?_⟩
    simp only [bind_eq_ok_iff, members_eq_ok_iff]
    exact ⟨members, rfl, rfl⟩

theorem bestBlock_eq_ok_iff :
    bestBlock v = .ok e ↔ ∃ h, Height.ofValue v = .ok h ∧ e = .bestBlock h := by
  simp only [bestBlock, bind_eq_ok_iff, mapError_eq_ok_iff, height_eq_ok_iff, Except.ok.injEq,
    @eq_comm _ e]

theorem chain_eq_ok_iff {make : String → Event} :
    chain make v = .ok e ↔ ∃ s, v = .text s ∧ e = make s := by
  simp only [chain, bind_eq_ok_iff, mapError_eq_ok_iff, text_eq_ok_iff, Except.ok.injEq,
    @eq_comm _ e]

end Payload

/-! ### Messages -/

namespace Message

/-- The payload of an action makes an event, by a reader of set ids. -/
inductive Carries (readId : Payload.IdReader) : Action → Json.Value → Event → Prop
  | vote {k : Vote} {reporter hash voter : String} {x : Json.Value} {h : Nat} :
      Height.ofValue x = .ok h →
      Carries readId (.ofVote k) (.array [.text reporter, x, .text hash, .text voter])
        (.vote k reporter h hash voter)
  | finalized {reporter hash : String} {x : Json.Value} {h : Nat} :
      Height.ofValue x = .ok h →
      Carries readId .afgFinalized (.array [.text reporter, x, .text hash]) (.finalized reporter h hash)
  | authoritySet {id : Json.Value} {n : Int} {members : List Address} {rest : List Json.Value} :
      readId id = .ok n →
      Carries readId .afgAuthoritySet (.array (id :: .array (members.map .text) :: rest))
        (.authoritySet n members)
  | bestBlock {x : Json.Value} {h : Nat} {rest : List Json.Value} :
      Height.ofValue x = .ok h → Carries readId .bestBlock (.array (x :: rest)) (.bestBlock h)
  | subscribed {chain : String} : Carries readId .subscribedTo (.text chain) (.subscribed chain)
  | chainRemoved {chain : String} : Carries readId .removedChain (.text chain) (.chainRemoved chain)
  | ignored {a : Action} {payload : Json.Value} :
      a ∉ Action.consumed → Carries readId a payload (.ignored a payload)

/-- The code of some action. -/
def IsCode (code : Json.Value) : Prop := ∃ a : Action, code = .int a.code

/-- A message says an event: its code is that of an action, and its payload makes the event. -/
def Says (readId : Payload.IdReader) (code payload : Json.Value) (e : Event) : Prop :=
  ∃ a : Action, code = .int a.code ∧ Carries readId a payload e

variable {readId : Payload.IdReader} {code payload : Json.Value} {a : Action} {e : Event}
  {index : Int} {refusal : Refusal}

theorem action?_eq_some_iff : action? code = some a ↔ code = .int a.code := by
  cases code with
  | int n => simp [action?, Action.ofCode?_eq_some_iff]
  | _ => simp [action?]

theorem action?_eq_none_iff : action? code = none ↔ ¬IsCode code := by
  simp [IsCode, ← action?_eq_some_iff, Option.eq_none_iff_forall_ne_some]

theorem event_of_not_consumed (ha : a ∉ Action.consumed) :
    event readId a payload = .ok (.ignored a payload) := by
  cases a <;> first | rfl | exact absurd (by decide) ha

/-- The payloads that are understood are those of the grammar. -/
theorem event_eq_ok_iff : event readId a payload = .ok e ↔ Carries readId a payload e := by
  constructor
  · intro h
    cases a with
    | afgReceivedPrevote =>
        obtain ⟨_, _, _, _, _, rfl, hx, rfl⟩ :=
          Payload.vote_eq_ok_iff.mp (mapError_eq_ok_iff.mp h)
        exact .vote (k := .prevote) hx
    | afgReceivedPrecommit =>
        obtain ⟨_, _, _, _, _, rfl, hx, rfl⟩ :=
          Payload.vote_eq_ok_iff.mp (mapError_eq_ok_iff.mp h)
        exact .vote (k := .precommit) hx
    | afgFinalized =>
        obtain ⟨_, _, _, _, rfl, hx, rfl⟩ :=
          Payload.finalized_eq_ok_iff.mp (mapError_eq_ok_iff.mp h)
        exact .finalized hx
    | afgAuthoritySet =>
        match payload, h with
        | .array (_ :: _ :: _), h =>
            obtain ⟨_, _, hid, rfl, rfl⟩ :=
              Payload.authoritySet_eq_ok_iff.mp (mapError_eq_ok_iff.mp h)
            exact .authoritySet hid
    | bestBlock =>
        match payload, h with
        | .array (_ :: _), h =>
            obtain ⟨_, hx, rfl⟩ := Payload.bestBlock_eq_ok_iff.mp (mapError_eq_ok_iff.mp h)
            exact .bestBlock hx
    | subscribedTo =>
        obtain ⟨_, rfl, rfl⟩ := Payload.chain_eq_ok_iff.mp (mapError_eq_ok_iff.mp h)
        exact .subscribed
    | removedChain =>
        obtain ⟨_, rfl, rfl⟩ := Payload.chain_eq_ok_iff.mp (mapError_eq_ok_iff.mp h)
        exact .chainRemoved
    | _ =>
        cases h
        exact .ignored (by decide)
  · intro h
    cases h with
    | @vote k _ _ _ _ _ hx =>
        cases k <;>
          exact mapError_eq_ok_iff.mpr
            (Payload.vote_eq_ok_iff.mpr ⟨_, _, _, _, _, rfl, hx, rfl⟩)
    | finalized hx =>
        exact mapError_eq_ok_iff.mpr (Payload.finalized_eq_ok_iff.mpr ⟨_, _, _, _, rfl, hx, rfl⟩)
    | authoritySet hid =>
        exact mapError_eq_ok_iff.mpr (Payload.authoritySet_eq_ok_iff.mpr ⟨_, _, hid, rfl, rfl⟩)
    | bestBlock hx =>
        exact mapError_eq_ok_iff.mpr (Payload.bestBlock_eq_ok_iff.mpr ⟨_, hx, rfl⟩)
    | subscribed => rfl
    | chainRemoved => rfl
    | ignored ha => exact event_of_not_consumed ha

theorem decodeWith_eq_ok_iff :
    decodeWith readId code payload index = .ok e ↔ Says readId code payload e := by
  unfold decodeWith
  cases haction : action? code with
  | none =>
      refine iff_of_false (by simp) ?_
      rintro ⟨a, hcode, -⟩
      exact action?_eq_none_iff.mp haction ⟨a, hcode⟩
  | some a =>
      obtain rfl := action?_eq_some_iff.mp haction
      simp only [mapError_eq_ok_iff, event_eq_ok_iff]
      constructor
      · intro h
        exact ⟨a, rfl, h⟩
      · rintro ⟨b, hcode, h⟩
        rw [action?_eq_some_iff.mpr hcode] at haction
        cases haction
        exact h

theorem fault_of_event_error {cause : Cause} (h : event readId a payload = .error cause)
    (index : Int) : Refusal.fault ⟨cause, index⟩ = .decode cause.detail (some index) := by
  cases cause with
  | tooFew action least => rfl
  | payload action objection => rfl
  | unknownAction code =>
      revert h
      fun_cases event readId a payload <;> simp [mapError_eq_error_iff]

/-- The fault of a message names the code if no action has it, and the number of the message. -/
theorem fault_eq (h : decodeWith readId code payload index = .error refusal) :
    ¬IsCode code ∧ refusal.fault = .unknownAction code (some index) ∨
      IsCode code ∧ ∃ detail, refusal.fault = .decode detail (some index) := by
  unfold decodeWith at h
  cases haction : action? code with
  | none =>
      rw [haction] at h
      cases h
      exact .inl ⟨action?_eq_none_iff.mp haction, rfl⟩
  | some a =>
      rw [haction] at h
      obtain ⟨cause, hcause, rfl⟩ := mapError_eq_error_iff.mp h
      exact .inr ⟨⟨a, action?_eq_some_iff.mp haction⟩, _, fault_of_event_error hcause index⟩

/-! ### Messages on their own -/

/-- What the fault of a message names can be written: its number, and the code if no action has it. -/
def Showable (code : Json.Value) (index : Int) : Prop :=
  Short index.natAbs ∧ (IsCode code ∨ code.writable = true)

theorem writable_fault_iff (h : decodeWith readId code payload index = .error refusal) :
    refusal.fault.writable = true ↔ Showable code index := by
  obtain ⟨hcode, hfault⟩ | ⟨hcode, detail, hfault⟩ := fault_eq h
  · rw [hfault, Showable, or_iff_right hcode, and_comm]
    simp [Fault.writable]
  · rw [hfault, Showable, and_iff_left (Or.inl hcode)]
    simp [Fault.writable]

/-- **Receiving accepts the grammar and nothing else.**  A message makes an event exactly if it says
the event.  Every other message is refused under its number: for its code, if no action has it, and
for its payload otherwise; unless the number, or a code that no action has, has too many digits to be
written, in which case the refusal is none of the feed's. -/
theorem receive_grammar (readId : Payload.IdReader) (code payload : Json.Value) (index : Int) :
    (∀ e, receive readId code payload index = .ok e ↔ Says readId code payload e) ∧
      ((∃ e, Says readId code payload e) ∨
        ¬Showable code index ∧ receive readId code payload index = .error .unwritable ∨
        Showable code index ∧ ∃ fault,
          receive readId code payload index = .error (.fault fault) ∧
            (¬IsCode code ∧ fault = .unknownAction code (some index) ∨
              IsCode code ∧ ∃ detail, fault = .decode detail (some index))) := by
  refine ⟨fun e => mapError_eq_ok_iff.trans decodeWith_eq_ok_iff, ?_⟩
  cases hdecode : decodeWith readId code payload index with
  | ok e => exact .inl ⟨e, decodeWith_eq_ok_iff.mp hdecode⟩
  | error refusal =>
      have hreceive : receive readId code payload index = .error refusal.fault.raised := by
        rw [receive, hdecode]
        rfl
      refine .inr ?_
      rw [hreceive, Fault.raised]
      by_cases hshow : Showable code index
      · rw [if_pos ((writable_fault_iff hdecode).mpr hshow)]
        exact .inr ⟨hshow, _, rfl, fault_eq hdecode⟩
      · rw [if_neg (mt (writable_fault_iff hdecode).mp hshow)]
        exact .inl ⟨hshow, rfl⟩

/-- A number of too many digits is the code of no action, but it is not refused as an unknown one. -/
theorem not_receive_unknownAction_overlong :
    let code := Json.Value.int (10 ^ maxDigits : Nat)
    ¬IsCode code ∧ receive Payload.setId code .null 0 = .error .unwritable := by
  intro code
  have hcode : ¬IsCode code := by
    rintro ⟨a, h⟩
    have heq : 10 ^ maxDigits = a.code := Int.ofNat_inj.mp (Json.Value.int.inj h)
    exact Text.Numeral.not_short_pow (heq ▸ a.short_code)
  have hshow : ¬Showable code 0 := by
    rintro ⟨-, h | h⟩
    · exact hcode h
    · rw [Json.Value.writable_int, Int.natAbs_natCast, decide_eq_true_eq] at h
      exact Text.Numeral.not_short_pow h
  have hdecode : decodeWith Payload.setId code .null 0 = .error ⟨.unknownAction code, 0⟩ := by
    rw [decodeWith, action?_eq_none_iff.mpr hcode]
  refine ⟨hcode, ?_⟩
  rw [receive, hdecode, Except.mapError, Fault.raised,
    if_neg (mt (writable_fault_iff hdecode).mp hshow)]

/-- A truth value is a number of an authority set, but it is no action code. -/
example : decode (.int 19) (.array [.bool true, .array []]) 0 = .ok (.authoritySet 1 []) ∧
    decode (.bool true) (.array [.int 1]) 0 = .error ⟨.unknownAction (.bool true), 0⟩ :=
  ⟨rfl, rfl⟩

end Message

end Finality.Feed
