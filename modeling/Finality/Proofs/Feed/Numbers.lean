import Finality.Feed.Dispatcher
import Finality.Proofs.Feed.Boundary
import Finality.Proofs.Feed.Grammar
import Finality.Proofs.Height
import Finality.Proofs.Json.Moderate
import Finality.Proofs.Tracker.Table

/-! # The numbers of a feed

The numbers in a frame were read, so they have not too many digits (`Source.moderate_value`).  Hence
the heights and set ids of its events can be written, whichever way they are spelled
(`Source.moderate_events`), and so can what a refused message is blamed on
(`Source.raised_eq_fault`).

A tracker that is fed with such events holds no other heights and set ids than theirs, so that there
is always a table of what it knows (`Feed.Dispatcher.writable_dispatchAll`). -/

namespace Finality

open Except (bind_eq_ok_iff mapError_eq_error_iff mapError_eq_ok_iff)
open Json (Moderate)
open Text.Numeral (Short)

/-! ### Heights and set ids -/

namespace Height

theorem Spells.short {v : Json.Value} {n : Int} (hspells : Spells v n) (hv : Moderate v) :
    Short n.natAbs := by
  cases hspells with
  | int =>
      cases hv with
      | int hn => exact hn
  | float hx =>
      cases hv with
      | float hshort => exact hshort n (Decimal.Binary64.toInt?_eq_some_iff.mpr hx)
  | text hs => exact hs.short

theorem short_of_ofValue {v : Json.Value} {h : Nat} (hv : Moderate v) (hread : ofValue v = .ok h) :
    Short h := (ofValue_eq_ok_iff.mp hread).short hv

end Height

/-! ### Calls -/

/-- The height or the set id of a call has not too many digits. -/
def Call.Moderate : Call → Prop
  | .vote _ _ height _ _ => Short height
  | .finalized _ height _ => Short height
  | .authoritySet setId _ => Short setId.natAbs
  | .bestBlock height => Short height
  | .reset => True

theorem Call.Moderate.height {c : Call} {s : Sighting} (hc : c.Moderate)
    (hs : Sighting.ofCall? c = some s) : Short s.height := by
  cases c <;> cases hs <;> exact hc

/-- What can be written after a call is what could be written before it, and the numbers of the
call. -/
theorem Snapshot.Writable.apply {t : Tracker} {c : Call} (ht : t.snapshot.Writable)
    (hc : c.Moderate) (cfg : Config) : (t.apply cfg c).snapshot.Writable where
  heights h hh := by
    obtain hh | ⟨s, hs, -, rfl⟩ := Tracker.mem_heights_of_mem_apply hh
    · exact ht.heights h hh
    · exact hc.height hs
  setId := by
    generalize ht' : t.apply cfg c = t'
    have hmoves : Tracker.Moves cfg t c t' := ht' ▸ Tracker.moves_apply cfg t c
    cases hmoves with
    | setChanged =>
        rintro id ⟨⟩
        exact hc
    | forgot => nofun
    | _ => exact ht.setId

namespace Feed

namespace SetId

variable {cs : List Char} {n : Int}

theorem isAsciiDigit_of_isLeading {c : Char} (hc : isLeading c = true) :
    Text.isAsciiDigit c = true := by
  simp only [isLeading, Bool.and_eq_true, decide_eq_true_eq] at hc
  simp only [Text.isAsciiDigit, Bool.and_eq_true, decide_eq_true_eq]
  exact ⟨Char.le_trans (show '0' ≤ '1' by decide) hc.1, hc.2⟩

theorem short_of_plain? (h : plain? cs = some n) : Short n.natAbs := by
  unfold plain? at h
  split at h
  rename_i negative body hbody
  have hle : body.length ≤ cs.length := by
    split at hbody <;> cases hbody <;> simp
  simp only [Option.ite_none_right_eq_some, Bool.and_eq_true, decide_eq_true_eq,
    Option.some.injEq] at h
  obtain ⟨⟨hform, hlength⟩, rfl⟩ := h
  rw [Text.Numeral.natAbs_signed]
  refine Text.Numeral.short_digitsValue ?_ (hle.trans hlength)
  split at hform
  · cases hform
  · simp [Text.isAsciiDigit]
  · simp only [Bool.and_eq_true, List.all_eq_true] at hform
    exact List.forall_mem_cons.mpr ⟨isAsciiDigit_of_isLeading hform.1, hform.2⟩

theorem short_of_ofValue {v : Json.Value} (hv : Moderate v) (h : ofValue v = .ok n) :
    Short n.natAbs := by
  cases hv with
  | int hn =>
      cases h
      exact hn
  | bool b =>
      cases h
      cases b <;> decide
  | @float x hshort =>
      simp only [ofValue, ofFloat] at h
      split at h
      · rename_i m hm
        split at h
        · cases h
          exact hshort _ hm
        · cases h
      · cases h
      · cases h
  | text s =>
      simp only [ofValue, ofText] at h
      split at h
      · cases h
      · split at h
        · rename_i m hm
          cases h
          obtain ⟨core, -, hplain⟩ := Option.bind_eq_some_iff.mp hm
          exact short_of_plain? hplain
        · cases h
  | _ => cases h

end SetId

/-! ### Events -/

/-- The height or the set id of an event has not too many digits. -/
def Event.Moderate (e : Event) : Prop := ∀ c ∈ e.call?, c.Moderate

namespace Message

variable {a : Action} {code payload : Json.Value} {index : Int} {e : Event} {refusal : Refusal}

theorem Carries.moderate (h : Carries Payload.setId a payload e) (hpayload : Moderate payload) :
    e.Moderate := by
  have hitem : ∀ {items x}, payload = .array items → x ∈ items → Moderate x := by
    rintro items x rfl hx
    cases hpayload with
    | array hitems => exact hitems x hx
  rintro c hc
  cases h with
  | vote hx =>
      cases hc
      exact Height.short_of_ofValue (hitem rfl (by simp)) hx
  | finalized hx =>
      cases hc
      exact Height.short_of_ofValue (hitem rfl (by simp)) hx
  | authoritySet hid =>
      cases hc
      exact SetId.short_of_ofValue (hitem rfl List.mem_cons_self) (mapError_eq_ok_iff.mp hid)
  | bestBlock hx =>
      cases hc
      exact Height.short_of_ofValue (hitem rfl List.mem_cons_self) hx
  | _ => cases hc

theorem moderate_of_decode (h : decode code payload index = .ok e) (hpayload : Moderate payload) :
    e.Moderate := by
  obtain ⟨a, -, hcarries⟩ := decodeWith_eq_ok_iff.mp h
  exact hcarries.moderate hpayload

theorem raised_eq_fault (h : decode code payload index = .error refusal)
    (hcode : Moderate code) (hindex : Short index.natAbs) :
    refusal.fault.raised = .fault refusal.fault :=
  if_pos ((writable_fault_iff h).mpr ⟨hindex, .inr hcode.writable⟩)

end Message

/-! ### Frames -/

namespace Frame

variable {items : List Json.Value} {ms : List (Json.Value × Json.Value)} {index : Nat}
  {es : List Event} {frame : Source} {v : Json.Value} {refusal : Message.Refusal}

theorem mem_of_pairs? (h : pairs? items = some ms) :
    ∀ m ∈ ms, m.1 ∈ items ∧ m.2 ∈ items := by
  fun_induction pairs? items generalizing ms with
  | case1 => cases h; simp
  | case2 => cases h
  | case3 a b rest ih =>
      obtain ⟨tail, htail, rfl⟩ := Option.map_eq_some_iff.mp h
      have ih := ih htail
      refine List.forall_mem_cons.mpr ⟨by simp, fun m hm => ?_⟩
      exact ⟨.tail _ (.tail _ (ih m hm).1), .tail _ (.tail _ (ih m hm).2)⟩

theorem moderate_of_messages? (h : messages? v = some ms) (hv : Moderate v) :
    ∀ m ∈ ms, Moderate m.1 ∧ Moderate m.2 := by
  cases hv with
  | array hitems =>
      simp only [messages?] at h
      split at h
      · cases h
      · exact fun m hm => (mem_of_pairs? h m hm).imp (hitems _) (hitems _)
  | _ => cases h

theorem moderate_of_events (hms : ∀ m ∈ ms, Moderate m.2) (h : events index ms = .ok es) :
    ∀ e ∈ es, e.Moderate := by
  induction ms generalizing index es with
  | nil => cases h; nofun
  | cons m ms ih =>
      obtain ⟨hm, hms⟩ := List.forall_mem_cons.mp hms
      simp only [events, bind_eq_ok_iff] at h
      obtain ⟨e, hfirst, rest, hrest, h⟩ := h
      cases h
      exact List.forall_mem_cons.mpr ⟨Message.moderate_of_decode hfirst hm, ih hms hrest⟩

theorem raised_of_events (hms : ∀ m ∈ ms, Moderate m.1) (h : events index ms = .error refusal)
    (hindex : Short refusal.index.natAbs) : refusal.fault.raised = .fault refusal.fault := by
  obtain ⟨before, code, payload, after, es, rfl, -, hbad⟩ := events_eq_error_iff.mp h
  rw [index_of_decode hbad] at hindex
  exact Message.raised_eq_fault hbad (hms (code, payload) (by simp)) hindex

namespace Source

theorem moderate_value (h : frame.value = .ok v) : Moderate v := by
  cases frame with
  | text cs => exact Json.Value.moderate_of_ofText (mapError_eq_ok_iff.mp h)
  | octets bs =>
      obtain ⟨cs, -, h⟩ := bind_eq_ok_iff.mp h
      exact Json.Reader.moderate_of_document (mapError_eq_ok_iff.mp h)

/-- **The numbers of the events of a frame have not too many digits.** -/
theorem moderate_events (h : frame.events = .ok es) : ∀ e ∈ es, e.Moderate := by
  rw [events_eq] at h
  obtain ⟨v, hvalue, h⟩ := bind_eq_ok_iff.mp h
  unfold ofJson at h
  split at h
  · cases h
  · rename_i ms hms
    have hms := moderate_of_messages? hms (moderate_value hvalue)
    exact moderate_of_events (fun m hm => (hms m hm).2) (mapError_eq_ok_iff.mp h)

/-- **What a message of a frame is refused for can be written** if its number can. -/
theorem raised_eq_fault (h : frame.events = .error (.message refusal))
    (hindex : Short refusal.index.natAbs) : refusal.fault.raised = .fault refusal.fault := by
  rw [events_eq] at h
  obtain h | ⟨v, hvalue, h⟩ := Except.bind_eq_error_iff.mp h
  · exact absurd h (value_ne_message frame refusal)
  unfold ofJson at h
  split at h
  · cases h
  · rename_i ms hms
    have hms := moderate_of_messages? hms (moderate_value hvalue)
    obtain ⟨refusal', hrefusal, heq⟩ := mapError_eq_error_iff.mp h
    cases heq
    exact raised_of_events (fun m hm => (hms m hm).1) hrefusal hindex

end Source

end Frame

/-! ### What a tracker holds -/

namespace Dispatcher

variable {d : Dispatcher} {e : Event} {es : List Event}

theorem writable_call {c : Call} (hd : d.tracker.snapshot.Writable) (hc : c.Moderate)
    (cfg : Config) : (d.call cfg c).1.tracker.snapshot.Writable := by
  rw [tracker_call]
  exact hd.apply hc cfg

theorem writable_dispatch (hd : d.tracker.snapshot.Writable) (he : e.Moderate) (cfg : Config) :
    (d.dispatch cfg e).1.tracker.snapshot.Writable := by
  have hreset : (d.call cfg .reset).1.tracker.snapshot.Writable :=
    writable_call (c := .reset) hd trivial cfg
  cases e with
  | vote v r h hash w => exact writable_call hd (he _ rfl) cfg
  | finalized r h hash => exact writable_call hd (he _ rfl) cfg
  | authoritySet id members => exact writable_call hd (he _ rfl) cfg
  | bestBlock h => exact writable_call hd (he _ rfl) cfg
  | ignored action payload => exact hd
  | subscribed chain =>
      simp only [dispatch]
      split
      · exact hreset
      · exact hd
  | chainRemoved chain =>
      simp only [dispatch]
      split
      · exact hreset
      · exact hd

/-- **There is a table of what moderate events lead to.** -/
theorem writable_dispatchAll (hd : d.tracker.snapshot.Writable) (hes : ∀ e ∈ es, e.Moderate)
    (cfg : Config) : (d.dispatchAll cfg es).1.tracker.snapshot.Writable := by
  induction es generalizing d with
  | nil => exact hd
  | cons e es ih =>
      obtain ⟨he, hes⟩ := List.forall_mem_cons.mp hes
      exact ih (writable_dispatch hd he cfg) hes

end Dispatcher

end Feed

end Finality
