import Finality.Feed.Frame
import Finality.Proofs.Except

/-! # Sources of frames

A frame arrives as a text or as octets.  `Frame.Source` is either, `Source.events` what the feed
makes of it: the value of the frame (`Source.value`), and the events of the value.  There is one
event for each pair of neighbours in the array of the frame (`array_of_ofJson`). -/

namespace Finality.Feed.Frame

/-- What a frame comes as. -/
inductive Source where
  | text (cs : List Char)
  | octets (bs : List UInt8)
deriving DecidableEq, Repr

namespace Source

/-- The text of a frame. -/
def text? : Source → Except Encoding.Fault (List Char)
  | text cs => .ok cs
  | octets bs => Encoding.decode bs

/-- The JSON value of a frame. -/
def value : Source → Except Failure Json.Value
  | text cs => (Json.Value.ofText cs).mapError .ofJson
  | octets bs => do
    let cs ← (Encoding.decode bs).mapError .encoding
    (Json.Reader.document cs).mapError .ofJson

/-- The events of a frame. -/
def events : Source → Except Failure (List Event)
  | text cs => ofText cs
  | octets bs => ofBytes bs

theorem events_eq (frame : Source) : frame.events = frame.value >>= ofJson := by
  cases frame with
  | text cs =>
      simp only [events, value, ofText]
      cases Json.Value.ofText cs <;> rfl
  | octets bs =>
      simp only [events, value, ofBytes]
      cases hdecode : Encoding.decode bs with
      | error fault => rfl
      | ok cs =>
          simp only [Except.mapError, bind, Except.bind]
          cases Json.Reader.document cs <;> rfl

theorem value_ne_message (frame : Source) (refusal : Message.Refusal) :
    frame.value ≠ .error (.message refusal) := by
  have hjson (fault : Json.Fault) : Failure.ofJson fault ≠ .message refusal := by
    unfold Failure.ofJson
    split <;> simp
  intro h
  cases frame with
  | text cs =>
      obtain ⟨fault, -, hfault⟩ := Except.mapError_eq_error_iff.mp h
      exact hjson fault hfault
  | octets bs =>
      obtain h | ⟨cs, -, h⟩ := Except.bind_eq_error_iff.mp h
      · obtain ⟨fault, -, hfault⟩ := Except.mapError_eq_error_iff.mp h
        cases hfault
      · obtain ⟨fault, -, hfault⟩ := Except.mapError_eq_error_iff.mp h
        exact hjson fault hfault

end Source

/-! ### As many events as messages -/

theorem length_pairs? {items : List Json.Value} {messages : List (Json.Value × Json.Value)}
    (h : pairs? items = some messages) : items.length = 2 * messages.length := by
  fun_induction pairs? items generalizing messages with
  | case1 => cases h; rfl
  | case2 => cases h
  | case3 a b rest ih =>
      obtain ⟨tail, htail, rfl⟩ := Option.map_eq_some_iff.mp h
      simp only [List.length_cons, ih htail]
      omega

theorem length_events {index : Nat} {messages : List (Json.Value × Json.Value)} {es : List Event}
    (h : events index messages = .ok es) : es.length = messages.length := by
  induction messages generalizing index es with
  | nil => cases h; rfl
  | cons message rest ih =>
      obtain ⟨code, payload⟩ := message
      simp only [events] at h
      cases hfirst : Message.decode code payload index with
      | error refusal => rw [hfirst] at h; cases h
      | ok e =>
          rw [hfirst] at h
          cases hrest : events (index + 1) rest with
          | error refusal => rw [hrest] at h; cases h
          | ok more =>
              rw [hrest] at h
              cases h
              rw [List.length_cons, List.length_cons, ih hrest]

theorem array_of_ofJson {v : Json.Value} {es : List Event} (h : ofJson v = .ok es) :
    ∃ items, v = .array items ∧ items.length = 2 * es.length := by
  unfold ofJson at h
  split at h
  · cases h
  · rename_i messages hmessages
    have hes : events 0 messages = .ok es := Except.mapError_eq_ok_iff.mp h
    cases v with
    | array items =>
        simp only [messages?] at hmessages
        split at hmessages
        · cases hmessages
        · exact ⟨items, rfl, by rw [length_pairs? hmessages, length_events hes]⟩
    | _ => cases hmessages

theorem Source.exists_array_of_events {frame : Source} {es : List Event}
    (h : frame.events = .ok es) :
    ∃ items, frame.value = .ok (.array items) ∧ items.length = 2 * es.length := by
  rw [Source.events_eq] at h
  obtain ⟨v, hvalue, h⟩ := Except.bind_eq_ok_iff.mp h
  obtain ⟨items, rfl, hitems⟩ := array_of_ofJson h
  exact ⟨items, hvalue, hitems⟩

end Finality.Feed.Frame
