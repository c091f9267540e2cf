import Finality.Proofs.Feed.Transaction
import Finality.Proofs.Json.Spelling

/-! # Boundaries of frames

Messages are decoded one by one, each under its number, and the number has no part in what a message
says: a refusal only carries it (`Message.decode_later`).  So messages can be decoded in two goes, if
the second one goes on counting (`events_append`), and a list of messages is refused exactly for the
first of them that is (`events_eq_error_iff`).

The array of a frame is the list of its messages, action code and payload in turns
(`pairs?_eq_some_iff`).  A frame whose array is that of two others put together therefore says what
they say one after the other, and is refused for what the first of them is refused for, under a number
that counts all messages (`Frame.Source.events_of_joins`). -/

namespace Finality.Feed

open Except (bind_eq_error_iff bind_eq_ok_iff mapError_eq_error_iff mapError_eq_ok_iff)

/-! ### Messages under their numbers -/

namespace Message

/-- The refusal of the same message some places further back. -/
def Refusal.later (n : Nat) (r : Refusal) : Refusal := { r with index := r.index + n }

/-- The number of a message has no part in what is wrong with it. -/
theorem Refusal.fault_later (n : Nat) (r : Refusal) :
    (r.later n).fault.kind = r.fault.kind ∧ (r.later n).fault.detail = r.fault.detail := by
  obtain ⟨cause, index⟩ := r
  cases cause <;> exact ⟨rfl, rfl⟩

theorem decode_later (code payload : Json.Value) (index n : Nat) :
    decode code payload (index + n : Nat) = (decode code payload index).mapError (.later n) := by
  unfold decode decodeWith
  cases action? code with
  | none => rfl
  | some a =>
      show (event _ a payload).mapError _ = ((event _ a payload).mapError _).mapError _
      cases event Payload.setId a payload <;> rfl

end Message

namespace Frame

variable {index n : Nat} {ms more : List (Json.Value × Json.Value)} {es : List Event}
  {items xs ys : List Json.Value} {frame : Source} {refusal : Message.Refusal}

theorem events_later (index n : Nat) (ms : List (Json.Value × Json.Value)) :
    events (index + n) ms = (events index ms).mapError (.later n) := by
  induction ms generalizing index with
  | nil => rfl
  | cons m ms ih =>
      have hnext : index + n + 1 = index + 1 + n := by omega
      rw [events, events, hnext, Message.decode_later, ih]
      cases Message.decode m.1 m.2 index with
      | error refusal => rfl
      | ok e => cases events (index + 1) ms <;> rfl

theorem events_append (index : Nat) (ms more : List (Json.Value × Json.Value)) :
    events index (ms ++ more) = (do
      let es ← events index ms
      let rest ← events (index + ms.length) more
      .ok (es ++ rest)) := by
  induction ms generalizing index with
  | nil =>
      show events index more = events index more >>= fun rest => .ok rest
      cases events index more <;> rfl
  | cons m ms ih =>
      have hnext : index + 1 + ms.length = index + (m :: ms).length := by
        rw [List.length_cons]
        omega
      rw [List.cons_append, events, events, ih, hnext]
      cases Message.decode m.1 m.2 index with
      | error refusal => rfl
      | ok e =>
          cases events (index + 1) ms with
          | error refusal => rfl
          | ok es => cases events (index + (m :: ms).length) more <;> rfl

/-- Messages are refused for the first of them that is refused on its own. -/
theorem events_eq_error_iff :
    events index ms = .error refusal ↔ ∃ before code payload after es,
      ms = before ++ (code, payload) :: after ∧ events index before = .ok es ∧
        Message.decode code payload (index + before.length : Nat) = .error refusal := by
  constructor
  · intro h
    induction ms generalizing index with
    | nil => cases h
    | cons m ms ih =>
        rw [events, bind_eq_error_iff] at h
        obtain hfirst | ⟨e, hfirst, h⟩ := h
        · exact ⟨[], m.1, m.2, ms, [], rfl, rfl, hfirst⟩
        · rw [bind_eq_error_iff] at h
          obtain hrest | ⟨es, -, h⟩ := h
          · obtain ⟨before, code, payload, after, es, rfl, hbefore, hbad⟩ := ih hrest
            refine ⟨m :: before, code, payload, after, e :: es, rfl, ?_, ?_⟩
            · rw [events, hfirst, hbefore]
              rfl
            · rw [← hbad, List.length_cons]
              congr 2
              omega
          · cases h
  · rintro ⟨before, code, payload, after, es, rfl, hbefore, hbad⟩
    rw [events_append, hbefore]
    show (events (index + before.length) ((code, payload) :: after) >>= _) = _
    rw [events, hbad]
    rfl

theorem exists_events_iff :
    (∃ es, events index ms = .ok es) ↔
      ∀ k m, ms[k]? = some m → ∃ e, Message.decode m.1 m.2 (index + k : Nat) = .ok e := by
  induction ms generalizing index with
  | nil => simp [events]
  | cons m ms ih =>
      constructor
      · rintro ⟨es, h⟩ k m' hk
        simp only [events, bind_eq_ok_iff] at h
        obtain ⟨e, hfirst, rest, hrest, -⟩ := h
        cases k with
        | zero =>
            cases hk
            exact ⟨e, hfirst⟩
        | succ k =>
            obtain ⟨e', he'⟩ := ih.mp ⟨rest, hrest⟩ k m' hk
            refine ⟨e', ?_⟩
            rwa [show index + (k + 1) = index + 1 + k by omega]
      · intro h
        obtain ⟨e, hfirst⟩ := h 0 m rfl
        have hothers : ∃ es, events (index + 1) ms = .ok es := by
          refine ih.mpr fun k m' hk => ?_
          obtain ⟨e', he'⟩ := h (k + 1) m' hk
          refine ⟨e', ?_⟩
          rwa [show index + 1 + k = index + (k + 1) by omega]
        obtain ⟨es, hes⟩ := hothers
        refine ⟨e :: es, ?_⟩
        simp only [events, bind_eq_ok_iff]
        exact ⟨e, hfirst, es, hes, rfl⟩

/-! ### Arrays of messages -/

/-- The array of messages. -/
def flat (ms : List (Json.Value × Json.Value)) : List Json.Value :=
  ms.flatMap fun m => [m.1, m.2]

theorem flat_append (ms more : List (Json.Value × Json.Value)) :
    flat (ms ++ more) = flat ms ++ flat more :=
  List.flatMap_append

theorem pairs?_eq_some_iff : pairs? items = some ms ↔ items = flat ms := by
  fun_induction pairs? items generalizing ms with
  | case1 => cases ms <;> simp [flat]
  | case2 v => cases ms <;> simp [flat]
  | case3 a b rest ih =>
      cases ms with
      | nil => simp [flat]
      | cons m ms =>
          obtain ⟨code, payload⟩ := m
          have hflat : flat ((code, payload) :: ms) = code :: payload :: flat ms := rfl
          simp only [Option.map_eq_some_iff, ih, hflat, List.cons.injEq, Prod.mk.injEq]
          constructor
          · rintro ⟨_, hrest, ⟨rfl, rfl⟩, rfl⟩
            exact ⟨rfl, rfl, hrest⟩
          · rintro ⟨rfl, rfl, hrest⟩
            exact ⟨ms, hrest, ⟨rfl, rfl⟩, rfl⟩

theorem length_flat (ms : List (Json.Value × Json.Value)) : (flat ms).length = 2 * ms.length :=
  length_pairs? (pairs?_eq_some_iff.mpr rfl)

theorem exists_flat (h : items.length % 2 = 0) : ∃ ms, items = flat ms := by
  fun_induction pairs? items with
  | case1 => exact ⟨[], rfl⟩
  | case2 => simp at h
  | case3 a b rest ih =>
      have hrest : rest.length % 2 = 0 := by
        simp only [List.length_cons] at h
        omega
      obtain ⟨ms, rfl⟩ := ih hrest
      exact ⟨(a, b) :: ms, rfl⟩

theorem getElem?_flat (ms : List (Json.Value × Json.Value)) (k : Nat) :
    (flat ms)[2 * k]? = ms[k]?.map Prod.fst ∧ (flat ms)[2 * k + 1]? = ms[k]?.map Prod.snd := by
  induction ms generalizing k with
  | nil => exact ⟨rfl, rfl⟩
  | cons m ms ih =>
      cases k with
      | zero => exact ⟨rfl, rfl⟩
      | succ k =>
          rw [show 2 * (k + 1) = 2 * k + 1 + 1 by omega]
          exact ih k

theorem messages?_eq_some_iff {v : Json.Value} :
    messages? v = some ms ↔ ms ≠ [] ∧ v = .array (flat ms) := by
  cases v with
  | array items =>
      simp only [messages?, Json.Value.array.injEq]
      cases items with
      | nil => cases ms <;> simp [flat]
      | cons a rest =>
          simp only [List.isEmpty_cons, Bool.false_eq_true, if_false, pairs?_eq_some_iff]
          constructor
          · intro h
            refine ⟨?_, h⟩
            rintro rfl
            cases h
          · exact fun h => h.2
  | _ => simp [messages?]

theorem Source.events_of_flat (hvalue : frame.value = .ok (.array (flat ms))) (hne : ms ≠ []) :
    frame.events = (Frame.events 0 ms).mapError .message := by
  rw [Source.events_eq, hvalue]
  show ofJson (.array (flat ms)) = _
  rw [ofJson, messages?_eq_some_iff.mpr ⟨hne, rfl⟩]

theorem Source.exists_flat_of_refused (h : frame.events = .error (.message refusal)) :
    ∃ ms, frame.value = .ok (.array (flat ms)) ∧ Frame.events 0 ms = .error refusal := by
  rw [Source.events_eq, bind_eq_error_iff] at h
  obtain h | ⟨v, hvalue, h⟩ := h
  · exact absurd h (frame.value_ne_message refusal)
  · unfold ofJson at h
    split at h
    · cases h
    · rename_i ms hms
      obtain ⟨-, rfl⟩ := messages?_eq_some_iff.mp hms
      obtain ⟨_, hrefused, heq⟩ := mapError_eq_error_iff.mp h
      cases heq
      exact ⟨ms, hvalue, hrefused⟩

/-! ### The message that is reported -/

/-- A pair of neighbours in an array, decoded on its own under its number. -/
def PairGives (items : List Json.Value) (k : Nat) (result : Except Message.Refusal Event) : Prop :=
  ∃ code payload, items[2 * k]? = some code ∧ items[2 * k + 1]? = some payload ∧
    Message.decode code payload k = result

theorem pairGives_flat {k : Nat} {result : Except Message.Refusal Event} :
    PairGives (flat ms) k result ↔ ∃ m, ms[k]? = some m ∧ Message.decode m.1 m.2 k = result := by
  simp only [PairGives, getElem?_flat]
  cases ms[k]? <;> simp

theorem index_of_decode {code payload : Json.Value} {index : Int}
    (h : Message.decode code payload index = .error refusal) : refusal.index = index := by
  unfold Message.decode Message.decodeWith at h
  split at h
  · cases h
    rfl
  · obtain ⟨cause, -, rfl⟩ := mapError_eq_error_iff.mp h
    rfl

/-- A frame is refused for a message exactly if every pair in front of it is decoded on its own, and
it is refused on its own. -/
theorem Source.refused_iff :
    frame.events = .error (.message refusal) ↔ ∃ items i, frame.value = .ok (.array items) ∧
      items.length % 2 = 0 ∧ refusal.index = (i : Nat) ∧
      (∀ k < i, ∃ e, PairGives items k (.ok e)) ∧ PairGives items i (.error refusal) := by
  constructor
  · intro h
    obtain ⟨ms, hvalue, hrefused⟩ := Source.exists_flat_of_refused h
    obtain ⟨before, code, payload, after, es, rfl, hbefore, hbad⟩ := events_eq_error_iff.mp hrefused
    have heven : (flat (before ++ (code, payload) :: after)).length % 2 = 0 := by
      rw [length_flat]
      omega
    rw [Nat.zero_add] at hbad
    refine ⟨_, before.length, hvalue, heven, index_of_decode hbad, ?_, ?_⟩
    · intro k hk
      have hmem : (before ++ (code, payload) :: after)[k]? = some before[k] := by
        rw [List.getElem?_append_left hk, List.getElem?_eq_getElem hk]
      obtain ⟨e, he⟩ := exists_events_iff.mp ⟨es, hbefore⟩ k before[k] (List.getElem?_eq_getElem hk)
      rw [Nat.zero_add] at he
      exact ⟨e, pairGives_flat.mpr ⟨before[k], hmem, he⟩⟩
    · refine pairGives_flat.mpr ⟨(code, payload), ?_, hbad⟩
      rw [List.getElem?_append_right (Nat.le_refl _), Nat.sub_self]
      rfl
  · rintro ⟨items, i, hvalue, heven, -, hbefore, hbad⟩
    obtain ⟨ms, rfl⟩ := exists_flat heven
    obtain ⟨m, hm, hrefused⟩ := pairGives_flat.mp hbad
    obtain ⟨hi, rfl⟩ := List.getElem?_eq_some_iff.mp hm
    have hsplit : ms = ms.take i ++ ms[i] :: ms.drop (i + 1) := by simp
    have hlength : (ms.take i).length = i := List.length_take_of_le (Nat.le_of_lt hi)
    have hok : ∃ es, Frame.events 0 (ms.take i) = .ok es := by
      refine exists_events_iff.mpr fun k m hk => ?_
      obtain ⟨hlt, rfl⟩ := List.getElem?_eq_some_iff.mp hk
      obtain ⟨e, he⟩ := hbefore k (by omega)
      obtain ⟨m', hm', he⟩ := pairGives_flat.mp he
      rw [List.getElem?_eq_getElem (by omega)] at hm'
      cases hm'
      rw [Nat.zero_add, List.getElem_take]
      exact ⟨e, he⟩
    obtain ⟨es, hes⟩ := hok
    have hevents : Frame.events 0 ms = .error refusal := by
      refine events_eq_error_iff.mpr ⟨_, ms[i].1, ms[i].2, _, es, hsplit, hes, ?_⟩
      rw [hlength, Nat.zero_add]
      exact hrefused
    have hne : ms ≠ [] := List.ne_nil_of_length_pos (by omega)
    rw [Source.events_of_flat hvalue hne, hevents]
    rfl

/-! ### Two frames as one -/

namespace Source

/-- The array of a frame is that of two others put together, both of which have messages and nothing
else. -/
structure Joins (first second both : Source) (xs ys : List Json.Value) : Prop where
  first_eq : first.value = .ok (.array xs)
  second_eq : second.value = .ok (.array ys)
  both_eq : both.value = .ok (.array (xs ++ ys))
  first_ne : xs ≠ []
  second_ne : ys ≠ []
  first_even : xs.length % 2 = 0
  second_even : ys.length % 2 = 0

variable {first second both : Source}

/-- The second frame goes on where the first one ends. -/
theorem Joins.exists_messages (h : Joins first second both xs ys) :
    ∃ ms more, xs.length / 2 = ms.length ∧
      first.events = (Frame.events 0 ms).mapError .message ∧
      second.events = (Frame.events 0 more).mapError .message ∧
      both.events = (do
        let es ← Frame.events 0 ms
        let rest ← (Frame.events 0 more).mapError (.later ms.length)
        .ok (es ++ rest) : Except _ _).mapError .message := by
  obtain ⟨ms, rfl⟩ := exists_flat h.first_even
  obtain ⟨more, rfl⟩ := exists_flat h.second_even
  have hms : ms ≠ [] := fun hnil => h.first_ne (by rw [hnil]; rfl)
  have hmore : more ≠ [] := fun hnil => h.second_ne (by rw [hnil]; rfl)
  have hboth : both.value = .ok (.array (flat (ms ++ more))) := by
    rw [h.both_eq, flat_append]
  refine ⟨ms, more, ?_, events_of_flat h.first_eq hms, events_of_flat h.second_eq hmore, ?_⟩
  · rw [length_flat]
    omega
  · rw [events_of_flat hboth (List.append_ne_nil_of_left_ne_nil hms _), events_append, events_later]

/-- **Where a frame ends does not matter, and the first bad message is the one reported.**  Take a
frame whose array is that of two others put together.  If both of these are understood, it is
understood as what they say one after the other, and leads a dispatcher where they lead it.  If the
first is not, it fails like the first.  If only the second is not, it fails with the same fault under
a number that counts the messages of the first as well.  And whatever frame is refused for a message,
every message in front of that one is decoded on its own, and that one is refused on its own, under
the same number. -/
theorem events_of_joins (cfg : Config) (d : Dispatcher) :
    (∀ (first second both : Source) xs ys, Joins first second both xs ys →
      match first.events, second.events with
      | .ok es, .ok more =>
          both.events = .ok (es ++ more) ∧ ∃ d₁ d₂ told₁ told₂ told,
            d.dispatchFrame cfg first.events = .ok (d₁, es.length, told₁) ∧
            d₁.dispatchFrame cfg second.events = .ok (d₂, more.length, told₂) ∧
            d.dispatchFrame cfg both.events = .ok (d₂, es.length + more.length, told)
      | .error failure, _ =>
          ∃ refusal, failure = .message refusal ∧ both.events = .error (.message refusal)
      | .ok _, .error failure => ∃ refusal refusal', failure = .message refusal ∧
          both.events = .error (.message refusal') ∧ refusal'.cause = refusal.cause ∧
          refusal'.fault.kind = refusal.fault.kind ∧
          refusal'.fault.detail = refusal.fault.detail ∧
          refusal'.index = refusal.index + (xs.length / 2 : Nat)) ∧
    ∀ (frame : Source) refusal, frame.events = .error (.message refusal) → ∃ items, ∃ i : Nat,
      frame.value = .ok (.array items) ∧ refusal.index = i ∧
      (∀ k < i, ∃ e, PairGives items k (.ok e)) ∧ PairGives items i (.error refusal) := by
  refine ⟨fun first second both xs ys hjoins => ?_, fun frame refusal hrefused => ?_⟩
  · obtain ⟨ms, more, hcount, hfirst, hsecond, hboth⟩ := hjoins.exists_messages
    rw [hfirst, hsecond, hboth]
    cases hms : Frame.events 0 ms with
    | error refusal => exact ⟨refusal, rfl, rfl⟩
    | ok es =>
        cases hmore : Frame.events 0 more with
        | error refusal =>
            obtain ⟨hkind, hdetail⟩ := refusal.fault_later ms.length
            refine ⟨refusal, refusal.later ms.length, rfl, rfl, rfl, hkind, hdetail, ?_⟩
            rw [hcount]
            rfl
        | ok rest =>
            have hall := d.dispatchFrame_ok cfg (es ++ rest)
            rw [Dispatcher.after_append, List.length_append] at hall
            exact ⟨rfl, _, _, _, _, _, d.dispatchFrame_ok cfg es,
              (d.after cfg es).dispatchFrame_ok cfg rest, hall⟩
  · obtain ⟨items, i, hvalue, -, hindex, hbefore, hbad⟩ := refused_iff.mp hrefused
    exact ⟨items, i, hvalue, hindex, hbefore, hbad⟩

theorem value_of_array {cs : List (List Char)} (h : List.Forall₂ Json.Reader.Spells cs items) :
    (text (Json.Spelling.array cs)).value = .ok (.array items) := by
  rw [value, Json.Reader.ofText_array, Json.Reader.spells_array h]
  rfl

/-- The frames `[1, [60]]` and `[1, [61], 99, []]`: the second message of the second one has no known
action, and so has the third message of both together. -/
theorem events_of_joins_unknownAction :
    let best (h : Nat) := [Json.Spelling.int 1, Json.Spelling.array [Json.Spelling.int h]]
    let unknown := [Json.Spelling.int 99, Json.Spelling.array []]
    let first : Source := .text (Json.Spelling.array (best 60))
    let second : Source := .text (Json.Spelling.array (best 61 ++ unknown))
    let both : Source := .text (Json.Spelling.array (best 60 ++ (best 61 ++ unknown)))
    let refusal : Message.Refusal := ⟨.unknownAction (.int 99), 1⟩
    let refusal' : Message.Refusal := ⟨.unknownAction (.int 99), 2⟩
    (∃ xs ys, Joins first second both xs ys) ∧ first.events = .ok [.bestBlock 60] ∧
      second.events = .error (.message refusal) ∧ both.events = .error (.message refusal') ∧
      ∃ items, both.value = .ok (.array items) ∧
        ∀ k < 2, ∃ e, PairGives items k (.ok e) := by
  intro best unknown first second both refusal refusal'
  have hbest (h : Nat) (hh : Text.Numeral.Short h) :
      List.Forall₂ Json.Reader.Spells (best h) [.int 1, .array [.int h]] :=
    .cons (Json.Reader.spells_int (by decide))
      (.cons (Json.Reader.spells_array (.cons (Json.Reader.spells_int hh) .nil)) .nil)
  have hunknown : List.Forall₂ Json.Reader.Spells unknown [.int 99, .array []] :=
    .cons (Json.Reader.spells_int (by decide)) (.cons (Json.Reader.spells_array .nil) .nil)
  have h60 := hbest 60 (by decide)
  have h61 := List.rel_append (hbest 61 (by decide)) hunknown
  have hjoins : Joins first second both _ _ :=
    { first_eq := value_of_array h60
      second_eq := value_of_array h61
      both_eq := value_of_array (List.rel_append h60 h61)
      first_ne := by decide
      second_ne := by decide
      first_even := by decide
      second_even := by decide }
  have hfirst : first.events = .ok [.bestBlock 60] := by
    rw [events_eq, hjoins.first_eq]
    rfl
  have hsecond : second.events = .error (.message refusal) := by
    rw [events_eq, hjoins.second_eq]
    rfl
  obtain ⟨hlaw, hreported⟩ := events_of_joins .standard {}
  have hboth := hlaw first second both _ _ hjoins
  rw [hfirst, hsecond] at hboth
  obtain ⟨_, ⟨_, _⟩, heq, hboth, rfl, -, -, hindex⟩ := hboth
  cases heq
  cases hindex
  obtain ⟨items, i, hvalue, hi, hbefore, -⟩ := hreported both refusal' hboth
  obtain rfl : i = 2 := (Int.ofNat_inj.mp hi).symm
  exact ⟨⟨_, _, hjoins⟩, hfirst, hsecond, hboth, items, hvalue, hbefore⟩

end Source

end Frame
end Finality.Feed
