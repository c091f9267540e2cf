import Finality.Proofs.Feed.Machine
import Finality.Proofs.Feed.Source
import Finality.Proofs.Json.Reading

/-! # A frame is a transaction

`Machine.receive` takes in a frame step by step, on a state that every step may change and that
stays as it is when a later step fails: the frame is decoded, its events are dispatched one after
the other, and they are counted.  The decoding can fail, and so can each event.

But the decoding comes before everything else, and a machine in step with itself takes in every
event.  So a frame that is not understood changes nothing, and any other is applied as a whole
(`Machine.receive_allOrNothing`). -/

namespace Finality.Feed

/-- Why a frame is not taken in. -/
inductive Machine.Mishap where
  /-- The frame is not understood. -/
  | frame (failure : Frame.Failure)
  /-- An event got stuck. -/
  | gap (gap : Indexed.Gap)

/-- The dispatcher after some events, from left to right. -/
def Dispatcher.after (cfg : Config) (d : Dispatcher) (es : List Event) : Dispatcher :=
  es.foldl (fun d e => (d.dispatch cfg e).1) d

theorem Dispatcher.dispatchAll_fst (cfg : Config) (d : Dispatcher) (es : List Event) :
    (d.dispatchAll cfg es).1 = d.after cfg es := by
  induction es generalizing d with
  | nil => rfl
  | cons e es ih =>
      rw [dispatchAll_cons, ih]
      rfl

theorem Dispatcher.after_append (cfg : Config) (d : Dispatcher) (es more : List Event) :
    d.after cfg (es ++ more) = (d.after cfg es).after cfg more := List.foldl_append

theorem Dispatcher.dispatchFrame_ok (cfg : Config) (d : Dispatcher) (es : List Event) :
    d.dispatchFrame cfg (.ok es) =
      .ok (d.after cfg es, es.length, .frameDecoded es.length :: (d.dispatchAll cfg es).2) := by
  rw [← dispatchAll_fst]
  rfl

namespace Machine

open Json.Reader (document_of_readValue readItems readItems_cons readItems_last
  readValue_of_readItems readValue_scalar)

/-- Steps on a machine, of which each can fail and leaves the machine as it is then. -/
abbrev Steps := ExceptT Mishap (StateM Machine)

/-- Decodes a frame. -/
def decode (frame : Frame.Source) : Steps (List Event) :=
  ExceptT.mk (pure (frame.events.mapError .frame))

/-- Takes in an event. -/
def handle (cfg : Config) (e : Event) : Steps PUnit := do
  match (← get).dispatch cfg e with
  | .error gap => throw (.gap gap)
  | .ok k => set k

/-- Takes in a frame; also counts its events. -/
def receive (cfg : Config) (frame : Frame.Source) : Steps Nat := do
  let events ← decode frame
  events.forM (handle cfg)
  return events.length

/-- Result of some steps, and the machine that they leave. -/
def perform {α : Type} (k : Machine) (steps : Steps α) : Except Mishap α × Machine :=
  steps.run.run k

variable {cfg : Config} {k k' : Machine} {d : Dispatcher} {e : Event} {es : List Event}
  {frame : Frame.Source}

theorem perform_bind {α β : Type} {steps : Steps α} {next : α → Steps β} {a : α}
    (h : k.perform steps = (.ok a, k')) : k.perform (steps >>= next) = k'.perform (next a) := by
  simp only [perform, ExceptT.run_bind, StateT.run_bind] at h ⊢
  rw [h]
  rfl

theorem perform_bind_error {α β : Type} {steps : Steps α} {next : α → Steps β} {mishap : Mishap}
    (h : k.perform steps = (.error mishap, k')) :
    k.perform (steps >>= next) = (.error mishap, k') := by
  simp only [perform, ExceptT.run_bind, StateT.run_bind] at h ⊢
  rw [h]
  rfl

theorem perform_handle (h : k.dispatch cfg e = .ok k') :
    k.perform (handle cfg e) = (.ok ⟨⟩, k') := by
  have hrun : k.perform (handle cfg e) =
      k.perform (match k.dispatch cfg e with
        | .error gap => throw (.gap gap)
        | .ok k => set k) := rfl
  rw [hrun, h]
  rfl

theorem perform_forM (h : es.foldlM (dispatch cfg) k = .ok k') :
    k.perform (es.forM (handle cfg)) = (.ok ⟨⟩, k') := by
  induction es generalizing k with
  | nil =>
      cases h
      rfl
  | cons e es ih =>
      rw [List.foldlM_cons] at h
      cases hnext : k.dispatch cfg e with
      | error gap =>
          rw [hnext] at h
          cases h
      | ok next =>
          rw [hnext] at h
          exact (perform_bind (perform_handle hnext)).trans (ih h)

/-- The decoding leaves the machine as it is. -/
theorem perform_decode (k : Machine) (frame : Frame.Source) :
    k.perform (decode frame) = (frame.events.mapError .frame, k) := rfl

theorem perform_receive_error {failure : Frame.Failure} (h : frame.events = .error failure) :
    k.perform (receive cfg frame) = (.error (.frame failure), k) :=
  perform_bind_error (by rw [perform_decode, h]; rfl)

theorem perform_receive_ok (h : frame.events = .ok es)
    (hes : es.foldlM (dispatch cfg) k = .ok k') :
    k.perform (receive cfg frame) = (.ok es.length, k') := by
  have hdecode : k.perform (decode frame) = (.ok es, k) := by
    rw [perform_decode, h]
    rfl
  exact (perform_bind hdecode).trans (perform_bind (perform_forM hes))

theorem Represents.dispatchEach (hk : Represents k d) (cfg : Config) (es : List Event) : ∃ k',
    es.foldlM (Machine.dispatch cfg) k = .ok k' ∧ Represents k' (d.after cfg es) := by
  induction es generalizing k d with
  | nil => exact ⟨k, rfl, hk⟩
  | cons e es ih =>
      obtain ⟨next, hnext, hrep⟩ := hk.dispatch cfg e
      obtain ⟨k', hrest, hk'⟩ := ih hrep
      refine ⟨k', ?_, hk'⟩
      rw [List.foldlM_cons, hnext]
      exact hrest

/-- **A frame is taken in as a whole or not at all.**  Every dispatcher is represented by some
machine; take any such.  A frame that is not understood is refused with its failure, and the machine
is as before.  Of any other frame every event is taken in, in order, and none of them gets stuck; the
machine then represents the dispatcher after these events, and tells as many events as the array of
the frame has pairs. -/
theorem receive_allOrNothing (cfg : Config) (d : Dispatcher) (frame : Frame.Source) :
    (∃ k, Represents k d) ∧ ∀ k, Represents k d →
      match frame.events with
      | .error failure =>
          k.perform (receive cfg frame) = (.error (.frame failure), k) ∧
          d.dispatchFrame cfg frame.events = .error failure
      | .ok es => ∃ k' notices items,
          k.perform (receive cfg frame) = (.ok es.length, k') ∧
          es.foldlM (Machine.dispatch cfg) k = .ok k' ∧
          Represents k' (d.after cfg es) ∧
          d.dispatchFrame cfg frame.events = .ok (d.after cfg es, es.length, notices) ∧
          frame.value = .ok (.array items) ∧ items.length = 2 * es.length := by
  refine ⟨exists_represents d, fun k hk => ?_⟩
  cases hevents : frame.events with
  | error failure => exact ⟨perform_receive_error hevents, rfl⟩
  | ok es =>
      obtain ⟨k', hes, hk'⟩ := hk.dispatchEach cfg es
      obtain ⟨items, hvalue, hitems⟩ := Frame.Source.exists_array_of_events hevents
      exact ⟨k', _, items, perform_receive_ok hevents hes, hes, hk', d.dispatchFrame_ok cfg es,
        hvalue, hitems⟩

/-- The frame `[1,[60]]` announces a best block, to a machine to which nothing has happened. -/
theorem receive_allOrNothing_bestBlock :
    let frame : Frame.Source := .text ['[', '1', ',', '[', '6', '0', ']', ']']
    let k : Machine := {}
    Represents k {} ∧ frame.events = .ok [.bestBlock 60] ∧
      ∃ k', k.perform (receive .standard frame) = (.ok 1, k') ∧ k'.best = some 60 := by
  intro frame k
  have hk : Represents k {} := ⟨.empty, rfl, rfl, rfl, rfl⟩
  have hitems : readItems ['1', ',', '[', '6', '0', ']', ']'] =
      .ok ([.int 1, .array [.int 60]], []) :=
    readItems_cons (readValue_scalar (by decide) (by decide) (by decide)) rfl
      (readItems_last (readValue_of_readItems (by decide)
        (readItems_last (readValue_scalar (by decide) (by decide) (by decide)) rfl)) rfl)
  have hvalue : Json.Value.ofText ['[', '1', ',', '[', '6', '0', ']', ']'] =
      .ok (.array [.int 1, .array [.int 60]]) :=
    document_of_readValue (readValue_of_readItems (by decide) hitems) rfl
  have hevents : frame.events = .ok [.bestBlock 60] := by
    show Frame.ofText _ = _
    rw [Frame.ofText, hvalue]
    rfl
  have hframe := (receive_allOrNothing .standard {} frame).2 k hk
  rw [hevents] at hframe
  obtain ⟨k', notices, items, hreceive, -, hk', -⟩ := hframe
  exact ⟨hk, hevents, k', hreceive, hk'.best_eq⟩

end Machine

end Finality.Feed
