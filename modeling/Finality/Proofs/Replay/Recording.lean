import Mathlib.Algebra.GroupWithZero.Nat
import Finality.Proofs.Feed.Transaction
import Finality.Replay.Recording

/-! # Replaying line by line

A replay is about the frames of a recording, the lines that are not blank: what it leads to is what
applying one frame after the other leads to (`result_replay`).  Frames that are understood are applied
as a whole (`applyFrames_append`), so a replay stops in the state to which the frames in front of the
first bad one lead.

Lines are parted by line feeds alone.  A part of a recording that ends with a line is therefore read
as if there were nothing behind it (`lines_append_of_endsLine`), and blank lines come and go without
a trace (`frames_append`, `frames_eq_nil`).  The three facts make up `replay_law`. -/

namespace Finality.Replay

open Feed (Dispatcher Event)
open Feed.Frame (Failure Source)
open Json.Reader (document_of_readValue readItems_cons readItems_last readValue_of_readItems
  readValue_scalar)

/-! ### Lines -/

/-- The octet that ends a line. -/
def lineFeed : UInt8 := 0x0A

/-- A line with its line feed. -/
def IsClosed (line : List UInt8) : Prop := ∃ text, line = text ++ [lineFeed] ∧ lineFeed ∉ text

/-- Octets that end with a line, if there are any. -/
def EndsLine (octets : List UInt8) : Prop := octets = [] ∨ octets.getLast? = some lineFeed

variable {line octets xs ys : List UInt8} {before after : List (List UInt8)}

theorem isClosed_cons {b : UInt8} (hb : b ≠ lineFeed) (h : IsClosed line) :
    IsClosed (b :: line) := by
  obtain ⟨text, rfl, htext⟩ := h
  exact ⟨b :: text, rfl, by simp [htext, Ne.symm hb]⟩

theorem lines_cons_of_ne {b : UInt8} (hb : b ≠ lineFeed) {more : List (List UInt8)}
    (h : lines octets = line :: more) : lines (b :: octets) = (b :: line) :: more := by
  have hb' : (b == 0x0A) = false := by simpa [lineFeed] using hb
  rw [lines, hb', h]
  rfl

theorem lines_append_of_isClosed (h : IsClosed line) (octets : List UInt8) :
    lines (line ++ octets) = line :: lines octets := by
  obtain ⟨text, rfl, htext⟩ := h
  induction text with
  | nil => rfl
  | cons b text ih =>
      rw [List.mem_cons, not_or] at htext
      exact lines_cons_of_ne (Ne.symm htext.1) (ih htext.2)

theorem isClosed_of_lines_eq (h : lines octets = before ++ line :: after) :
    ∀ l ∈ before, IsClosed l := by
  induction octets generalizing before line after with
  | nil => cases before <;> cases h
  | cons b octets ih =>
      cases before with
      | nil => simp
      | cons l before =>
          rw [lines] at h
          split at h
          · rename_i hb
            obtain rfl : b = lineFeed := by simpa [lineFeed] using hb
            obtain ⟨rfl, hrest⟩ := List.cons_eq_cons.mp h
            exact List.forall_mem_cons.mpr ⟨⟨[], rfl, by simp⟩, ih hrest⟩
          · rename_i hb
            have hb : b ≠ lineFeed := by simpa [lineFeed] using hb
            split at h
            · cases before <;> cases h
            · rename_i first more hmore
              obtain ⟨rfl, rfl⟩ := List.cons_eq_cons.mp h
              have hmore : lines octets = (first :: before) ++ line :: after := hmore
              obtain ⟨hfirst, hbefore⟩ := List.forall_mem_cons.mp (ih hmore)
              exact List.forall_mem_cons.mpr ⟨isClosed_cons hb hfirst, hbefore⟩

theorem lines_flatten_of_isClosed (h : ∀ l ∈ before, IsClosed l) : lines before.flatten = before := by
  induction before with
  | nil => rfl
  | cons l before ih =>
      obtain ⟨hl, hbefore⟩ := List.forall_mem_cons.mp h
      rw [List.flatten_cons, lines_append_of_isClosed hl, ih hbefore]

theorem exists_lines_eq_cons (h : octets ≠ []) : ∃ line more, lines octets = line :: more := by
  refine List.exists_cons_of_ne_nil fun hlines => h ?_
  rw [← flatten_lines octets, hlines]
  rfl

/-- Behind the end of a line the lines start anew. -/
theorem lines_append_of_endsLine (h : EndsLine xs) (ys : List UInt8) :
    lines (xs ++ ys) = lines xs ++ lines ys := by
  induction xs with
  | nil => rfl
  | cons b xs ih =>
      by_cases hb : b = lineFeed
      · have hxs : EndsLine xs := by
          cases xs with
          | nil => exact .inl rfl
          | cons c xs => exact .inr (by simpa [EndsLine] using h)
        subst hb
        show [lineFeed] :: lines (xs ++ ys) = [lineFeed] :: lines xs ++ lines ys
        rw [ih hxs]
        rfl
      · have hne : xs ≠ [] := by
          rintro rfl
          simp [EndsLine, hb] at h
        have hxs : EndsLine xs := by
          obtain ⟨c, xs, rfl⟩ := List.exists_cons_of_ne_nil hne
          exact .inr (by simpa [EndsLine] using h)
        obtain ⟨line, more, hlines⟩ := exists_lines_eq_cons hne
        have hboth : lines (xs ++ ys) = line :: (more ++ lines ys) := by rw [ih hxs, hlines]; rfl
        rw [List.cons_append, lines_cons_of_ne hb hboth, lines_cons_of_ne hb hlines]
        rfl

/-! ### Frames -/

/-- The lines of a recording that hold a frame. -/
def frames (octets : List UInt8) : List (List UInt8) :=
  (lines octets).filter fun line => !isBlankLine line

theorem frames_eq_nil (h : isBlankLine octets = true) : frames octets = [] := by
  refine List.filter_eq_nil_iff.mpr fun line hline => ?_
  have hall : isBlankLine line = true := by
    refine List.all_eq_true.mpr fun b hb => List.all_eq_true.mp h b ?_
    rw [← flatten_lines octets]
    exact List.mem_flatten.mpr ⟨line, hline, hb⟩
  simp [hall]

theorem frames_append (h : EndsLine xs) (ys : List UInt8) :
    frames (xs ++ ys) = frames xs ++ frames ys := by
  rw [frames, lines_append_of_endsLine h, List.filter_append]
  rfl

theorem frames_blank_append {blank : List UInt8} (hblank : isBlankLine blank = true)
    (hends : EndsLine blank ∨ ys = []) : frames (blank ++ ys) = frames ys := by
  obtain hends | rfl := hends
  · rw [frames_append hends, frames_eq_nil hblank, List.nil_append]
  · rw [List.append_nil, frames_eq_nil hblank]
    rfl

/-- What a replay leads to, apart from what is told about it. -/
def Outcome.result (o : Outcome) : Dispatcher × Nat × Option Failure :=
  (o.dispatcher, o.events, o.failure)

theorem Outcome.result_eq_iff {o : Outcome} {d : Dispatcher} {n : Nat} {failure : Option Failure} :
    o.result = (d, n, failure) ↔ o.dispatcher = d ∧ o.events = n ∧ o.failure = failure := by
  simp [Outcome.result]

/-- Applies frames up to the first that is not understood; also counts the events. -/
def applyFrames (cfg : Config) (d : Dispatcher) :
    List (List UInt8) → Dispatcher × Nat × Option Failure
  | [] => (d, 0, none)
  | frame :: rest =>
    match Feed.Frame.ofBytes frame with
    | .error failure => (d, 0, some failure)
    | .ok es =>
      let (d, n, failure) := applyFrames cfg (d.after cfg es) rest
      (d, es.length + n, failure)

/-- A replay applies the frames of its lines. -/
theorem result_replayFrom (cfg : Config) (path : String) (number : Nat) (d : Dispatcher)
    (ls : List (List UInt8)) : (replayFrom cfg path number d ls).result =
      applyFrames cfg d (ls.filter fun line => !isBlankLine line) := by
  induction ls generalizing number d with
  | nil => rfl
  | cons line rest ih =>
      cases hblank : isBlankLine line with
      | true =>
          simp [replayFrom, hblank, ih]
      | false =>
          simp only [replayFrom, hblank]
          rw [List.filter_cons_of_pos (by simp [hblank]), applyFrames]
          cases hframe : Feed.Frame.ofBytes line with
          | error failure => rfl
          | ok es =>
              rw [Dispatcher.dispatchFrame_ok]
              simp only
              rw [← ih (number + 1)]
              rfl

theorem result_replay (cfg : Config) (path : String) (d : Dispatcher) (octets : List UInt8) :
    (replay cfg path d octets).result = applyFrames cfg d (frames octets) :=
  result_replayFrom cfg path 1 d (lines octets)

/-- What a frame that is understood holds: an array, and the events that it stands for. -/
structure Holds (frame : List UInt8) (contents : List Json.Value × List Event) : Prop where
  value_eq : (Source.octets frame).value = .ok (.array contents.1)
  events_eq : Feed.Frame.ofBytes frame = .ok contents.2
  length_eq : contents.1.length = 2 * contents.2.length

variable {contents : List (List Json.Value × List Event)}

theorem exists_holds {frame : List UInt8} {es : List Event}
    (h : Feed.Frame.ofBytes frame = .ok es) : ∃ items, Holds frame (items, es) := by
  have h : (Source.octets frame).events = .ok es := h
  obtain ⟨items, hvalue, hlength⟩ := Source.exists_array_of_events h
  exact ⟨items, hvalue, h, hlength⟩

theorem exists_contents {fs : List (List UInt8)}
    (h : ∀ frame ∈ fs, ∃ es, Feed.Frame.ofBytes frame = .ok es) :
    ∃ contents, List.Forall₂ Holds fs contents := by
  induction fs with
  | nil => exact ⟨[], .nil⟩
  | cons frame fs ih =>
      obtain ⟨⟨es, hes⟩, hfs⟩ := List.forall_mem_cons.mp h
      obtain ⟨items, hframe⟩ := exists_holds hes
      obtain ⟨contents, hcontents⟩ := ih hfs
      exact ⟨(items, es) :: contents, .cons hframe hcontents⟩

theorem applyFrames_append {fs : List (List UInt8)} (h : List.Forall₂ Holds fs contents)
    (cfg : Config) (d : Dispatcher) (more : List (List UInt8)) :
    applyFrames cfg d (fs ++ more) =
      let (d, n, failure) := applyFrames cfg (d.after cfg (contents.flatMap (·.2))) more
      (d, (contents.map (·.1.length / 2)).sum + n, failure) := by
  induction h generalizing d with
  | nil => simp [Dispatcher.after]
  | @cons frame c fs contents hframe hfs ih =>
      have hcount : c.2.length = c.1.length / 2 := by
        have := hframe.length_eq
        omega
      rw [List.cons_append, applyFrames, hframe.events_eq, List.flatMap_cons,
        Dispatcher.after_append, List.map_cons, List.sum_cons, ← hcount]
      simp only [ih, Nat.add_assoc]

theorem applyFrames_of_holds {fs : List (List UInt8)} (h : List.Forall₂ Holds fs contents)
    (cfg : Config) (d : Dispatcher) : applyFrames cfg d fs =
      (d.after cfg (contents.flatMap (·.2)), (contents.map (·.1.length / 2)).sum, none) := by
  have happend := applyFrames_append h cfg d []
  rw [List.append_nil] at happend
  exact happend

theorem frames_cases (fs : List (List UInt8)) :
    (∀ frame ∈ fs, ∃ es, Feed.Frame.ofBytes frame = .ok es) ∨
      ∃ before line after failure, fs = before ++ line :: after ∧
        (∀ frame ∈ before, ∃ es, Feed.Frame.ofBytes frame = .ok es) ∧
        Feed.Frame.ofBytes line = .error failure := by
  induction fs with
  | nil => exact .inl (by simp)
  | cons frame fs ih =>
      cases hframe : Feed.Frame.ofBytes frame with
      | error failure => exact .inr ⟨[], frame, fs, failure, rfl, by simp, hframe⟩
      | ok es =>
          obtain hall | ⟨before, line, after, failure, rfl, hbefore, hline⟩ := ih
          · exact .inl (List.forall_mem_cons.mpr ⟨⟨es, hframe⟩, hall⟩)
          · exact .inr ⟨frame :: before, line, after, failure, rfl,
              List.forall_mem_cons.mpr ⟨⟨es, hframe⟩, hbefore⟩, hline⟩

theorem replay_of_holds (h : List.Forall₂ Holds (frames octets) contents) (cfg : Config)
    (path : String) (d : Dispatcher) :
    let o := replay cfg path d octets
    o.failure = none ∧ o.events = (contents.map (·.1.length / 2)).sum ∧
      o.dispatcher = (d.dispatchAll cfg (contents.flatMap (·.2))).1 := by
  have hresult := result_replay cfg path d octets
  rw [applyFrames_of_holds h, Outcome.result_eq_iff] at hresult
  obtain ⟨hd, hn, hfailure⟩ := hresult
  exact ⟨hfailure, hn, hd.trans (Dispatcher.dispatchAll_fst ..).symm⟩

/-- A replay stops in front of the first frame that is not understood, and fails as it does. -/
theorem replay_of_frames_eq {fs more : List (List UInt8)} {line : List UInt8} {failure : Failure}
    (hframes : frames octets = fs ++ line :: more) (h : List.Forall₂ Holds fs contents)
    (hline : Feed.Frame.ofBytes line = .error failure) (cfg : Config) (path : String)
    (d : Dispatcher) :
    let o := replay cfg path d octets
    o.failure = some failure ∧
      o.dispatcher = (d.dispatchAll cfg (contents.flatMap (·.2))).1 := by
  have hresult := result_replay cfg path d octets
  rw [hframes, applyFrames_append h, applyFrames, hline, Outcome.result_eq_iff] at hresult
  obtain ⟨hd, -, hfailure⟩ := hresult
  exact ⟨hfailure, hd.trans (Dispatcher.dispatchAll_fst ..).symm⟩

theorem failure_replay_of_frames_eq {fs more : List (List UInt8)} {line : List UInt8}
    {failure : Failure} (hframes : frames octets = fs ++ line :: more)
    (hfs : ∀ frame ∈ fs, ∃ es, Feed.Frame.ofBytes frame = .ok es)
    (hline : Feed.Frame.ofBytes line = .error failure) (cfg : Config) (path : String)
    (d : Dispatcher) : (replay cfg path d octets).failure = some failure := by
  obtain ⟨contents, hcontents⟩ := exists_contents hfs
  exact (replay_of_frames_eq hframes hcontents hline cfg path d).1

/-! ### The law of replay -/

/-- **A replay applies exactly the frames in front of the first bad line.**  If all lines that hold a
frame are understood, their events are applied in order, and the pairs in their arrays are counted.
Otherwise the replay fails as the first line does that is not understood, in the state to which the
lines in front of it lead on their own.  Lines of white space may be put in or left out between any
two lines and at the ends. -/
theorem replay_law (cfg : Config) (path : String) (d : Dispatcher) (octets : List UInt8) :
    let o := replay cfg path d octets
    ((∀ frame ∈ frames octets, ∃ es, Feed.Frame.ofBytes frame = .ok es) → ∃ contents,
      List.Forall₂ Holds (frames octets) contents ∧ o.failure = none ∧
      o.events = (contents.map (·.1.length / 2)).sum ∧
      o.dispatcher = (d.dispatchAll cfg (contents.flatMap (·.2))).1) ∧
    (∀ before line after failure, lines octets = before ++ line :: after →
      (∀ l ∈ before, isBlankLine l = true ∨ ∃ es, Feed.Frame.ofBytes l = .ok es) →
      isBlankLine line = false → Feed.Frame.ofBytes line = .error failure →
      let earlier := replay cfg path d before.flatten
      lines before.flatten = before ∧ earlier.failure = none ∧
      o.failure = some failure ∧ o.dispatcher = earlier.dispatcher) ∧
    (∀ xs blank ys, octets = xs ++ ys → EndsLine xs → isBlankLine blank = true →
      (EndsLine blank ∨ ys = []) →
      (replay cfg path d (xs ++ (blank ++ ys))).result = o.result) := by
  intro o
  refine ⟨fun hall => ?_, fun before line after failure hlines hbefore hline hfailure => ?_,
    fun xs blank ys hoctets hxs hblank hends => ?_⟩
  · obtain ⟨contents, hcontents⟩ := exists_contents hall
    exact ⟨contents, hcontents, replay_of_holds hcontents cfg path d⟩
  · have hclosed := lines_flatten_of_isClosed (isClosed_of_lines_eq hlines)
    have hfront : frames before.flatten = before.filter fun l => !isBlankLine l := by
      rw [frames, hclosed]
    have hall : ∀ frame ∈ frames before.flatten, ∃ es, Feed.Frame.ofBytes frame = .ok es := by
      intro frame hframe
      rw [hfront, List.mem_filter] at hframe
      obtain ⟨hmem, hholds⟩ := hframe
      refine (hbefore frame hmem).resolve_left fun hblank => ?_
      simp [hblank] at hholds
    have hframes : frames octets =
        frames before.flatten ++ line :: after.filter fun l => !isBlankLine l := by
      rw [hfront, frames, hlines, List.filter_append, List.filter_cons_of_pos (by simp [hline])]
    obtain ⟨contents, hcontents⟩ := exists_contents hall
    obtain ⟨hnone, -, hearlier⟩ := replay_of_holds hcontents cfg path d
    obtain ⟨hsome, hd⟩ := replay_of_frames_eq hframes hcontents hfailure cfg path d
    exact ⟨hclosed, hnone, hsome, hd.trans hearlier.symm⟩
  · show _ = (replay cfg path d octets).result
    rw [result_replay, result_replay, hoctets, frames_append hxs, frames_append hxs,
      frames_blank_append hblank hends]

/-- The line `[1,[60]]`. -/
def bestLine : List UInt8 := [0x5B, 0x31, 0x2C, 0x5B, 0x36, 0x30, 0x5D, 0x5D, lineFeed]

theorem ofBytes_bestLine : Feed.Frame.ofBytes bestLine = .ok [.bestBlock 60] := by
  have hread : Json.Reader.document "[1,[60]]\n".toList =
      .ok (.array [.int 1, .array [.int 60]]) :=
    document_of_readValue (readValue_of_readItems (by decide)
      (readItems_cons (readValue_scalar (by decide) (by decide) (by decide)) rfl
        (readItems_last (readValue_of_readItems (by decide)
          (readItems_last (readValue_scalar (by decide) (by decide) (by decide)) rfl)) rfl))) rfl
  have hdecode : Encoding.decode bestLine = .ok "[1,[60]]\n".toList := rfl
  rw [Feed.Frame.ofBytes, hdecode]
  simp only [hread]
  rfl

theorem eq_of_holds_bestLine (h : List.Forall₂ Holds [bestLine] contents) :
    contents.flatMap (·.2) = [.bestBlock 60] := by
  cases h with
  | cons hframe hrest =>
      cases hrest
      have hes := Except.ok.inj (hframe.events_eq.symm.trans ofBytes_bestLine)
      rw [List.flatMap_cons, hes]
      rfl

/-- `[1,[60]]`, a blank line, an octet that no text holds, and `[1,[61]]` without a line feed: the
best block is the first of the two, with the blank line or without it. -/
theorem replay_law_undecodable :
    let blank : List UInt8 := [0x20, lineFeed]
    let bad : List UInt8 := [0xFF, lineFeed]
    let last : List UInt8 := [0x5B, 0x31, 0x2C, 0x5B, 0x36, 0x31, 0x5D, 0x5D]
    let d : Dispatcher := {}
    let o := replay .standard "" d (bestLine ++ (blank ++ (bad ++ last)))
    frames bestLine = [bestLine] ∧ Feed.Frame.ofBytes bestLine = .ok [.bestBlock 60] ∧
      lines (bestLine ++ (blank ++ (bad ++ last))) = [bestLine, blank, bad, last] ∧
      o.failure = some (.encoding ⟨0, 1, .invalidStart⟩) ∧ o.dispatcher.tracker.best = some 60 ∧
      o.result = (replay .standard "" d (bestLine ++ (bad ++ last))).result := by
  intro blank bad last d o
  obtain ⟨-, hstops, -⟩ := replay_law .standard "" d (bestLine ++ (blank ++ (bad ++ last)))
  obtain ⟨-, -, hfailure, hd⟩ := hstops [bestLine, blank] bad [last]
    (.encoding ⟨0, 1, .invalidStart⟩) rfl
    (by simp only [List.forall_mem_cons]; exact ⟨.inr ⟨_, ofBytes_bestLine⟩, .inl rfl, by simp⟩)
    rfl rfl
  obtain ⟨hall, -, -⟩ := replay_law .standard "" d [bestLine, blank].flatten
  obtain ⟨contents, hcontents, -, -, hearlier⟩ := hall (by
    show ∀ frame ∈ [bestLine], _
    simp only [List.forall_mem_cons]
    exact ⟨⟨_, ofBytes_bestLine⟩, by simp⟩)
  obtain ⟨-, -, hblank⟩ := replay_law .standard "" d (bestLine ++ (bad ++ last))
  refine ⟨rfl, ofBytes_bestLine, rfl, hfailure, ?_,
    hblank bestLine blank (bad ++ last) rfl (.inr rfl) rfl (.inl (.inr rfl))⟩
  rw [hd, hearlier, eq_of_holds_bestLine hcontents]
  rfl

end Finality.Replay
