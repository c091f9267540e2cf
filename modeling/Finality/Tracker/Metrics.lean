import Finality.Tracker.Basic

/-! # Metrics

Counters over everything that trackers did, and the number of rows in the matrix.  Counters that are
split by kind have a sample for a kind from its first use on, in the order of first use, even when
nothing was counted yet.

`Metrics.exposition` lists the samples in the text form that monitoring systems scrape. -/

namespace Finality

/-- Kinds of implied marks. -/
inductive MarkKind where
  | vote (v : Vote)
  | finalization
deriving DecidableEq, Repr

/-- Label of a kind. -/
def MarkKind.name : MarkKind → String
  | .vote v => v.name
  | .finalization => "finalized"

/-- Counters and the row gauge. -/
structure Metrics where
  /-- Votes that were recorded. -/
  votes : List (Vote × Nat) := []
  /-- Finalizations that were recorded. -/
  finalizations : Nat := 0
  /-- Sightings that came too late. -/
  stale : Nat := 0
  /-- Cells that received an implied mark. -/
  backfilled : List (MarkKind × Nat) := []
  /-- Changes of the authority set. -/
  resets : Nat := 0
  /-- Rows in the matrix. -/
  rows : Nat := 0
deriving DecidableEq, Repr

namespace Metrics

/-- Adds to the sample of a kind. -/
def bump {κ : Type} [DecidableEq κ] (k : κ) (n : Nat) (samples : List (κ × Nat)) :
    List (κ × Nat) :=
  Ordered.alter k (fun count => count.getD 0 + n) samples

/-- Value of the sample of a kind. -/
def sample {κ : Type} [DecidableEq κ] (k : κ) (samples : List (κ × Nat)) : Nat :=
  (samples.lookup k).getD 0

/-- Counts the effect of a call. -/
def record (m : Metrics) : Effect → Metrics
  | .voted v trace =>
    { m with
      votes := bump v 1 m.votes
      backfilled := bump (.vote v) trace.marked m.backfilled
      rows := trace.size }
  | .finalized trace =>
    { m with
      finalizations := m.finalizations + 1
      backfilled := bump .finalization trace.marked m.backfilled
      rows := trace.size }
  | .stale .. => { m with stale := m.stale + 1 }
  | .setChanged .. => { m with resets := m.resets + 1, rows := 0 }
  | .reset _ => { m with rows := 0 }
  | .setKept => m
  | .bestSet => m

/-! ### Exposition -/

/-- Digits without the zeros at the end. -/
def withoutTrailingZeros (s : String) : List Char :=
  (s.toList.reverse.dropWhile (· == '0')).reverse

/-- Value of a sample.  From a million on the exponential form is used. -/
def sampleText (n : Nat) : String :=
  let s := toString n
  if s.length ≤ 6 then s ++ ".0"
  else
    let mantissa := match withoutTrailingZeros s with
      | [] => []
      | [d] => [d]
      | d :: ds => d :: '.' :: ds
    String.ofList mantissa ++ "e+0" ++ toString (s.length - 1)

/-- Lines of one metric: its help, its type and its samples. -/
def family (name type help : String) (samples : List (String × Nat)) : List String :=
  ("# HELP " ++ name ++ " " ++ help) :: ("# TYPE " ++ name ++ " " ++ type) ::
    samples.map fun s => name ++ s.1 ++ " " ++ sampleText s.2

/-- Labels of the sample of a kind. -/
def kindLabel (kind : String) : String := "\x7bkind=\"" ++ kind ++ "\"\x7d"

/-- All metrics in text form. -/
def exposition (m : Metrics) : List String :=
  family "afg_votes_recorded_total" "counter" "Explicit votes applied to the cache"
      (m.votes.map fun s => (kindLabel s.1.name, s.2))
    ++ family "afg_finalizations_recorded_total" "counter"
      "Explicit finalizations applied to the cache" [("", m.finalizations)]
    ++ family "afg_stale_events_total" "counter"
      "Events ignored for lagging too far behind the best block" [("", m.stale)]
    ++ family "afg_backfilled_cells_total" "counter"
      "Cells that received an implicit vote or finalization"
      (m.backfilled.map fun s => (kindLabel s.1.name, s.2))
    ++ family "afg_authority_set_resets_total" "counter"
      "Cache resets caused by authority set changes" [("", m.resets)]
    ++ family "afg_cached_heights" "gauge" "Block heights currently held in the vote cache"
      [("", m.rows)]

end Metrics

end Finality
