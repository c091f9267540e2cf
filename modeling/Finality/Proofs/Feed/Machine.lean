import Finality.Feed.Dispatcher
import Finality.Proofs.Matrix.Stepwise
import Finality.Proofs.Tracker.EarlyStop

/-! # Dispatching, step by step

A `Machine` is a dispatcher in one flat record, with its matrix kept as a table and an index.  It
takes in an event by the small steps of `Proofs.Matrix.Stepwise`, of which some can fail, and so can
the event.

`Machine.Represents k d` says that a machine is in step with itself and holds what a dispatcher
holds.  Then it takes in every event, and represents the dispatcher after the event
(`Represents.dispatch`). -/

namespace Finality.Feed

open Indexed (Gap)

/-- A dispatcher whose matrix is kept as a table and an index. -/
structure Machine where
  cache : Indexed := {}
  best : Option Nat := none
  authority : Authority := {}
  metrics : Metrics := {}
  subscribed : Option String := none

namespace Machine

/-- Drops the rows beyond the bound. -/
def retain (cfg : Config) (x : Indexed) : Except Gap (Indexed × Int) :=
  match cfg.maxHeights with
  | none => .ok (x, 0)
  | some n => x.evict n

/-- Takes in a sighting. -/
def sight (cfg : Config) (s : Sighting) (k : Machine) : Except Gap Machine :=
  if cfg.isStale k.best s.height then
    .ok { k with metrics := k.metrics.record (.stale s.height (k.best.getD 0)) }
  else do
    let (recorded, marked) ← k.cache.record cfg.precommitImpliesPrevote s
    let (kept, pruned) ← retain cfg recorded
    let effect := Tracker.effectOf s
      { reporter := s.reporter, voter := s.voter, height := s.height, marked, pruned,
        size := kept.size }
    .ok { k with
      cache := kept
      authority := { k.authority with loading := false }
      metrics := k.metrics.record effect }

/-- Takes in an authority set. -/
def announce (setId : Int) (members : List Address) (k : Machine) : Machine :=
  match k.authority.announce setId members with
  | none => k
  | some authority =>
    { k with
      cache := {}
      authority
      metrics := k.metrics.record
        (.setChanged k.authority.setId setId members.length k.cache.size) }

/-- Forgets the chain, and goes on with a subscription. -/
def reset (subscribed : Option String) (k : Machine) : Machine :=
  { metrics := k.metrics.record (.reset k.cache.size), subscribed }

/-- Takes in an event. -/
def dispatch (cfg : Config) (k : Machine) : Event → Except Gap Machine
  | .vote v reporter height _ voter => k.sight cfg (.vote v reporter height voter)
  | .finalized reporter height hash => k.sight cfg (.finalization reporter height hash)
  | .authoritySet setId members => .ok (k.announce setId members)
  | .bestBlock height => .ok { k with best := some height }
  | .subscribed chain =>
    if k.subscribed.isSome && k.subscribed != some chain then .ok (k.reset (some chain))
    else .ok { k with subscribed := some chain }
  | .chainRemoved chain => if k.subscribed = some chain then .ok (k.reset none) else .ok k
  | .ignored .. => .ok k

/-! ### What a machine holds -/

/-- A machine is in step with itself and holds what a dispatcher holds. -/
structure Represents (k : Machine) (d : Dispatcher) : Prop where
  cache : k.cache.Represents d.tracker.matrix
  best_eq : k.best = d.tracker.best
  authority_eq : k.authority = d.tracker.authority
  metrics_eq : k.metrics = d.metrics
  subscribed_eq : k.subscribed = d.subscribed

theorem exists_represents (d : Dispatcher) : ∃ k, Represents k d := by
  obtain ⟨x, hx⟩ := Indexed.exists_represents d.tracker.matrix
  exact ⟨⟨x, d.tracker.best, d.tracker.authority, d.metrics, d.subscribed⟩,
    hx, rfl, rfl, rfl, rfl⟩

namespace Represents

variable {cfg : Config} {k : Machine} {d : Dispatcher} {c : Call} {s : Sighting}

/-- Rows beyond the bound are dropped, and none of them is missing. -/
theorem retain {x : Indexed} {m : Matrix} (hx : x.Represents m) (cfg : Config) : ∃ y,
    Machine.retain cfg x = .ok (y, (Tracker.retain cfg m).2) ∧
      y.Represents (Tracker.retain cfg m).1 := by
  unfold Machine.retain Tracker.retain
  cases cfg.maxHeights with
  | none => exact ⟨x, rfl, hx⟩
  | some n =>
      obtain ⟨hpruned, hcount⟩ := hx.prune n
      refine ⟨(x.prune n).1, ?_, hpruned⟩
      show x.evict n = .ok ((x.prune n).1, (m.prune n).2)
      rw [hx.evict, ← hcount]

theorem sight (hk : k.Represents d) (hs : Sighting.ofCall? c = some s) : ∃ k',
    k.sight cfg s = .ok k' ∧ k'.Represents (d.call cfg c).1 := by
  have hstep : d.tracker.step cfg c = d.tracker.stepBy Matrix.backfill cfg c :=
    (Tracker.stepBy_backfill cfg d.tracker c).symm
  simp only [Machine.sight, Dispatcher.call, hstep, Tracker.stepBy, hs, hk.best_eq]
  by_cases hstale : cfg.isStale d.tracker.best s.height = true
  · rw [if_pos hstale, if_pos hstale]
    exact ⟨_, rfl, hk.cache, rfl, hk.authority_eq, by rw [hk.metrics_eq], hk.subscribed_eq⟩
  · rw [if_neg hstale, if_neg hstale]
    obtain ⟨recorded, hrecord, hrecorded⟩ := hk.cache.record cfg.precommitImpliesPrevote s
    obtain ⟨kept, hretain, hkept⟩ := retain hrecorded cfg
    rw [hrecord]
    simp only [bind, Except.bind, hretain]
    refine ⟨_, rfl, hkept, rfl, ?_, ?_, hk.subscribed_eq⟩
    · rw [hk.authority_eq]
      rfl
    · rw [hk.metrics_eq, hkept.size_eq]
      rfl

theorem announce (hk : k.Represents d) (cfg : Config) (setId : Int) (members : List Address) :
    (k.announce setId members).Represents (d.call cfg (.authoritySet setId members)).1 := by
  simp only [Machine.announce, Dispatcher.call, Tracker.step, hk.authority_eq]
  cases d.tracker.authority.announce setId members with
  | none => exact ⟨hk.cache, hk.best_eq, hk.authority_eq, hk.metrics_eq, hk.subscribed_eq⟩
  | some authority =>
      refine ⟨.empty, hk.best_eq, rfl, ?_, hk.subscribed_eq⟩
      rw [hk.metrics_eq, hk.cache.size_eq]

theorem reset (hk : k.Represents d) (cfg : Config) (subscribed : Option String) :
    (k.reset subscribed).Represents { (d.call cfg .reset).1 with subscribed } := by
  refine ⟨.empty, rfl, rfl, ?_, rfl⟩
  rw [Machine.reset, hk.metrics_eq, hk.cache.size_eq]
  rfl

/-- **A machine in step with itself takes in every event.**  It does what the dispatcher does that
it represents. -/
theorem dispatch (hk : k.Represents d) (cfg : Config) (e : Event) : ∃ k',
    k.dispatch cfg e = .ok k' ∧ k'.Represents (d.dispatch cfg e).1 := by
  cases e with
  | vote v r h hash w => exact hk.sight rfl
  | finalized r h hash => exact hk.sight rfl
  | authoritySet setId members => exact ⟨_, rfl, hk.announce cfg setId members⟩
  | bestBlock h => exact ⟨_, rfl, hk.cache, rfl, hk.authority_eq, hk.metrics_eq, hk.subscribed_eq⟩
  | ignored action payload => exact ⟨k, rfl, hk⟩
  | subscribed chain =>
      simp only [Machine.dispatch, Dispatcher.dispatch, hk.subscribed_eq]
      split
      · exact ⟨_, rfl, hk.reset cfg (some chain)⟩
      · exact ⟨_, rfl, hk.cache, hk.best_eq, hk.authority_eq, hk.metrics_eq, rfl⟩
  | chainRemoved chain =>
      simp only [Machine.dispatch, Dispatcher.dispatch, hk.subscribed_eq]
      split
      · exact ⟨_, rfl, hk.reset cfg none⟩
      · exact ⟨k, rfl, hk⟩

end Represents

end Machine

end Finality.Feed
