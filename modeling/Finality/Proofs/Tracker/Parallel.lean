import Finality.Proofs.Tracker.Step

/-! # Two trackers side by side

Two trackers are compared call by call: `Parallel R t u` says that their matrices are related by `R`
and that they agree on the best block and on the authority set.  What is left to show for such a
comparison is what `R` makes of a sighting.

The relation is kept by any call that both trackers receive (`Parallel.apply`), and by two different
sightings at the same height (`Parallel.apply_sightings`): being stale depends on the height and on
the best block only.  `Parallel.run` carries it along two runs. -/

namespace Finality.Tracker

/-- The matrices of two trackers are related, and the trackers agree on all else. -/
structure Parallel (R : Matrix → Matrix → Prop) (t u : Tracker) : Prop where
  matrix : R t.matrix u.matrix
  best : t.best = u.best
  authority : t.authority = u.authority

namespace Parallel

variable {cfg cfg' : Config} {R : Matrix → Matrix → Prop} {t u : Tracker} {c d : Call}
  {s s' : Sighting}

theorem admits_iff (hp : Parallel R t u) (hwindow : cfg.staleWindow = cfg'.staleWindow)
    (hheight : s.height = s'.height) : t.Admits cfg s ↔ u.Admits cfg' s' := by
  unfold Admits Config.isStale
  rw [hp.best, hwindow, hheight]

theorem apply_sightings (hp : Parallel R t u) (hwindow : cfg.staleWindow = cfg'.staleWindow)
    (hs : Sighting.ofCall? c = some s) (hs' : Sighting.ofCall? d = some s')
    (hheight : s.height = s'.height)
    (hobserve : t.Admits cfg s → R (t.observe cfg s).matrix (u.observe cfg' s').matrix) :
    Parallel R (t.apply cfg c) (u.apply cfg' d) := by
  have hadmits : t.Admits cfg s ↔ u.Admits cfg' s' := hp.admits_iff hwindow hheight
  by_cases ha : t.Admits cfg s
  · rw [apply_of_admits hs ha, apply_of_admits hs' (hadmits.mp ha)]
    refine ⟨hobserve ha, hp.best, ?_⟩
    show { t.authority with loading := false } = { u.authority with loading := false }
    rw [hp.authority]
  · rw [apply_of_not_admits hs ha, apply_of_not_admits hs' (mt hadmits.mpr ha)]
    exact hp

theorem apply (hp : Parallel R t u) (hwindow : cfg.staleWindow = cfg'.staleWindow)
    (hempty : R .empty .empty)
    (hobserve : ∀ s ∈ Sighting.ofCall? c, t.Admits cfg s →
      R (t.observe cfg s).matrix (u.observe cfg' s).matrix) :
    Parallel R (t.apply cfg c) (u.apply cfg' c) := by
  generalize ht' : t.apply cfg c = t'
  have hm : Moves cfg t c t' := ht' ▸ moves_apply cfg t c
  cases hm with
  | stale hs ha => exact ht' ▸ hp.apply_sightings hwindow hs hs rfl (hobserve _ hs)
  | observed hs ha => exact ht' ▸ hp.apply_sightings hwindow hs hs rfl (hobserve _ hs)
  | setKept hid =>
      rw [apply_setKept (hp.authority ▸ hid)]
      exact hp
  | setChanged hid =>
      rw [apply_setChanged (hp.authority ▸ hid)]
      refine ⟨hempty, hp.best, ?_⟩
      simp only [adopt, hp.authority]
  | bestSet => exact ⟨hp.matrix, rfl, hp.authority⟩
  | forgot => exact ⟨hempty, rfl, rfl⟩

theorem run {A : Call → Call → Prop}
    (hstep : ∀ {c d t u}, A c d → Parallel R t u → Parallel R (t.apply cfg c) (u.apply cfg' d))
    {cs ds : List Call} (hcalls : List.Forall₂ A cs ds) (hp : Parallel R t u) :
    Parallel R (run cfg t cs) (run cfg' u ds) := by
  induction hcalls generalizing t u with
  | nil => exact hp
  | cons hcd _ ih => exact ih (hstep hcd hp)

end Parallel

end Finality.Tracker
