import Mathlib.Tactic.Common

/-! # Chains of steps that can fail

A chain yields a result exactly if each of its steps yields one, and it fails exactly if one of its
steps fails, those before it having yielded theirs.  So what is true of all failures of its steps is
true of all failures of the chain (`FailsOnly`), and what each step ensures of its result the next
one may rely on (`Ensures`). -/

namespace List

variable {m : Type → Type} [Monad m] [LawfulMonad m] {α β : Type} {as : List α}

theorem mapM_eq_pure_map {f : α → m β} {g : α → β} (h : ∀ a ∈ as, f a = pure (g a)) :
    as.mapM f = pure (as.map g) := by
  induction as with
  | nil => rfl
  | cons a as ih =>
      obtain ⟨ha, has⟩ := List.forall_mem_cons.mp h
      rw [List.mapM_cons, ha, ih has, pure_bind, pure_bind, List.map_cons]

/-- What is read from each element as it was written is read from all. -/
theorem mapM_map_eq_pure {read : β → m α} {write : α → β}
    (h : ∀ a ∈ as, read (write a) = pure a) : (as.map write).mapM read = pure as := by
  have hread : as.mapM (read ∘ write) = pure (as.map id) := mapM_eq_pure_map h
  rw [List.mapM_map, hread, List.map_id]

theorem mapM_eq_none {f : α → Option β} {a : α} (ha : a ∈ as) (h : f a = none) :
    as.mapM f = none := by
  induction as with
  | nil => cases ha
  | cons b as ih =>
      rw [List.mapM_cons]
      obtain rfl | ha := List.mem_cons.mp ha
      · rw [h]
        rfl
      · rw [ih ha]
        cases f b <;> rfl

end List

namespace Except

variable {α β ε ε' : Type} {x : Except ε α}

theorem bind_eq_ok_iff {f : α → Except ε β} {b : β} :
    x >>= f = .ok b ↔ ∃ a, x = .ok a ∧ f a = .ok b := by
  cases x <;> simp [bind, Except.bind]

theorem bind_eq_error_iff {f : α → Except ε β} {e : ε} :
    x >>= f = .error e ↔ x = .error e ∨ ∃ a, x = .ok a ∧ f a = .error e := by
  cases x <;> simp [bind, Except.bind]

theorem mapError_eq_ok_iff {f : ε → ε'} {a : α} : x.mapError f = .ok a ↔ x = .ok a := by
  cases x <;> simp [Except.mapError]

theorem mapError_eq_error_iff {f : ε → ε'} {e : ε'} :
    x.mapError f = .error e ↔ ∃ d, x = .error d ∧ f d = e := by
  cases x <;> simp [Except.mapError]

/-! ### What failures have in common -/

/-- All failures have a property. -/
def FailsOnly (P : ε → Prop) (x : Except ε α) : Prop := ∀ e, x = .error e → P e

namespace FailsOnly

variable {P : ε → Prop}

theorem ok {a : α} : FailsOnly P (.ok a : Except ε α) := nofun

theorem error {e : ε} (h : P e) : FailsOnly P (.error e : Except ε α) := by
  rintro _ ⟨⟩
  exact h

theorem bind {f : α → Except ε β} (hx : x.FailsOnly P) (hf : ∀ a, (f a).FailsOnly P) :
    (x >>= f).FailsOnly P := by
  intro e h
  obtain h | ⟨a, -, h⟩ := bind_eq_error_iff.mp h
  · exact hx e h
  · exact hf a e h

theorem map {f : α → β} (hx : x.FailsOnly P) : (x.map f).FailsOnly P := by
  cases x with
  | error e => exact .error (hx e rfl)
  | ok a => exact .ok

theorem ite {c : Prop} [Decidable c] {y : Except ε α} (hx : x.FailsOnly P) (hy : y.FailsOnly P) :
    (if c then x else y).FailsOnly P := by
  split <;> assumption

theorem mapM {f : α → Except ε β} (hf : ∀ a, (f a).FailsOnly P) (as : List α) :
    (as.mapM f).FailsOnly P := by
  induction as with
  | nil => exact .ok
  | cons a as ih =>
      rw [List.mapM_cons]
      exact .bind (hf a) fun _ => .bind ih fun _ => .ok

theorem mapError {ε' : Type} {Q : ε' → Prop} {f : ε → ε'} (hf : ∀ e, Q (f e)) :
    (x.mapError f).FailsOnly Q := by
  cases x with
  | error e => exact .error (hf e)
  | ok a => exact .ok

end FailsOnly

/-! ### What results have in common -/

/-- All failures have a property, and all results have one. -/
structure Ensures (P : ε → Prop) (Q : α → Prop) (x : Except ε α) : Prop where
  failsOnly : x.FailsOnly P
  yields : ∀ a, x = .ok a → Q a

theorem FailsOnly.ensures {P : ε → Prop} (h : x.FailsOnly P) : x.Ensures P fun _ => True :=
  ⟨h, fun _ _ => trivial⟩

namespace Ensures

variable {P : ε → Prop} {Q : α → Prop} {R : β → Prop}

theorem ok {a : α} (h : Q a) : Ensures P Q (.ok a : Except ε α) where
  failsOnly := .ok
  yields _ hb := by cases hb; exact h

theorem error {e : ε} (h : P e) : Ensures P Q (.error e : Except ε α) where
  failsOnly := .error h
  yields _ hb := by cases hb

theorem bind {f : α → Except ε β} (hx : x.Ensures P Q) (hf : ∀ a, Q a → (f a).Ensures P R) :
    (x >>= f).Ensures P R := by
  cases x with
  | error e => exact .error (hx.failsOnly e rfl)
  | ok a => exact hf a (hx.yields a rfl)

theorem ite {c : Prop} [Decidable c] {y : Except ε α} (hx : x.Ensures P Q) (hy : y.Ensures P Q) :
    (if c then x else y).Ensures P Q := by
  split <;> assumption

theorem foldlM {f : β → α → Except ε β} (hf : ∀ b a, R b → (f b a).Ensures P R) (as : List α)
    {b : β} (hb : R b) : (as.foldlM f b).Ensures P R := by
  induction as generalizing b with
  | nil => exact .ok hb
  | cons a as ih => exact .bind (hf b a hb) fun _ => ih

end Ensures

end Except
