import Mathlib.Data.List.Induction
import Mathlib.Tactic.Common
import Finality.Ordered

/-! # Maps with distinct keys

A map in insertion order is read by looking up the first entry of a key, and also entry by entry.
Both come to the same if no key occurs twice: then the entry that is found is the one that is listed
(`lookup_eq_some_iff_mem`), and the map that is made of the entries is the list of them
(`ofList_eq_self`).

A write commutes with a change of all values (`map_alter`, `map_eq_alter`), and leaves alone what is
listed of the other keys (`filter_flatMap_alter`). -/

namespace Finality.Ordered

variable {κ α : Type} [BEq κ] [LawfulBEq κ] {k : κ} {a : α} {f : Option α → α} {m : List (κ × α)}

theorem mem_alter {e : κ × α} (he : e ∈ alter k f m) : e ∈ m ∨ e = (k, f (m.lookup k)) := by
  induction m with
  | nil => exact Or.inr (List.mem_singleton.mp he)
  | cons e' m ih =>
      obtain ⟨j, a⟩ := e'
      by_cases hk : k == j
      · obtain rfl := eq_of_beq hk
        simp only [alter, hk, if_true, List.mem_cons] at he
        rw [List.lookup_cons_self]
        exact he.symm.imp (List.mem_cons_of_mem _) id
      · simp only [alter, hk, Bool.false_eq_true, if_false, List.mem_cons] at he
        rw [List.lookup_cons, Bool.eq_false_iff.mpr hk]
        rcases he with rfl | he
        · exact Or.inl List.mem_cons_self
        · exact (ih he).imp (List.mem_cons_of_mem _) id

/-- What holds of all entries, and of the default, holds of the value of a key. -/
theorem getD_lookup_of_forall {P : κ → α → Prop} {d : α} (hm : ∀ e ∈ m, P e.1 e.2)
    (hd : m.lookup k = none → P k d) : P k ((m.lookup k).getD d) := by
  induction m with
  | nil => exact hd rfl
  | cons e m ih =>
      obtain ⟨j, a⟩ := e
      obtain ⟨ha, hm⟩ := List.forall_mem_cons.mp hm
      rw [List.lookup_cons] at hd ⊢
      by_cases hkj : k = j
      · subst hkj
        simpa using ha
      · rw [beq_false_of_ne hkj] at hd ⊢
        exact ih hm hd

theorem insert_of_not_mem (hk : k ∉ keys m) : insert k a m = m ++ [(k, a)] := by
  induction m with
  | nil => rfl
  | cons e m ih =>
      obtain ⟨j, b⟩ := e
      have hne : (k == j) = false := by
        rw [beq_eq_false_iff_ne]
        rintro rfl
        exact hk List.mem_cons_self
      have hrest : k ∉ keys m := fun hmem => hk (List.mem_cons_of_mem _ hmem)
      have ih := ih hrest
      simp only [insert] at ih ⊢
      rw [alter, hne, ih]
      rfl

theorem mem_of_mem_ofList {e : κ × α} (he : e ∈ ofList m) : e ∈ m := by
  induction m using List.reverseRecOn with
  | nil => exact he
  | append_singleton m last ih =>
      rw [ofList, List.foldl_append] at he
      obtain he | rfl := mem_alter he
      · exact List.mem_append_left _ (ih he)
      · exact List.mem_append_right _ List.mem_cons_self

theorem ofList_eq_self (hm : (keys m).Nodup) : ofList m = m := by
  induction m using List.reverseRecOn with
  | nil => rfl
  | append_singleton m e ih =>
      rw [keys, List.map_append, List.nodup_append] at hm
      obtain ⟨hfront, -, hapart⟩ := hm
      have hnew : e.1 ∉ keys m := fun hmem => hapart e.1 hmem e.1 (by simp) rfl
      have ih := ih hfront
      rw [ofList] at ih ⊢
      rw [List.foldl_append, ih]
      exact insert_of_not_mem hnew

theorem lookup_eq_some_iff_mem (hm : (keys m).Nodup) : m.lookup k = some a ↔ (k, a) ∈ m := by
  induction m with
  | nil => simp
  | cons e m ih =>
      obtain ⟨j, b⟩ := e
      obtain ⟨hnot, hm⟩ := List.nodup_cons.mp hm
      rw [List.lookup_cons, List.mem_cons]
      by_cases hkj : k = j
      · subst hkj
        have hrest : (k, a) ∉ m := fun hmem => hnot (List.mem_map.mpr ⟨_, hmem, rfl⟩)
        simp [hrest, eq_comm]
      · rw [beq_false_of_ne hkj]
        simp [ih hm, hkj]

theorem mem_alter_of_nodup (hm : (keys m).Nodup) {e : κ × α} (he : e ∈ alter k f m) :
    e ∈ m ∧ e.1 ≠ k ∨ e = (k, f (m.lookup k)) := by
  by_cases hk : e.1 = k
  · obtain ⟨j, a⟩ := e
    obtain rfl : j = k := hk
    have hwritten := (lookup_eq_some_iff_mem (nodup_keys_alter hm)).mpr he
    rw [lookup_alter_self, Option.some_inj] at hwritten
    exact Or.inr (Prod.ext rfl hwritten.symm)
  · exact (mem_alter he).imp_left fun hmem => ⟨hmem, hk⟩

section map

variable {β γ : Type} {g g' : α → β}

omit [LawfulBEq κ] in
theorem lookup_map (g : α → β) (k : κ) (m : List (κ × α)) :
    (m.map fun e => (e.1, g e.2)).lookup k = (m.lookup k).map g := by
  induction m with
  | nil => rfl
  | cons e m ih =>
      rw [List.map_cons, List.lookup_cons, List.lookup_cons, ih]
      cases k == e.1 <;> rfl

omit [LawfulBEq κ] in
/-- Writing and then mapping is mapping and then writing what is mapped. -/
theorem map_alter {F : Option β → β} (h : g (f (m.lookup k)) = F ((m.lookup k).map g)) :
    (alter k f m).map (fun e => (e.1, g e.2)) = alter k F (m.map fun e => (e.1, g e.2)) := by
  induction m with
  | nil => exact congrArg (fun b => [(k, b)]) h
  | cons e m ih =>
      obtain ⟨j, a⟩ := e
      rw [List.lookup_cons] at h
      by_cases hk : k == j
      · simp only [hk] at h
        simp only [alter, hk, if_true, List.map_cons, h, Option.map_some]
      · rw [Bool.eq_false_iff.mpr hk] at h
        simp only [alter, hk, Bool.false_eq_true, if_false, List.map_cons, ih h]

/-- Mapping in two ways that differ at one key only is writing that key. -/
theorem map_eq_alter {F : Option β → β} (hm : (keys m).Nodup) (hk : m.lookup k = some a)
    (hself : g' a = F (some (g a))) (hother : ∀ e ∈ m, e.1 ≠ k → g' e.2 = g e.2) :
    m.map (fun e => (e.1, g' e.2)) = alter k F (m.map fun e => (e.1, g e.2)) := by
  induction m with
  | nil => cases hk
  | cons e m ih =>
      obtain ⟨j, b⟩ := e
      obtain ⟨hnot, hm⟩ := List.nodup_cons.mp hm
      obtain ⟨hhead, hrest⟩ := List.forall_mem_cons.mp hother
      rw [List.lookup_cons] at hk
      by_cases hkj : k = j
      · subst hkj
        rw [beq_self_eq_true] at hk
        obtain rfl := Option.some_inj.mp hk
        have hsame : m.map (fun e => (e.1, g' e.2)) = m.map fun e => (e.1, g e.2) := by
          refine List.map_congr_left fun e he => Prod.ext rfl (hrest e he fun heq => ?_)
          exact hnot (List.mem_map.mpr ⟨e, he, heq⟩)
        rw [List.map_cons, List.map_cons, alter, beq_self_eq_true, if_pos rfl, hsame, hself]
      · rw [beq_false_of_ne hkj] at hk
        rw [List.map_cons, List.map_cons, alter, beq_false_of_ne hkj, ih hm hk hrest,
          hhead (Ne.symm hkj)]
        rfl

omit [LawfulBEq κ] in
/-- What is listed of a map is listed after writing as before, but for what is listed of the written
entry. -/
theorem filter_flatMap_alter {list : κ × α → List γ} {p : γ → Bool}
    (hnew : (list (k, f none)).filter p = [])
    (hold : ∀ j a, (k == j) = true → (list (j, f (some a))).filter p = (list (j, a)).filter p) :
    ((alter k f m).flatMap list).filter p = (m.flatMap list).filter p := by
  induction m with
  | nil => simpa using hnew
  | cons e m ih =>
      obtain ⟨j, a⟩ := e
      by_cases hk : k == j
      · simp only [alter, hk, if_true, List.flatMap_cons, List.filter_append, hold j a hk]
      · simp only [alter, hk, Bool.false_eq_true, if_false, List.flatMap_cons, List.filter_append,
          ih]

end map

end Finality.Ordered
