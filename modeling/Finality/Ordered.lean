/-! # Maps in insertion order

A finite map as the list of its entries, oldest key first.  A key keeps the place at which it was
first inserted; writing it again changes its value only.  Reading is `List.lookup`.

The one writing operation is `alter`; its laws are `lookup_alter_self`, `lookup_alter_ne`,
`alter_alter_self`, `alter_eq_self` and `keys_alter`, from which follow `mem_keys_alter` and
`nodup_keys_alter`. -/

namespace Finality.Ordered

variable {κ α : Type} [BEq κ] [LawfulBEq κ]

/-- Keys, oldest first. -/
def keys (m : List (κ × α)) : List κ := m.map (·.1)

/-- Changes the value under a key.  An absent key is inserted behind all others. -/
def alter (k : κ) (f : Option α → α) : List (κ × α) → List (κ × α)
  | [] => [(k, f none)]
  | (j, a) :: rest => if k == j then (j, f (some a)) :: rest else (j, a) :: alter k f rest

/-- Sets the value under a key. -/
def insert (k : κ) (a : α) (m : List (κ × α)) : List (κ × α) := alter k (fun _ => a) m

/-- Map of the entries of a list, of which later ones overwrite earlier ones. -/
def ofList (entries : List (κ × α)) : List (κ × α) :=
  entries.foldl (fun m e => insert e.1 e.2 m) []

omit [LawfulBEq κ] in
@[simp] theorem alter_nil (k : κ) (f : Option α → α) : alter k f [] = [(k, f none)] := rfl

theorem lookup_alter_self (k : κ) (f : Option α → α) (m : List (κ × α)) :
    (alter k f m).lookup k = some (f (m.lookup k)) := by
  induction m with
  | nil => simp
  | cons e m ih =>
    obtain ⟨j, a⟩ := e
    by_cases h : k == j
    · simp [alter, h, List.lookup_cons]
    · simp [alter, h, List.lookup_cons, ih]

theorem lookup_alter_ne {k j : κ} (h : (j == k) = false) (f : Option α → α) (m : List (κ × α)) :
    (alter k f m).lookup j = m.lookup j := by
  induction m with
  | nil => simp [List.lookup_cons, h]
  | cons e m ih =>
    obtain ⟨i, a⟩ := e
    by_cases hk : k == i
    · obtain rfl := eq_of_beq hk
      simp [alter, List.lookup_cons, h]
    · simp [alter, hk, List.lookup_cons, ih]

theorem alter_alter_self (k : κ) (f g : Option α → α) (m : List (κ × α)) :
    alter k g (alter k f m) = alter k (fun a => g (some (f a))) m := by
  induction m with
  | nil => simp [alter]
  | cons e m ih =>
    obtain ⟨j, a⟩ := e
    by_cases h : k == j
    · simp [alter, h]
    · simp [alter, h, ih]

omit [LawfulBEq κ] in
theorem alter_eq_self {k : κ} {f : Option α → α} {m : List (κ × α)} {a : α}
    (h : m.lookup k = some a) (hf : f (some a) = a) : alter k f m = m := by
  induction m with
  | nil => simp at h
  | cons e m ih =>
    obtain ⟨j, b⟩ := e
    by_cases hk : k == j
    · obtain rfl : b = a := by simpa [List.lookup_cons, hk] using h
      simp [alter, hk, hf]
    · have h : m.lookup k = some a := by simpa [List.lookup_cons, hk] using h
      simp [alter, hk, ih h]

omit [LawfulBEq κ] in
theorem keys_alter (k : κ) (f : Option α → α) (m : List (κ × α)) :
    keys (alter k f m) = if (m.lookup k).isSome then keys m else keys m ++ [k] := by
  induction m with
  | nil => simp [keys]
  | cons e m ih =>
    obtain ⟨j, a⟩ := e
    by_cases h : k == j
    · simp [alter, h, keys, List.lookup_cons]
    · simp only [alter, h, List.lookup_cons, keys, List.map_cons, Bool.false_eq_true, if_false]
      simp only [keys] at ih
      rw [ih]
      split <;> simp_all

theorem isSome_lookup_iff {k : κ} {m : List (κ × α)} :
    (m.lookup k).isSome ↔ k ∈ keys m := by
  induction m with
  | nil => simp [keys]
  | cons e m ih =>
    obtain ⟨j, a⟩ := e
    by_cases h : k == j
    · obtain rfl := eq_of_beq h
      simp [keys]
    · have hne : k ≠ j := fun hkj => h (beq_iff_eq.2 hkj)
      have ih : (m.lookup k).isSome ↔ k ∈ m.map (·.1) := ih
      simp [List.lookup_cons, h, keys, hne, ih]

/-- Writing inserts the key, if it is missing. -/
theorem mem_keys_alter {k j : κ} {f : Option α → α} {m : List (κ × α)} :
    j ∈ keys (alter k f m) ↔ j = k ∨ j ∈ keys m := by
  rw [keys_alter]
  split
  · rename_i h
    have hk : k ∈ keys m := isSome_lookup_iff.1 h
    exact ⟨Or.inr, fun hj => hj.elim (fun e => e ▸ hk) id⟩
  · rw [List.mem_append, List.mem_singleton, or_comm]

theorem nodup_keys_alter {k : κ} {f : Option α → α} {m : List (κ × α)} (hm : (keys m).Nodup) :
    (keys (alter k f m)).Nodup := by
  rw [keys_alter]
  split
  · exact hm
  · rename_i h
    have hk : k ∉ keys m := fun hk => h (isSome_lookup_iff.2 hk)
    refine List.nodup_append.2 ⟨hm, by simp, fun a ha b hb => ?_⟩
    rw [List.mem_singleton] at hb
    exact fun hab => hk (hb ▸ hab ▸ ha)

theorem lookup_filter (p : κ → Bool) (k : κ) (m : List (κ × α)) :
    (m.filter fun e => p e.1).lookup k = if p k then m.lookup k else none := by
  induction m with
  | nil => simp
  | cons e m ih =>
    obtain ⟨j, a⟩ := e
    rw [List.filter_cons]
    by_cases h : k == j
    · obtain rfl := eq_of_beq h
      cases hp : p k with
      | true => simp
      | false => simp only [hp, Bool.false_eq_true, if_false] at ih ⊢; exact ih
    · cases hp : p j <;> simp [List.lookup_cons, h, ih]

end Finality.Ordered
