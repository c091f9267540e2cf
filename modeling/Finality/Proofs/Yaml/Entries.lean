import Finality.Ordered
import Finality.Proofs.Except
import Finality.Yaml.Document

/-! # Keys of a mapping

An entry whose key is there already gives that key its value, so the keys of a mapping are pairwise
different (`distinct_of_ofSource`), as keys: equal numbers of several types are one key. -/

namespace Finality.Yaml

open Except (bind_eq_ok_iff)

variable {b b' : Builder} {d : Document} {entries : List (Scalar × Member)}

/-- No two keys of a mapping are the same. -/
def Document.Distinct : Document → Prop
  | .mapping entries => entries.Pairwise fun x y => x.1.same y.1 = false
  | _ => True

namespace Builder

theorem mem_insert {key : Scalar} {value : Member} {e : Scalar × Member}
    (he : e ∈ insert key value entries) : (∃ x ∈ entries, x.1 = e.1) ∨ e.1 = key := by
  induction entries with
  | nil => exact .inr (congrArg Prod.fst (List.mem_singleton.mp he))
  | cons x rest ih =>
      obtain ⟨k, v⟩ := x
      rw [insert] at he
      split at he
      · rcases List.mem_cons.mp he with rfl | he
        · exact .inl ⟨_, List.mem_cons_self, rfl⟩
        · exact .inl ⟨e, List.mem_cons_of_mem _ he, rfl⟩
      · rcases List.mem_cons.mp he with rfl | he
        · exact .inl ⟨_, List.mem_cons_self, rfl⟩
        · exact (ih he).imp_left fun ⟨x, hx, hk⟩ => ⟨x, List.mem_cons_of_mem _ hx, hk⟩

/-- A key is added behind the others only if it is none of them. -/
theorem pairwise_insert (key : Scalar) (value : Member)
    (h : entries.Pairwise fun x y => x.1.same y.1 = false) :
    (insert key value entries).Pairwise fun x y => x.1.same y.1 = false := by
  induction entries with
  | nil => exact List.pairwise_singleton _ _
  | cons x rest ih =>
      obtain ⟨k, v⟩ := x
      obtain ⟨hfirst, hrest⟩ := List.pairwise_cons.mp h
      rw [insert]
      split
      · exact List.pairwise_cons.mpr ⟨hfirst, hrest⟩
      · rename_i hsame
        refine List.pairwise_cons.mpr ⟨fun e he => ?_, ih hrest⟩
        rcases mem_insert he with ⟨y, hy, hk⟩ | hk
        · rw [← hk]
          exact hfirst y hy
        · rw [hk]
          exact Bool.eq_false_iff.mpr hsame

theorem pairwise_foldl_insert (given : List (Scalar × Member)) :
    (given.foldl (fun es e => insert e.1 e.2 es) []).Pairwise fun x y => x.1.same y.1 = false := by
  suffices h : ∀ es : List (Scalar × Member), (es.Pairwise fun x y => x.1.same y.1 = false) →
      (given.foldl (fun es e => insert e.1 e.2 es) es).Pairwise fun x y => x.1.same y.1 = false by
    exact h [] .nil
  induction given with
  | nil => exact fun _ hes => hes
  | cons e given ih => exact fun es hes => ih _ (pairwise_insert e.1 e.2 hes)

theorem visit_distinct {i : Nat} (h : b.visit i = .ok (d, b')) : d.Distinct := by
  unfold visit at h
  split at h
  · obtain ⟨_, -, h⟩ := bind_eq_ok_iff.mp h
    cases h
    trivial
  · obtain ⟨_, -, h⟩ := bind_eq_ok_iff.mp h
    cases h
    trivial
  · obtain ⟨_, -, h⟩ := bind_eq_ok_iff.mp h
    cases h
    trivial
  · split at h
    · obtain ⟨_, -, h⟩ := bind_eq_ok_iff.mp h
      obtain ⟨p, -, h⟩ := bind_eq_ok_iff.mp h
      cases h
      split
      · trivial
      · exact pairwise_foldl_insert _
    · cases h
  · cases h

theorem build_distinct {g : Graph} {root : Nat} (h : build g root = .ok d) : d.Distinct := by
  obtain ⟨⟨m, b⟩, -, h⟩ := bind_eq_ok_iff.mp h
  cases m with
  | scalar s =>
      cases h
      trivial
  | collection =>
      obtain ⟨⟨d', b'⟩, hvisit, h⟩ := bind_eq_ok_iff.mp h
      obtain ⟨_, -, h⟩ := bind_eq_ok_iff.mp h
      cases h
      exact visit_distinct hvisit

end Builder

/-- A document is read in three stages: its tokens, the graph of its nodes, their values. -/
theorem Document.ofSource_eq_some_iff {source : Source} :
    Document.ofSource source = .ok (some d) ↔ ∃ root g,
      Graph.ofTokens (tokens source).1 (tokens source).2 = .ok (some (root, g)) ∧
        Builder.build g root = .ok d := by
  unfold Document.ofSource
  rw [bind_eq_ok_iff]
  constructor
  · rintro ⟨x, hx, h⟩
    cases x with
    | none => cases h
    | some p =>
        have h : (Builder.build p.2 p.1).map some = .ok (some d) := h
        cases hd : Builder.build p.2 p.1 with
        | error f =>
            rw [hd] at h
            cases h
        | ok d' =>
            rw [hd] at h
            cases h
            exact ⟨p.1, p.2, hx, hd⟩
  · rintro ⟨root, g, hgraph, hd⟩
    refine ⟨_, hgraph, ?_⟩
    show (Builder.build g root).map some = .ok (some d)
    rw [hd]
    rfl

/-- **The keys of a document are distinct.** -/
theorem Document.distinct_of_ofSource {source : Source}
    (h : Document.ofSource source = .ok (some d)) : d.Distinct := by
  obtain ⟨_, _, -, hd⟩ := ofSource_eq_some_iff.mp h
  exact Builder.build_distinct hd

theorem Document.nodup_keys (h : (Document.mapping entries).Distinct) :
    (Ordered.keys entries).Nodup := by
  rw [Ordered.keys, List.Nodup, List.pairwise_map]
  refine List.Pairwise.imp (fun {x y} hdifferent heq => ?_) h
  rw [heq, Scalar.same_refl] at hdifferent
  cases hdifferent

end Finality.Yaml
