import Mathlib.Data.Finset.Card
import Finality.Proofs.Yaml.Graph
import Finality.Yaml.Document

/-! # From nodes to a value

What can be wrong with a document when its nodes are valued (`Builder.build_ensures`): a scalar has
a type but no value of it, or a tag makes a scalar of a mapping for which this leads nowhere.  All
else is malformed.

Merging puts entries of mappings into mappings and makes no new texts (`Graph.Merged`), so what is
true of the nodes that were read stays true during the visit (`Builder.Visits`).  Every collection
waits once, so there are no more turns than nodes, and the visit does not end early. -/

namespace Finality.Yaml

open Except (Ensures FailsOnly)

/-! ### Scalars -/

theorem Tag.isCollection_of_isScalar {tag : Tag} (h : tag.isScalar = true) :
    tag.isCollection = false := by
  cases tag <;> first | rfl | cases h

namespace Scalar

/-- Tags of the scalars that need a text of a certain form.  Octets do too, but a text that is not
Base64 is merely malformed. -/
def isDemanding (tag : Tag) : Bool := [Tag.bool, .int, .float, .timestamp].contains tag

theorem integerIn_fault (base : Nat) (cs : List Char) :
    (integerIn base cs).FailsOnly (· ≠ .malformed) :=
  .mapError fun e => by cases e <;> simp

theorem signAndBody_fault (s : String) : (signAndBody s).FailsOnly (· ≠ .malformed) := by
  unfold signAndBody
  split
  · exact .error (by simp)
  · exact .ok

theorem integer_fault (s : String) : (integer s).FailsOnly (· ≠ .malformed) := by
  refine .bind (signAndBody_fault s) fun _ => .bind ?_ fun _ => .ok
  unfold unsignedInteger
  split
  · exact .error (by simp)
  · exact .ok
  · exact integerIn_fault _ _
  · exact integerIn_fault _ _
  · exact integerIn_fault _ _
  · exact .ite (.bind (.mapM (integerIn_fault 10) _) fun _ => .ok) (integerIn_fault _ _)

theorem decimal_fault (cs : List Char) : (decimal cs).FailsOnly (· ≠ .malformed) := by
  unfold decimal
  split
  · exact .ok
  · exact .error (by simp)

theorem sexagesimal_fault (weight : Nat) (sum : Decimal.Binary64) (places : List Decimal.Binary64) :
    (sexagesimal weight sum places).FailsOnly (· ≠ .malformed) := by
  induction places generalizing weight sum with
  | nil => exact .ok
  | cons x xs ih =>
      unfold sexagesimal
      split
      · exact .error (by simp)
      · exact ih _ _

theorem fraction_fault (s : String) : (fraction s).FailsOnly (· ≠ .malformed) := by
  refine .bind (signAndBody_fault s) fun _ => .ite .ok (.bind ?_ fun _ => .ok)
  refine .ite .ok (.ite ?_ (decimal_fault _))
  exact .bind (.mapM decimal_fault _) fun _ => sexagesimal_fault _ _ _

theorem truth_fault (s : String) : (truth s).FailsOnly (· ≠ .malformed) :=
  .ite .ok (.ite .ok (.error (by simp)))

theorem timestamp_fault (cs : List Char) : (Timestamp.read cs).FailsOnly (· ≠ .malformed) := by
  unfold Timestamp.read
  split
  · exact .error (by simp)
  · exact .mapError (by simp)

/-- A text that is not a value of its type has a fault of its own kind, or it is not Base64. -/
theorem ofTagged_fault {tag : Tag} {s : String} {f : Fault} (hscalar : tag.isScalar = true)
    (h : ofTagged tag s = .error f) :
    if isDemanding tag then f ≠ .malformed else f = .malformed := by
  cases tag with
  | null => cases h
  | text => cases h
  | bool => exact FailsOnly.map (truth_fault s) f h
  | int => exact FailsOnly.map (integer_fault s) f h
  | float => exact fraction_fault s f h
  | timestamp => exact FailsOnly.map (timestamp_fault _) f h
  | binary =>
      refine FailsOnly.map (P := (· = .malformed)) ?_ f h
      unfold octets
      refine .ite (.error rfl) ?_
      split
      · exact .ok
      · exact .error rfl
  | _ => cases hscalar

end Scalar

/-! ### Values -/

/-- Faults of the value of a document that has some tokens. -/
inductive IsValueFault (ts : List Token) : Fault → Prop where
  | malformed : IsValueFault ts .malformed
  /-- A scalar has a type, by its form or by a tag, but no value of it. -/
  | scalar {tag : Tag} {text : String} {f : Fault} : Scalar.isDemanding tag = true →
      IsText ts text → IsScalarTag ts text tag → Scalar.ofTagged tag text = .error f →
      IsValueFault ts f
  /-- A tag asks for a date where a mapping stands. -/
  | dateOfMapping : IsTagged ts → IsValueFault ts .dateOfMapping
  /-- A mapping that stands for one of its values, by a tag, is that value. -/
  | endless : IsTagged ts → IsValueFault ts .endless

variable {ts : List Token}

theorem IsValueFault.ofTagged {tag : Tag} {text : String} {f : Fault}
    (hscalar : tag.isScalar = true) (htext : IsText ts text) (htag : IsScalarTag ts text tag)
    (h : Scalar.ofTagged tag text = .error f) : IsValueFault ts f := by
  have hfault := Scalar.ofTagged_fault hscalar h
  split at hfault
  · rename_i hdemanding
    exact .scalar hdemanding htext htag h
  · exact hfault ▸ .malformed

theorem IsCollectionTag.isTagged {tag : Tag} (h : IsCollectionTag ts tag)
    (hscalar : tag.isCollection = false) : IsTagged ts := by
  refine h.resolve_left fun hcollection => ?_
  rw [hscalar] at hcollection
  cases hcollection

/-- A node that has entries. -/
def Node.IsMapping : Node → Prop
  | .mapping .. => True
  | _ => False

/-- The key `=` is a text. -/
theorem Node.IsWritten.retag {n : Node} (h : n.IsWritten ts) (hvalue : n.tag = .value) :
    (n.retag .text).IsWritten ts := by
  have hscalar : n.tag.isCollection = false := by rw [hvalue]; rfl
  cases n with
  | scalar tag text => exact ⟨h.1, .inl rfl⟩
  | sequence tag items => exact .inr (IsCollectionTag.isTagged h hscalar)
  | mapping tag entries => exact .inr (IsCollectionTag.isTagged h hscalar)

namespace Graph

variable {g g' g'' : Graph} {i : Nat}

theorem isMapping_of_entries? {entries : List (Nat × Nat)} (h : g.entries? i = some entries) :
    (g.node i).IsMapping := by
  unfold entries? at h
  split at h
  · rename_i hnode
    rw [hnode]
    trivial
  · cases h

/-- A graph after some merges: it has as many nodes, and mappings are mappings. -/
structure Merged (ts : List Token) (g g' : Graph) : Prop where
  written : g'.IsWritten ts
  size_eq : g'.nodes.size = g.nodes.size
  isMapping : ∀ i, (g.node i).IsMapping → (g'.node i).IsMapping

namespace Merged

theorem refl (hg : g.IsWritten ts) : Merged ts g g := ⟨hg, rfl, fun _ h => h⟩

theorem trans (h : Merged ts g g') (h' : Merged ts g' g'') : Merged ts g g'' :=
  ⟨h'.written, h'.size_eq.trans h.size_eq, fun i hi => h'.isMapping i (h.isMapping i hi)⟩

theorem set (hg : g.IsWritten ts) {n : Node} (hn : n.IsWritten ts)
    (hmapping : (g.node i).IsMapping → n.IsMapping) : Merged ts g (g.set i n) where
  written := hg.set i hn
  size_eq := Array.size_setIfInBounds
  isMapping j hj := by
    rw [node_set]
    split
    · rename_i hij
      subst hij
      split
      · exact hmapping hj
      · -- there is no such node
        rename_i hi
        rwa [node, Array.getElem?_eq_none (Nat.le_of_not_lt hi)] at hj
    · exact hj

theorem settleValueKeys (hg : g.IsWritten ts) (entries : List (Nat × Nat)) :
    Merged ts g (g.settleValueKeys entries) := by
  refine List.foldlRecOn entries _ (refl hg) fun g' hg' e _ => ?_
  split
  · rename_i hvalue
    have htag : (g'.node e.1).tag = .value := by simpa [tagOf] using hvalue
    refine hg'.trans (set hg'.written ((hg'.written e.1).retag htag) ?_)
    cases g'.node e.1 <;> exact id
  · exact hg'

theorem setEntries (hg : g.IsWritten ts) (hi : (g.node i).IsMapping)
    (entries : List (Nat × Nat)) : Merged ts g (g.setEntries i entries) := by
  refine set hg ?_ fun _ => trivial
  have hwritten := hg i
  show IsCollectionTag ts (g.node i).tag
  cases hnode : g.node i with
  | mapping tag _ => rwa [hnode] at hwritten
  | _ => rw [hnode] at hi; cases hi

end Merged

/-- Merging puts entries of mappings into mappings, and nothing else. -/
theorem flatten_ensures (hg : g.IsWritten ts) (depth i : Nat) :
    (flatten depth i g).Ensures (IsValueFault ts) (Merged ts g) := by
  induction depth generalizing i g with
  | zero => exact .error .malformed
  | succ depth ih =>
      unfold flatten
      extract_lets block merge
      split
      · exact .error .malformed
      rename_i entries hentries
      have hi := isMapping_of_entries? hentries
      have hblock : ∀ state j, Merged ts g state.1 →
          (block state j).Ensures (IsValueFault ts) fun state => Merged ts g state.1 :=
        fun _ _ hg => .bind (ih hg.written _) fun _ hg' => .ok (hg.trans hg')
      have hmerge : ∀ state e, Merged ts g state.1 →
          (merge state e).Ensures (IsValueFault ts) fun state => Merged ts g state.1 := by
        rintro ⟨g', merged⟩ e hg
        refine .ite (.ok hg) ?_
        extract_lets begun finish
        have hbegun : Merged ts g begun := hg.trans (.setEntries hg.written (hg.isMapping i hi) _)
        have hfinish : ∀ js, (finish js).Ensures (IsValueFault ts) fun state =>
            Merged ts g state.1 :=
          fun js => .bind (.foldlM hblock js hbegun) fun _ hg => .ok hg
        split
        · exact hfinish [e.2]
        · exact hfinish _
        · exact .error .malformed
      refine .bind (.foldlM hmerge _ (.settleValueKeys hg _)) fun state hstate => .ok ?_
      exact hstate.trans (.setEntries hstate.written (hstate.isMapping i hi) _)

theorem scalarText_ensures (hg : g.IsWritten ts) (htagged : IsTagged ts) (i depth : Nat) :
    (g.scalarText i depth).Ensures (IsValueFault ts) (IsText ts) := by
  induction depth generalizing i with
  | zero => exact .error (.endless htagged)
  | succ depth ih =>
      unfold scalarText
      split
      · rename_i hnode
        have hi := hg i
        rw [hnode] at hi
        exact .ok hi.1
      · exact .error .malformed
      · split
        · exact ih _
        · exact .error .malformed

end Graph

namespace Builder

variable {b : Builder} {size most : Nat}

theorem scalar_ensures (hb : b.graph.IsWritten ts) (i : Nat) :
    (b.scalar i).Ensures (IsValueFault ts) fun _ => True := by
  unfold scalar
  extract_lets tag
  split
  · exact .error .malformed
  rename_i hscalar
  replace hscalar : tag.isScalar = true := by simpa using hscalar
  have hi := hb i
  have htag : tag = (b.graph.node i).tag := rfl
  clear_value tag
  cases hnode : b.graph.node i with
  | scalar nodeTag text =>
      rw [hnode] at hi htag
      subst htag
      refine .bind (Q := (· = text)) ?_ ?_
      · simpa only [Graph.scalarText, hnode] using .ok rfl
      · rintro _ rfl
        refine FailsOnly.ensures ?_
        split
        · contradiction
        · exact .map fun f hf => .ofTagged hscalar hi.1 hi.2 hf
  | sequence _ _ =>
      simpa only [Graph.scalarText, hnode] using .error .malformed
  | mapping nodeTag _ =>
      rw [hnode] at hi htag
      subst htag
      have htagged : IsTagged ts := hi.isTagged (Tag.isCollection_of_isScalar hscalar)
      refine .bind (Graph.scalarText_ensures hb htagged _ _) fun text htext => ?_
      split
      · exact .error (.dateOfMapping htagged)
      · exact FailsOnly.ensures (.map fun f hf =>
          .ofTagged hscalar htext (.inr (.inr htagged)) hf)

/-- Nodes that have not been reached. -/
def unreached (b : Builder) : Finset Nat :=
  (Finset.range b.graph.nodes.size).filter fun i => (b.values.lookup i).isNone

/-- A visit of a graph of some size whose nodes are written, with a bound for the collections that
wait or have not been reached. -/
structure Visits (ts : List Token) (size most : Nat) (b : Builder) : Prop where
  written : b.graph.IsWritten ts
  size_eq : b.graph.nodes.size = size
  bound : b.unreached.card + b.waiting.length ≤ most

theorem unreached_note (b : Builder) (i : Nat) (m : Member) :
    (b.note i m).unreached = b.unreached.erase i := by
  ext j
  rw [unreached, unreached, Finset.mem_erase, Finset.mem_filter, Finset.mem_filter]
  by_cases hij : j = i
  · subst hij
    simp [note]
  · have hlookup : (b.note i m).values.lookup j = b.values.lookup j := by
      rw [note, List.lookup_cons, beq_false_of_ne hij]
    rw [hlookup]
    exact ⟨fun h => ⟨hij, h⟩, And.right⟩

/-- A node with a tag for collections is there. -/
theorem lt_size_of_isCollection {g : Graph} {i : Nat} (h : (g.tagOf i).isCollection = true) :
    i < g.nodes.size := by
  by_contra hi
  rw [Graph.tagOf, Graph.node, Array.getElem?_eq_none (Nat.le_of_not_lt hi)] at h
  cases h

theorem reach_ensures (hb : b.Visits ts size most) (i : Nat) :
    (b.reach i).Ensures (IsValueFault ts) fun m => m.2.Visits ts size most := by
  unfold reach
  split
  · exact .ok hb
  rename_i hunreached
  split
  · rename_i hcollection
    refine .ok ⟨hb.written, hb.size_eq, ?_⟩
    have hi : i ∈ b.unreached :=
      Finset.mem_filter.mpr ⟨Finset.mem_range.mpr (lt_size_of_isCollection hcollection), by
        rw [hunreached]; rfl⟩
    have hcard := Finset.card_erase_lt_of_mem hi
    have hbound := hb.bound
    show (b.note i .collection).unreached.card + (b.waiting ++ [i]).length ≤ most
    rw [unreached_note, List.length_append, List.length_singleton]
    omega
  · refine .bind (scalar_ensures hb.written i) fun s _ => .ok ⟨hb.written, hb.size_eq, ?_⟩
    rw [unreached_note]
    exact (Nat.add_le_add_right (Finset.card_erase_le) _).trans hb.bound

theorem reachAll_ensures (hb : b.Visits ts size most) (is : List Nat) :
    (b.reachAll is).Ensures (IsValueFault ts) (Visits ts size most) :=
  .foldlM (fun _ i hb => .bind (reach_ensures hb i) fun _ hb => .ok hb) is hb

theorem reachEntries_ensures (hb : b.Visits ts size most) (entries : List (Nat × Nat)) :
    (b.reachEntries entries).Ensures (IsValueFault ts) fun m => m.2.Visits ts size most := by
  induction entries generalizing b with
  | nil => exact .ok hb
  | cons e entries ih =>
      unfold reachEntries
      refine .bind (reach_ensures hb _) fun m hm => ?_
      split
      · exact .error .malformed
      · exact .bind (reach_ensures hm _) fun _ hb => .bind (ih hb) fun _ hb => .ok hb

theorem reachPairs_ensures (hb : b.Visits ts size most) (is : List Nat) :
    (b.reachPairs is).Ensures (IsValueFault ts) (Visits ts size most) := by
  induction is generalizing b with
  | nil => exact .ok hb
  | cons i is ih =>
      unfold reachPairs
      split
      · exact .bind (reachAll_ensures hb _) fun _ hb => ih hb
      · exact .error .malformed

theorem Visits.merged (hb : b.Visits ts size most) {g : Graph} (hg : b.graph.Merged ts g) :
    { b with graph := g }.Visits ts size most where
  written := hg.written
  size_eq := hg.size_eq.trans hb.size_eq
  bound := by
    have hunreached : { b with graph := g }.unreached = b.unreached := by
      rw [unreached, unreached, hg.size_eq]
    rw [hunreached]
    exact hb.bound

theorem visit_ensures (hb : b.Visits ts size most) (i : Nat) :
    (b.visit i).Ensures (IsValueFault ts) fun m => m.2.Visits ts size most := by
  unfold visit
  split
  · exact .bind (reachAll_ensures hb _) fun _ hb => .ok hb
  · exact .bind (reachPairs_ensures hb _) fun _ hb => .ok hb
  · exact .bind (reachPairs_ensures hb _) fun _ hb => .ok hb
  · refine .ite (.bind (Graph.flatten_ensures hb.written _ _) fun _ hg => ?_) (.error .malformed)
    exact .bind (reachEntries_ensures (hb.merged hg) _) fun _ hb => .ok hb
  · exact .error .malformed

/-- All collections get their turn: one turn less is left for one collection less. -/
theorem visitAll_ensures {fuel : Nat} (hb : b.Visits ts size most) (hmost : most < fuel) :
    (visitAll fuel b).Ensures (IsValueFault ts) fun _ => True := by
  induction fuel generalizing b most with
  | zero => cases hmost
  | succ fuel ih =>
      unfold visitAll
      split
      · exact .ok trivial
      rename_i i waiting hwaiting
      have hbound := hb.bound
      rw [hwaiting, List.length_cons] at hbound
      have hturn : { b with waiting }.Visits ts size (most - 1) :=
        ⟨hb.written, hb.size_eq, Nat.le_sub_one_of_lt hbound⟩
      exact .bind (visit_ensures hturn i) fun _ hb => ih hb (by omega)

theorem build_ensures {g : Graph} (hg : g.IsWritten ts) (root : Nat) :
    (build g root).Ensures (IsValueFault ts) fun _ => True := by
  have hstart : { graph := g : Builder }.Visits ts g.nodes.size g.nodes.size :=
    ⟨hg, rfl, (Finset.card_filter_le _ _).trans_eq (Finset.card_range _)⟩
  refine .bind (reach_ensures hstart _) fun m hm => ?_
  dsimp only
  split
  · exact .ok trivial
  · have hroot : { m.2 with waiting := [] }.Visits ts g.nodes.size g.nodes.size :=
      ⟨hm.written, hm.size_eq, (Nat.le_add_right _ _).trans hm.bound⟩
    exact .bind (visit_ensures hroot _) fun _ hb =>
      .bind (visitAll_ensures hb (Nat.lt_succ_self _)) fun _ _ => .ok trivial

end Builder

end Finality.Yaml
