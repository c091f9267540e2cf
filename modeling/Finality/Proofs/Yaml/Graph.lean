import Finality.Proofs.Except
import Finality.Yaml.Graph.Reader

/-! # From tokens to nodes

What is true of the graph of a document.  Its scalars have the texts that are written as scalars, or
none where nothing is written, and unless the document has tags every tag follows from the form of
its node (`Graph.IsWritten`).  If there is no graph, the document is malformed, or its tokens ended
early and the reader asks for more of them.

Both follow from what every step of the reader keeps true of its state (`Reader.Reads`), which the
steps that it consists of do (`Reader.Relays`); the result is `Graph.ofTokens_ensures`. -/

namespace Finality.Yaml

open Except (Ensures)

variable {α β : Type} {ts : List Token} {fault : Option Fault}

/-- A text that is written as a scalar, or the empty text for one that is not written. -/
def IsText (ts : List Token) (text : String) : Prop :=
  text = "" ∨ ∃ plain, Token.scalar plain text ∈ ts

/-- Some node has a tag that is written. -/
def IsTagged (ts : List Token) : Prop := ∃ handle suffix, Token.tag handle suffix ∈ ts

/-- The tag of a scalar follows from its form, unless tags are written. -/
def IsScalarTag (ts : List Token) (text : String) (tag : Tag) : Prop :=
  tag = .text ∨ tag = .ofPlain text ∨ IsTagged ts

/-- The tag of a collection is for collections, unless tags are written. -/
def IsCollectionTag (ts : List Token) (tag : Tag) : Prop := tag.isCollection = true ∨ IsTagged ts

/-- A node whose text and whose tag come from what is written. -/
def Node.IsWritten (ts : List Token) : Node → Prop
  | .scalar tag text => IsText ts text ∧ IsScalarTag ts text tag
  | .sequence tag _ => IsCollectionTag ts tag
  | .mapping tag _ => IsCollectionTag ts tag

/-- A graph of such nodes. -/
def Graph.IsWritten (ts : List Token) (g : Graph) : Prop := ∀ i, (g.node i).IsWritten ts

theorem isWritten_absent : Node.absent.IsWritten ts := ⟨.inl rfl, .inr (.inl (by decide))⟩

namespace Graph

variable {g : Graph} {n : Node}

theorem IsWritten.push (h : g.IsWritten ts) (hn : n.IsWritten ts) :
    IsWritten ts ⟨g.nodes.push n⟩ := by
  intro i
  have hi := h i
  unfold node at hi ⊢
  rw [Array.getElem?_push]
  split
  · exact hn
  · exact hi

theorem node_set (g : Graph) (i : Nat) (n : Node) (j : Nat) : (g.set i n).node j =
    if i = j then if i < g.nodes.size then n else .absent else g.node j := by
  unfold node
  rw [Graph.set, Array.getElem?_setIfInBounds]
  split
  · split <;> rfl
  · rfl

theorem IsWritten.set (h : g.IsWritten ts) (i : Nat) (hn : n.IsWritten ts) :
    (g.set i n).IsWritten ts := by
  intro j
  rw [node_set]
  split
  · split
    · exact hn
    · exact isWritten_absent
  · exact h j

end Graph

namespace Reader

/-- State of a reader whose tokens are the last of some tokens. -/
structure Reads (ts : List Token) (fault : Option Fault) (r : Reader) : Prop where
  fault_eq : r.fault = fault
  tokens_subset : r.tokens ⊆ ts
  written : r.graph.IsWritten ts

/-- A step that fails does so for the form of the text or with the fault of the tokens. -/
def Relays (ts : List Token) (fault : Option Fault) (s : Step α) : Prop :=
  ∀ r, Reads ts fault r →
    (s.run r).Ensures (fun f => f = .malformed ∨ fault = some f) fun p => Reads ts fault p.2

namespace Relays

theorem pure (a : α) : Relays ts fault (Pure.pure a) := fun _ hr => .ok hr

theorem bind {s : Step α} {t : α → Step β} (hs : Relays ts fault s)
    (ht : ∀ a, Relays ts fault (t a)) : Relays ts fault (s >>= t) :=
  fun r hr => .bind (hs r hr) fun p hp => ht p.1 p.2 hp

theorem ite {c : Prop} [Decidable c] {s t : Step α} (hs : Relays ts fault s)
    (ht : Relays ts fault t) : Relays ts fault (if c then s else t) := by
  split <;> assumption

theorem malformed : Relays ts fault (malformed : Step α) := fun _ _ => .error (.inl rfl)

theorem get_bind {t : Reader → Step β} (ht : ∀ r, Reads ts fault r → Relays ts fault (t r)) :
    Relays ts fault (get >>= t) := fun r hr => ht r hr r hr

theorem set {r : Reader} (hr : Reads ts fault r) : Relays ts fault (set r : Step PUnit) :=
  fun _ _ => .ok hr

theorem modify {f : Reader → Reader} (hf : ∀ r, Reads ts fault r → Reads ts fault (f r)) :
    Relays ts fault (modify f : Step PUnit) := fun r hr => .ok (hf r hr)

/-- A step that looks at the next token, which is one of the tokens. -/
theorem peek_bind {t : Option Token → Step β}
    (ht : ∀ next, (∀ token ∈ next, token ∈ ts) → Relays ts fault (t next)) :
    Relays ts fault (peek >>= t) := by
  intro r hr
  obtain ⟨tokens, fault', handles, graph, anchors⟩ := r
  cases tokens with
  | cons token tokens =>
      refine ht (some token) (fun token' htoken => ?_) _ hr
      cases htoken
      exact hr.tokens_subset List.mem_cons_self
  | nil =>
      cases fault' with
      | none => exact ht none (by simp) _ hr
      | some f => exact .error (.inr hr.fault_eq.symm)

theorem peek : Relays ts fault peek := by
  have h : Relays ts fault (Reader.peek >>= Pure.pure) := peek_bind fun _ _ => .pure _
  rwa [bind_pure] at h

theorem advance : Relays ts fault advance :=
  modify fun _ hr =>
    { hr with tokens_subset := fun _ h => hr.tokens_subset (List.mem_of_mem_tail h) }

theorem next (some : List Token) : Relays ts fault (next some) := .bind peek fun _ => .pure _

theorem accept (t : Token) : Relays ts fault (accept t) :=
  .bind (next _) fun _ => .ite (.bind advance fun _ => .pure _) (.pure _)

theorem expect (t : Token) : Relays ts fault (expect t) :=
  .bind (accept t) fun _ => .ite .malformed (.pure _)

theorem add (anchor : Option String) {n : Node} (hn : n.IsWritten ts) :
    Relays ts fault (add anchor n) := by
  refine get_bind fun r hr => ?_
  extract_lets i finish
  have hfinish : ∀ anchors, Relays ts fault (finish anchors) := fun _ =>
    .bind (.set { hr with written := hr.written.push hn }) fun _ => .pure _
  split
  · exact .bind (.pure _) hfinish
  · exact .ite (.bind .malformed hfinish) (.bind (.pure _) hfinish)

theorem addAbsent : Relays ts fault addAbsent := add _ isWritten_absent

theorem complete (i : Nat) {n : Node} (hn : n.IsWritten ts) : Relays ts fault (complete i n) :=
  .bind (modify fun _ hr => { hr with written := hr.written.set i hn }) fun _ => .pure _

/-! ### Properties -/

theorem anchor? : Relays ts fault anchor? := by
  refine .bind peek fun _ => ?_
  split
  · exact .bind advance fun _ => .pure _
  · exact .pure _

/-- A tag at the place is a tag that is written. -/
theorem tag?_bind {t : Option (Option String × String) → Step β}
    (ht : ∀ tag, (tag.isSome → IsTagged ts) → Relays ts fault (t tag)) :
    Relays ts fault (tag? >>= t) := by
  unfold tag?
  rw [bind_assoc]
  refine peek_bind fun next hnext => ?_
  split
  · rename_i handle suffix
    rw [bind_assoc]
    refine .bind advance fun _ => ?_
    rw [pure_bind]
    exact ht _ fun _ => ⟨handle, suffix, hnext _ rfl⟩
  · rw [pure_bind]
    exact ht none nofun

theorem tagName (handle : Option String) (suffix : String) :
    Relays ts fault (tagName handle suffix) := by
  cases handle with
  | none => exact .pure _
  | some handle =>
      refine get_bind fun r hr => ?_
      split
      · exact .pure _
      · exact .malformed

theorem properties_bind {t : Option String × Option String → Step β}
    (ht : ∀ p, (p.2.isSome → IsTagged ts) → Relays ts fault (t p)) :
    Relays ts fault (properties >>= t) := by
  unfold properties
  extract_lets finish
  have hfinish : ∀ p, (p.2.isSome → IsTagged ts) → Relays ts fault (finish p >>= t) := by
    rintro ⟨anchor, tag⟩ htag
    cases tag with
    | none => exact ht (anchor, none) nofun
    | some tag =>
        show Relays ts fault
          ((Reader.tagName tag.1 tag.2 >>= fun name => Pure.pure (anchor, some name)) >>= t)
        rw [bind_assoc]
        refine .bind (tagName _ _) fun name => ?_
        rw [pure_bind]
        exact ht _ fun _ => htag rfl
  rw [bind_assoc]
  refine .bind anchor? fun anchor => ?_
  cases anchor with
  | some name =>
      simp only [bind_assoc, pure_bind]
      exact tag?_bind fun tag htag => hfinish (some name, tag) htag
  | none =>
      simp only [bind_assoc]
      refine tag?_bind fun tag htag => ?_
      split
      · rw [pure_bind]
        exact hfinish (none, none) nofun
      · simp only [bind_assoc, pure_bind]
        exact .bind anchor? fun anchor => hfinish (anchor, tag) htag

/-! ### Nodes -/

/-- The readers of nodes and of parts of nodes, up to a depth. -/
structure OfDepth (ts : List Token) (fault : Option Fault) (depth : Nat) : Prop where
  node : ∀ context, Relays ts fault (node depth context)
  nodeUnless : ∀ context enders, Relays ts fault (nodeUnless depth context enders)
  blockItems : ∀ enders, Relays ts fault (blockItems depth enders)
  blockEntries : Relays ts fault (blockEntries depth)
  flowItems : ∀ first, Relays ts fault (flowItems depth first)
  flowEntries : ∀ first, Relays ts fault (flowEntries depth first)

variable {depth : Nat}

theorem isCollectionTag_collectionTag {default : Tag} (h : default.isCollection = true)
    {tag : Option String} (htag : tag.isSome → IsTagged ts) :
    IsCollectionTag ts (collectionTag default tag) := by
  cases tag with
  | none => exact .inl h
  | some name => exact .inr (htag rfl)

theorem isWritten_scalar {plain : Bool} {text : String} (htext : IsText ts text)
    {tag : Option String} (htag : tag.isSome → IsTagged ts) :
    (Node.scalar (scalarTag plain text tag) text).IsWritten ts := by
  refine ⟨htext, ?_⟩
  cases tag with
  | some name => exact .inr (.inr (htag rfl))
  | none =>
      cases plain with
      | true => exact .inr (.inl rfl)
      | false => exact .inl rfl

/-- A sequence is added, then its items are read, then it is completed. -/
theorem sequence {items : Step (List Nat)} (hitems : Relays ts fault items)
    (anchor : Option String) {tag : Tag} (htag : IsCollectionTag ts tag) :
    Relays ts fault (do
      let i ← Reader.add anchor (.sequence tag [])
      Reader.complete i (.sequence tag (← items))) :=
  .bind (add _ htag) fun _ => .bind hitems fun _ => complete _ htag

theorem mapping {entries : Step (List (Nat × Nat))} (hentries : Relays ts fault entries)
    (anchor : Option String) {tag : Tag} (htag : IsCollectionTag ts tag) :
    Relays ts fault (do
      let i ← Reader.add anchor (.mapping tag [])
      Reader.complete i (.mapping tag (← entries))) :=
  .bind (add _ htag) fun _ => .bind hentries fun _ => complete _ htag

theorem node_succ (h : OfDepth ts fault depth) (context : Context) :
    Relays ts fault (Reader.node (depth + 1) context) := by
  unfold Reader.node
  refine .bind peek fun _ => ?_
  split
  · refine .bind advance fun _ => get_bind fun r hr => ?_
    split
    · exact .pure _
    · exact .malformed
  refine properties_bind fun ⟨anchor, tag⟩ htag => peek_bind fun content hcontent => ?_
  have hsequence : IsCollectionTag ts (collectionTag .sequence tag) :=
    isCollectionTag_collectionTag rfl htag
  have hmapping : IsCollectionTag ts (collectionTag .mapping tag) :=
    isCollectionTag_collectionTag rfl htag
  dsimp only
  split
  · exact .bind advance fun _ => add _ (isWritten_scalar (.inr ⟨_, hcontent _ rfl⟩) htag)
  · exact .bind advance fun _ => sequence (h.flowItems _) _ hsequence
  · exact .bind advance fun _ => mapping (h.flowEntries _) _ hmapping
  · refine .ite .malformed (.bind advance fun _ => .bind (add _ hsequence) fun _ => ?_)
    exact .bind (h.blockItems _) fun _ => .bind (expect _) fun _ => complete _ hsequence
  · exact .ite .malformed (.bind advance fun _ => mapping h.blockEntries _ hmapping)
  · refine .ite (sequence (h.blockItems _) _ hsequence) (.ite (add _ ?_) .malformed)
    split
    · exact isWritten_absent
    · exact isWritten_scalar (.inl rfl) htag

theorem nodeUnless_succ (h : OfDepth ts fault depth) (context : Context) (enders : List Token) :
    Relays ts fault (Reader.nodeUnless (depth + 1) context enders) := by
  unfold Reader.nodeUnless
  exact .bind (next _) fun _ => .ite addAbsent (h.node _)

theorem blockItems_succ (h : OfDepth ts fault depth) (enders : List Token) :
    Relays ts fault (Reader.blockItems (depth + 1) enders) := by
  unfold Reader.blockItems
  refine .bind (accept _) fun _ => .ite ?_ (.pure _)
  exact .bind (h.nodeUnless _ _) fun _ => .bind (h.blockItems _) fun _ => .pure _

theorem value? (h : OfDepth ts fault depth) (context : Context) (enders : List Token)
    {rest : Nat → Step α} (hrest : ∀ v, Relays ts fault (rest v)) :
    Relays ts fault (do
      let v ← if ← Reader.accept .value then Reader.nodeUnless depth context enders
        else Reader.addAbsent
      rest v) :=
  .bind (accept _) fun _ => .ite (.bind (h.nodeUnless _ _) hrest) (.bind addAbsent hrest)

theorem blockEntries_succ (h : OfDepth ts fault depth) :
    Relays ts fault (Reader.blockEntries (depth + 1)) := by
  unfold Reader.blockEntries
  refine .bind (accept _) fun _ => .ite ?_ (.bind (expect _) fun _ => .pure _)
  exact .bind (h.nodeUnless _ _) fun _ => value? h _ _ fun _ =>
    .bind h.blockEntries fun _ => .pure _

theorem comma (first : Bool) {rest : Step α} (hrest : Relays ts fault rest) : Relays ts fault (do
      if !first then Reader.expect .flowEntry
      rest) :=
  .ite (.bind (expect _) fun _ => hrest) hrest

theorem flowItems_succ (h : OfDepth ts fault depth) (first : Bool) :
    Relays ts fault (Reader.flowItems (depth + 1) first) := by
  unfold Reader.flowItems
  refine .bind (accept _) fun _ => .ite (.pure _) (comma first ?_)
  refine .bind (accept _) fun _ => .ite ?pair (.bind (accept _) fun _ => .ite (.pure _) ?item)
  case pair =>
    exact .bind (add _ (.inl rfl)) fun _ => .bind (h.nodeUnless _ _) fun _ => value? h _ _ fun _ =>
      .bind (complete _ (.inl rfl)) fun _ => .bind (h.flowItems _) fun _ => .pure _
  case item => exact .bind (h.node _) fun _ => .bind (h.flowItems _) fun _ => .pure _

theorem flowEntries_succ (h : OfDepth ts fault depth) (first : Bool) :
    Relays ts fault (Reader.flowEntries (depth + 1) first) := by
  unfold Reader.flowEntries
  refine .bind (accept _) fun _ => .ite (.pure _) (comma first ?_)
  refine .bind (accept _) fun _ => .ite ?pair (.bind (accept _) fun _ => .ite (.pure _) ?key)
  case pair =>
    exact .bind (h.nodeUnless _ _) fun _ => value? h _ _ fun _ =>
      .bind (h.flowEntries _) fun _ => .pure _
  case key =>
    exact .bind (h.node _) fun _ => .bind addAbsent fun _ =>
      .bind (h.flowEntries _) fun _ => .pure _

theorem ofDepth (depth : Nat) : OfDepth ts fault depth := by
  induction depth with
  | zero =>
      constructor
      all_goals
        intros
        exact .malformed
  | succ depth ih =>
      exact ⟨node_succ ih, nodeUnless_succ ih, blockItems_succ ih, blockEntries_succ ih,
        flowItems_succ ih, flowEntries_succ ih⟩

/-! ### Documents -/

theorem directives (depth : Nat) (versioned : Bool) (handles : List (String × String)) :
    Relays ts fault (directives depth versioned handles) := by
  induction depth generalizing versioned handles with
  | zero => exact .malformed
  | succ depth ih =>
      unfold Reader.directives
      refine .bind peek fun _ => ?_
      split
      · refine .bind advance fun _ => ?_
        split
        · exact .ite .malformed (ih _ _)
        · exact .ite .malformed (ih _ _)
        · exact ih _ _
      · exact .pure _

theorem skipEnds (depth : Nat) : Relays ts fault (skipEnds depth) := by
  induction depth with
  | zero => exact .malformed
  | succ depth ih =>
      unfold Reader.skipEnds
      exact .bind (accept _) fun _ => .ite ih (.pure _)

theorem atDirective : Relays ts fault atDirective := by
  refine .bind peek fun _ => ?_
  split <;> exact .pure _

theorem documentStart (depth : Nat) : Relays ts fault (documentStart depth) :=
  .bind (directives _ _ _) fun _ => .bind (expect _) fun _ => modify fun _ hr => { hr with }

theorem content (depth : Nat) : Relays ts fault (content depth) :=
  .bind peek fun _ => .bind atDirective fun _ => .bind (next _) fun _ =>
    .ite addAbsent ((ofDepth depth).node _)

theorem document (depth : Nat) : Relays ts fault (document depth) := by
  unfold Reader.document
  refine .bind peek fun _ => .ite (.pure _) (.bind atDirective fun _ => .bind (next _) fun _ => ?_)
  extract_lets finish
  have hfinish : ∀ root, Relays ts fault (finish root) := fun _ =>
    .bind (skipEnds _) fun _ => .bind peek fun _ => .ite (.pure _)
      (.bind (documentStart _) fun _ => .malformed)
  refine .ite ?marked ?bare
  case marked => exact .bind (documentStart _) fun _ => .bind (content _) hfinish
  case bare =>
    exact .bind (modify fun _ hr => { hr with }) fun _ => .bind ((ofDepth depth).node _) hfinish

end Relays

end Reader

/-- **A graph is made of what is written, and nothing is wrong with it but its form.** -/
theorem Graph.ofTokens_ensures (ts : List Token) (fault : Option Fault) :
    (Graph.ofTokens ts fault).Ensures (fun f => f = .malformed ∨ fault = some f)
      fun root => ∀ r ∈ root, r.2.IsWritten ts := by
  have hstart : Reader.Reads ts fault { tokens := ts, fault } :=
    ⟨rfl, fun _ h => h, fun _ => isWritten_absent⟩
  refine .bind (Reader.Relays.document _ _ hstart) fun ⟨root, r⟩ hr => .ok ?_
  cases root with
  | none => simp
  | some i =>
      rintro _ ⟨⟩
      exact hr.written

end Finality.Yaml
