/-
`corpus/source_graph.rs` -- the parser-independent committed structural source
graph: the closed node kinds, one structural node, and the per-revision graph.

The graph is a `BTreeMap` from uid to node that only `insert`, `node_mut` and
`remove_node` ever write, each under the node's own uid. It is a keyed store
here, so that an entry under a foreign uid cannot be built; `graph.nodes()` of
the source is `graph.values`, the nodes in uid order.

`insert` is the only place where identities are compared: the uid, and the
label within one kind. What it guarantees is `LabelsUnique`, and a graph whose
labels are unique is one whose nodes can be inserted again in any order
(`reinsertable_iff`).
-/
import Mathlib.Data.List.Induction
import Evidence.Lib.Store
import Evidence.Corpus.Digest
import Evidence.Corpus.SourceGraph.Locator

set_option autoImplicit false

namespace Evidence.Corpus

/-! ## Kinds -/

inductive SourceNodeKind where
  | Section
  | Paragraph
  | ListItem
  | DefinitionTerm
  | DefinitionBody
  | Table
  | TableRow
  | TableCell
  | CodeBlock
  | Note
  | FigureCaption
deriving DecidableEq, Ord

namespace SourceNodeKind

/-- The kind's snake_case wire name. -/
def as_str : SourceNodeKind → String
  | Section => "section"
  | Paragraph => "paragraph"
  | ListItem => "list_item"
  | DefinitionTerm => "definition_term"
  | DefinitionBody => "definition_body"
  | Table => "table"
  | TableRow => "table_row"
  | TableCell => "table_cell"
  | CodeBlock => "code_block"
  | Note => "note"
  | FigureCaption => "figure_caption"

/-- The closed parent/child legality table. -/
def may_parent (parent child : SourceNodeKind) : Bool :=
  match parent with
  | Section => true
  | Table => child == TableRow
  | TableRow => child == TableCell
  | _ => false

/-- The wire name determines the kind. -/
theorem as_str_inj {k l : SourceNodeKind} (h : k.as_str = l.as_str) : k = l := by
  revert h
  cases k <;> cases l <;> decide

end SourceNodeKind

/-! ## Nodes -/

structure SourceNode where
  uid : String
  source_revision_uid : String
  parent_uid : Option String
  kind : SourceNodeKind
  ordinal : UInt32
  label : Option String
  canonical_text : String
  content_sha256 : StructuralContentDigest
  fingerprint : StructuralContentDigest
  locator : SourceLocator
deriving DecidableEq

/-- The failures of the source-graph pipeline that loading from parsed records,
insertion and validation can report. -/
inductive SourceGraphError where
  | RecordSchemaTooNew (path : String) (found supported : UInt32)
  | NativeUidPrefix (uid expected : String)
  | NativeUidUuidV4 (uid : String)
  | DuplicateUid (revision_uid uid : String)
  | DuplicateHumanId (revision_uid : String) (kind : SourceNodeKind)
      (label first_uid duplicate_uid : String)
  | NodeLabel (path uid : String)
  | InvalidLocatorField (path node_uid field value : String) (rule : LocatorRule)
  | DanglingParent (revision_uid node_uid parent_uid : String)
  | CrossRevisionParent (revision_uid node_uid parent_uid parent_revision_uid : String)
  | Cycle (revision_uid node_uid : String)
  | IllegalParentKind (revision_uid node_uid : String) (kind : SourceNodeKind)
      (parent_uid : String) (parent_kind : SourceNodeKind)
  | DuplicateOrdinal (revision_uid : String) (parent_uid : Option String) (ordinal : UInt32)
      (first_uid duplicate_uid : String)
  | NonContiguousOrdinals (revision_uid : String) (parent_uid : Option String)
      (expected found : UInt32) (node_uid : String)
  | DigestMismatch (revision_uid node_uid field expected actual : String)
  | UnknownSourceRevision (revision_uid : String)
  | LocatorMediaMismatch (revision_uid node_uid locator_format media_type : String)
deriving DecidableEq

/-! ## The graph -/

/-- One source revision's committed structural forest, keyed by uid. -/
abbrev SourceGraph := Store SourceNode.uid

namespace SourceGraph

/-- `node_mut` and the write through it: change the node under `uid` in place, or
nothing when there is none. The writes of the source keep the uid. -/
def node_mut (graph : SourceGraph) (uid : String) (write : SourceNode → SourceNode)
    (keeps : ∀ node, (write node).uid = node.uid := by intro _; rfl) : Option SourceGraph :=
  match graph.get uid with
  | some _ => some (graph.modify uid write keeps)
  | none => none

/-- `remove_node`: the removed node, if there was one, and the graph without it. -/
def remove_node (graph : SourceGraph) (uid : String) : Option SourceNode × SourceGraph :=
  (graph.get uid, graph.remove uid)

/-- The node of `graph` that already carries the kind and label of `node`. -/
def label_holder (graph : SourceGraph) (node : SourceNode) : Option SourceNode :=
  graph.values.find? fun existing => existing.kind == node.kind && existing.label == node.label

/-- Insert a node after enforcing per-revision identity uniqueness: no duplicate
uid, and no duplicate label within one kind. -/
def insert (graph : SourceGraph) (node : SourceNode) : Except SourceGraphError SourceGraph :=
  match graph.get node.uid with
  | some existing => .error (.DuplicateUid existing.source_revision_uid node.uid)
  | none =>
    match node.label with
    | none => .ok (graph.put node)
    | some label =>
      match graph.label_holder node with
      | some existing =>
        .error (.DuplicateHumanId node.source_revision_uid node.kind label existing.uid node.uid)
      | none => .ok (graph.put node)

/-- The revision every node binds, read off the first node. -/
def revision_uid (graph : SourceGraph) : Option String :=
  graph.values.head?.map (·.source_revision_uid)

end SourceGraph

/-! ## What insertion guarantees -/

/-- Two nodes claim one human identity: the same label within one kind. -/
def SameHumanId (a b : SourceNode) : Prop := a.label ≠ none ∧ a.kind = b.kind ∧ a.label = b.label

instance (a b : SourceNode) : Decidable (SameHumanId a b) :=
  inferInstanceAs (Decidable (_ ∧ _ ∧ _))

theorem SameHumanId.symm {a b : SourceNode} (h : SameHumanId a b) : SameHumanId b a :=
  ⟨h.2.2 ▸ h.1, h.2.1.symm, h.2.2.symm⟩

/-- **`insert` accepts a node exactly when both of its identities are new**, and
then it stores the node. -/
theorem SourceGraph.insert_ok_iff {graph graph' : SourceGraph} {node : SourceNode} :
    graph.insert node = .ok graph' ↔
      graph.get node.uid = none ∧ (∀ m ∈ graph.values, ¬ SameHumanId m node) ∧
        graph' = graph.put node := by
  have hholder : graph.label_holder node = none ↔
      ∀ m ∈ graph.values, ¬ (m.kind = node.kind ∧ m.label = node.label) := by
    simp only [label_holder, List.find?_eq_none, Bool.and_eq_true, beq_iff_eq]
  cases hget : graph.get node.uid with
  | some existing => simp [insert, hget]
  | none =>
    cases hlabel : node.label with
    | none =>
      have hins : graph.insert node = .ok (graph.put node) := by
        simp only [insert, hget, hlabel]
      have hfree : ∀ m ∈ graph.values, ¬ SameHumanId m node := by
        intro m _ hsame
        exact hsame.1 (hsame.2.2.trans hlabel)
      rw [hins, Except.ok.injEq]
      exact ⟨fun h => ⟨rfl, hfree, h.symm⟩, fun h => h.2.2.symm⟩
    | some label =>
      have hsame : ∀ m : SourceNode,
          SameHumanId m node ↔ m.kind = node.kind ∧ m.label = node.label := by
        intro m
        refine ⟨fun h => h.2, fun h => ⟨?_, h.1, h.2⟩⟩
        rw [h.2, hlabel]
        exact Option.some_ne_none label
      simp only [hsame]
      cases hfind : graph.label_holder node with
      | some existing =>
        have hins : ∀ g, graph.insert node ≠ .ok g := by
          intro g
          simp only [insert, hget, hlabel, hfind, ne_eq, reduceCtorEq, not_false_eq_true]
        have hnot := mt hholder.mpr (by rw [hfind]; exact Option.some_ne_none existing)
        exact ⟨fun h => absurd h (hins _), fun h => absurd h.2.1 hnot⟩
      | none =>
        have hins : graph.insert node = .ok (graph.put node) := by
          simp only [insert, hget, hlabel, hfind]
        rw [hins, Except.ok.injEq]
        exact ⟨fun h => ⟨trivial, hholder.mp hfind, h.symm⟩, fun h => h.2.2.symm⟩

/-- Every label names one node of its kind. -/
def LabelsUnique (graph : SourceGraph) : Prop :=
  ∀ a ∈ graph.values, ∀ b ∈ graph.values, SameHumanId a b → a = b

instance (graph : SourceGraph) : Decidable (LabelsUnique graph) :=
  inferInstanceAs (Decidable (∀ a ∈ graph.values, ∀ b ∈ graph.values, SameHumanId a b → a = b))

def SourceGraph.insert_all (nodes : List SourceNode) : Except SourceGraphError SourceGraph :=
  nodes.foldlM SourceGraph.insert Store.empty

/-- A graph built through `SourceGraph::insert`. -/
def SourceGraph.Built (graph : SourceGraph) : Prop :=
  ∃ nodes, SourceGraph.insert_all nodes = .ok graph

/-- The nodes of `graph` can all be inserted again, in any order. -/
def SourceGraph.Reinsertable (graph : SourceGraph) : Prop :=
  ∀ order : List SourceNode, order.Perm graph.values →
    ∃ graph', SourceGraph.insert_all order = .ok graph'

theorem LabelsUnique.insert {graph graph' : SourceGraph} {node : SourceNode}
    (h : LabelsUnique graph) (hins : graph.insert node = .ok graph') : LabelsUnique graph' := by
  obtain ⟨-, hfree, rfl⟩ := SourceGraph.insert_ok_iff.mp hins
  intro a ha b hb hsame
  rw [Store.mem_values_put] at ha hb
  rcases ha with rfl | ⟨-, ha⟩ <;> rcases hb with rfl | ⟨-, hb⟩
  · rfl
  · exact absurd hsame.symm (hfree b hb)
  · exact absurd hsame (hfree a ha)
  · exact h a ha b hb hsame

/-- Inserting distinct nodes whose labels are unique succeeds, and stores exactly
them. The induction peels the last node off the order. -/
private theorem insert_all_of_unique (nodes : List SourceNode)
    (huid : (nodes.map SourceNode.uid).Nodup)
    (hlabel : nodes.Pairwise fun a b => ¬ SameHumanId a b) :
    ∃ graph, SourceGraph.insert_all nodes = .ok graph ∧ ∀ m, m ∈ graph.values ↔ m ∈ nodes := by
  induction nodes using List.reverseRecOn with
  | nil =>
    refine ⟨Store.empty, rfl, ?_⟩
    intro m
    rw [Store.mem_values, Store.get_empty]
    simp
  | append_singleton nodes node ih =>
    rw [List.map_append, List.nodup_append] at huid
    rw [List.pairwise_append] at hlabel
    obtain ⟨graph, hgraph, hmem⟩ := ih huid.1 hlabel.1
    have hfresh : ∀ m ∈ graph.values, m.uid ≠ node.uid := by
      intro m hm
      exact huid.2.2 _ (List.mem_map_of_mem ((hmem m).mp hm)) _ List.mem_cons_self
    have hget : graph.get node.uid = none := by
      cases hget : graph.get node.uid with
      | none => rfl
      | some m => exact absurd (Store.key_of_get hget) (hfresh m (Store.mem_values_of_get hget))
    have hfree : ∀ m ∈ graph.values, ¬ SameHumanId m node := by
      intro m hm
      exact hlabel.2.2 m ((hmem m).mp hm) node List.mem_cons_self
    refine ⟨graph.put node, ?_, ?_⟩
    · have hins : graph.insert node = .ok (graph.put node) :=
        SourceGraph.insert_ok_iff.mpr ⟨hget, hfree, rfl⟩
      rw [SourceGraph.insert_all] at hgraph ⊢
      rw [List.foldlM_append, hgraph]
      simp only [bind, Except.bind, List.foldlM_cons, hins, List.foldlM_nil, pure, Except.pure]
    · intro m
      rw [Store.mem_values_put, List.mem_append, List.mem_singleton, ← hmem m]
      constructor
      · rintro (rfl | ⟨-, hm⟩)
        · exact .inr rfl
        · exact .inl hm
      · rintro (hm | rfl)
        · exact .inr ⟨hfresh m hm, hm⟩
        · exact .inl rfl

theorem insert_all_ok {nodes : List SourceNode} {graph : SourceGraph}
    (h : SourceGraph.insert_all nodes = .ok graph) :
    LabelsUnique graph ∧ ∀ m, m ∈ graph.values ↔ m ∈ nodes := by
  induction nodes using List.reverseRecOn generalizing graph with
  | nil =>
    cases h
    have hnone : ∀ m : SourceNode, m ∉ (Store.empty : SourceGraph).values := by
      intro m hm
      rw [Store.mem_values, Store.get_empty] at hm
      cases hm
    exact ⟨fun a ha => absurd ha (hnone a), fun m => by simp [hnone m]⟩
  | append_singleton nodes node ih =>
    rw [SourceGraph.insert_all, List.foldlM_append] at h
    cases hprev : nodes.foldlM SourceGraph.insert Store.empty with
    | error e => rw [hprev] at h; cases h
    | ok prev =>
      rw [hprev] at h
      simp only [bind, Except.bind, List.foldlM_cons, List.foldlM_nil, pure, Except.pure] at h
      cases hins : prev.insert node with
      | error e => rw [hins] at h; cases h
      | ok graph' =>
        rw [hins] at h
        cases h
        obtain ⟨hlabels, hmem⟩ := ih hprev
        refine ⟨hlabels.insert hins, ?_⟩
        obtain ⟨hget, -, rfl⟩ := SourceGraph.insert_ok_iff.mp hins
        intro m
        rw [Store.mem_values_put, List.mem_append, List.mem_singleton, ← hmem m]
        constructor
        · rintro (rfl | ⟨-, hm⟩)
          · exact .inr rfl
          · exact .inl hm
        · rintro (hm | rfl)
          · refine .inr ⟨?_, hm⟩
            intro heq
            rw [Store.mem_values, heq, hget] at hm
            cases hm
          · exact .inl rfl

/-- **The nodes of a graph can be inserted again in any order exactly when its
labels are unique.** -/
theorem SourceGraph.reinsertable_iff {graph : SourceGraph} :
    graph.Reinsertable ↔ LabelsUnique graph := by
  constructor
  · intro h
    obtain ⟨graph', hgraph'⟩ := h graph.values (List.Perm.refl _)
    obtain ⟨hlabels, hmem⟩ := insert_all_ok hgraph'
    have heq : graph' = graph := Store.ext_values hmem
    rw [← heq]
    exact hlabels
  · intro h order horder
    have huid : (order.map SourceNode.uid).Nodup :=
      (horder.map SourceNode.uid).nodup_iff.mpr graph.values_keys_nodup
    have hpair : order.Pairwise fun a b => ¬ SameHumanId a b := by
      have hnodup : order.Nodup := horder.nodup_iff.mpr graph.values_nodup
      refine hnodup.imp_of_mem ?_
      intro a b ha hb hne hsame
      exact hne (h a (horder.mem_iff.mp ha) b (horder.mem_iff.mp hb) hsame)
    obtain ⟨graph', hgraph', -⟩ := insert_all_of_unique order huid hpair
    exact ⟨graph', hgraph'⟩

theorem SourceGraph.built_iff {graph : SourceGraph} : graph.Built ↔ LabelsUnique graph := by
  constructor
  · rintro ⟨nodes, hnodes⟩
    exact (insert_all_ok hnodes).1
  · intro h
    obtain ⟨graph', hgraph'⟩ := SourceGraph.reinsertable_iff.mpr h graph.values (List.Perm.refl _)
    have heq : graph' = graph := Store.ext_values (insert_all_ok hgraph').2
    exact ⟨graph.values, heq ▸ hgraph'⟩

end Evidence.Corpus
