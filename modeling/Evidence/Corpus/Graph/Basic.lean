/-
`corpus/graph.rs` -- the uid-keyed corpus graph and the writes that build it.

Its four planes are sorted maps: the nodes and the curated patches under their own
uids, the trace metadata under a node uid, and the source graphs under the uid of
the revision their nodes bind. `insert_source_node` routes every node to the graph
of its own revision and inserts it there, so a committed source graph binds one
revision and has unique labels; `RevisionGraph` carries both facts.
-/
import Evidence.Corpus.Graph.Nodes
import Evidence.Corpus.SourcePatch.Basic
import Evidence.Lib.Sorting

set_option autoImplicit false

namespace Evidence.Corpus

open Sorting

/-! ## Errors -/

inductive ReviewError where
  | ReviewContentSchema (path uid id : String) (found supported : UInt32)
  | ReviewMissingReviewsEdge (review_uid : String)
  | ReviewDuplicateReviewsEdge (review_uid : String) (count : ℕ)
  | ReviewTargetEdgeMismatch (review_uid field_target_uid edge_target_uid : String)
  | ReviewTargetKindMismatch (review_uid declared resolved : String)
  | ReviewSupersessionSelf (uid : String)
  | ReviewSupersessionReviewer (uid predecessor_uid : String)
  | ReviewSupersessionTarget (uid predecessor_uid : String)
  | ReviewSupersessionDigest (uid predecessor_uid : String)
  | ReviewDuplicateSupersedesEdge (review_uid : String) (count : ℕ)
  | ReviewSupersessionFork (uid first_uid second_uid : String)
  | ReviewSupersessionCycle (uid : String)
deriving DecidableEq

/-- The failures of the source pipeline that validating a graph can report. -/
inductive SourceError where
  | SourceDuplicateSupersedesEdge (source_uid : String) (count : ℕ)
  | SourceSupersessionSelf (uid : String)
  | SourceSupersessionDocumentKey (uid predecessor_uid : String)
  | SourceSupersessionFork (uid first_uid second_uid : String)
  | SourceSupersessionCycle (uid : String)
  | SourceLineageMultipleRoots (document_key first_uid second_uid : String)
  | SourceLineageMultipleHeads (document_key first_uid second_uid : String)
deriving DecidableEq

/-- The failures of building or validating the corpus graph. -/
inductive CorpusError where
  | DuplicateUid (uid : String)
  | DuplicateHumanId (id : String) (kind : NodeKind) (first_uid duplicate_uid : String)
  | DuplicateEdge («from» «to» : String) (kind : EdgeKind)
  | DanglingEdge («from» «to» : String) (kind : EdgeKind)
  | InvalidEdgeKinds («from» «to» : String) (kind : EdgeKind) (source_kind target_kind : NodeKind)
  | Review (source : ReviewError)
  | Source (source : SourceError)
  | SourceGraph (source : SourceGraphError)
  | SourcePatch (source : SourcePatchError)
  | LegacyMissingUid (id : String)
deriving DecidableEq

/-! ## The graph -/

structure RevisionGraph where
  revision_uid : String
  graph : SourceGraph
  /-- Every node binds the revision. -/
  bound : ∀ node ∈ graph.values, node.source_revision_uid = revision_uid
  /-- Every node was inserted. -/
  labels : LabelsUnique graph

/-- One entry of the trace-metadata plane: a node uid and its metadata. -/
abbrev MetadataEntry := String × TraceMetadata

structure CorpusGraph where
  nodes : Store Node.uid
  trace_metadata : Store (Prod.fst : MetadataEntry → String)
  source_graphs : Store RevisionGraph.revision_uid
  source_patches : Store SourcePatchRecord.uid

namespace CorpusGraph

/-- An empty graph. -/
def new : CorpusGraph := ⟨Store.empty, Store.empty, Store.empty, Store.empty⟩

/-- Look up a node by uid. -/
def get (graph : CorpusGraph) (uid : String) : Option Node := graph.nodes.get uid

/-- The committed source graph of one revision, when any of its nodes have
loaded. -/
def source_graph (graph : CorpusGraph) (source_revision_uid : String) : Option SourceGraph :=
  (graph.source_graphs.get source_revision_uid).map RevisionGraph.graph

/-- The committed source graph of one revision, or the empty one. -/
def parser_graph (graph : CorpusGraph) (source_revision_uid : String) : SourceGraph :=
  (graph.source_graph source_revision_uid).getD Store.empty

/-- The committed curated patch with `uid`, when loaded. -/
def source_patch (graph : CorpusGraph) (uid : String) : Option SourcePatchRecord :=
  graph.source_patches.get uid

/-- The review nodes, in uid order. -/
def reviews (graph : CorpusGraph) : List ReviewNode := graph.nodes.values.filterMap Node.as_review

/-- The source-revision nodes, in uid order. -/
def source_revisions (graph : CorpusGraph) : List SourceRevisionNode :=
  graph.nodes.values.filterMap Node.as_source_revision

/-- The reviews of one target, in uid order. -/
def reviews_for (graph : CorpusGraph) (target : ReviewTarget) : List ReviewNode :=
  graph.reviews.filter fun review => review.target == target

def reviews_for_requirement (graph : CorpusGraph) (requirement_uid : String) : List ReviewNode :=
  graph.reviews_for (.Requirement requirement_uid)

def reviews_for_patch (graph : CorpusGraph) (patch_uid : String) : List ReviewNode :=
  graph.reviews_for (.CuratedPatch patch_uid)

/-- Uids of every review named as a `Supersedes` target. -/
def superseded_review_uids (graph : CorpusGraph) : List String :=
  graph.reviews.flatMap fun review => edge_targets .Supersedes review.edges

theorem get_revision {graph : CorpusGraph} {revision : SourceRevisionNode}
    (hrevision : revision ∈ graph.source_revisions) :
    graph.get revision.uid = some (.SourceRevision revision) := by
  obtain ⟨node, hnode, hrev⟩ := List.mem_filterMap.mp hrevision
  cases node with
  | SourceRevision found =>
    cases hrev
    exact Store.mem_values.mp hnode
  | Requirement found => cases hrev
  | Test found => cases hrev
  | Review found => cases hrev

/-! ## Inserting nodes -/

/-- Reject a repeated uid, and a repeated human id within a kind. -/
def check_identity_uniqueness (nodes : Store Node.uid) (node : Node) : Except CorpusError Unit :=
  match nodes.get node.uid with
  | some _ => .error (.DuplicateUid node.uid)
  | none =>
    match nodes.values.find? fun existing =>
        existing.kind == node.kind && existing.id == node.id with
    | some existing =>
      .error (.DuplicateHumanId node.id node.kind existing.uid node.uid)
    | none => .ok ()

/-- Edges are ordered by kind, then by target. -/
def edge_cmp : Edge → Edge → Ordering :=
  compareLex (compareOn fun edge => edge.1.rank) (compareOn Prod.snd)

/-- The first element of a list that equals its successor. -/
def repeated : List Edge → Option Edge
  | first :: second :: rest => if first = second then some first else repeated (second :: rest)
  | _ => none

/-- Sort a node's outgoing edges and reject duplicates. -/
def canonicalize_edges (node : Node) : Except CorpusError Node :=
  let edges := sortBy edge_cmp node.edges
  match repeated edges with
  | some edge => .error (.DuplicateEdge node.uid edge.2 edge.1)
  | none => .ok (node.with_edges edges)

/-- Insert a node after enforcing identity uniqueness and canonical edges. -/
def insert (graph : CorpusGraph) (node : Node) : Except CorpusError CorpusGraph := do
  check_identity_uniqueness graph.nodes node
  let node ← canonicalize_edges node
  .ok { graph with nodes := graph.nodes.put node }

def insert_with_trace_metadata (graph : CorpusGraph) (node : Node) (metadata : TraceMetadata) :
    Except CorpusError CorpusGraph := do
  let uid := node.uid
  let graph ← graph.insert node
  .ok { graph with trace_metadata := graph.trace_metadata.put (uid, metadata) }

/-! ## Inserting source nodes and patches -/

theorem parser_graph_wf (graph : CorpusGraph) (source_revision_uid : String) :
    (∀ node ∈ (graph.parser_graph source_revision_uid).values,
      node.source_revision_uid = source_revision_uid) ∧
    LabelsUnique (graph.parser_graph source_revision_uid) := by
  rw [parser_graph, source_graph]
  cases hget : graph.source_graphs.get source_revision_uid with
  | none =>
    exact ⟨fun node hnode => absurd hnode (Store.not_mem_values_empty node),
      fun a ha => absurd ha (Store.not_mem_values_empty a)⟩
  | some committed =>
    have hkey : committed.revision_uid = source_revision_uid := Store.key_of_get hget
    exact ⟨fun node hnode => (committed.bound node hnode).trans hkey, committed.labels⟩

theorem insert_bound {graph : CorpusGraph} {node : SourceNode} {inserted : SourceGraph}
    (h : (graph.parser_graph node.source_revision_uid).insert node = .ok inserted) :
    ∀ m ∈ inserted.values, m.source_revision_uid = node.source_revision_uid := by
  obtain ⟨-, -, rfl⟩ := SourceGraph.insert_ok_iff.mp h
  intro m hm
  rcases Store.mem_values_put.mp hm with rfl | ⟨-, hold⟩
  · rfl
  · exact (graph.parser_graph_wf _).1 m hold

/-- Route one structural source node into its own revision's committed graph,
creating the graph on first use. -/
def insert_source_node (graph : CorpusGraph) (node : SourceNode) :
    Except SourceGraphError CorpusGraph :=
  match h : (graph.parser_graph node.source_revision_uid).insert node with
  | .error error => .error error
  | .ok inserted =>
    .ok { graph with
      source_graphs := graph.source_graphs.put
        { revision_uid := node.source_revision_uid
          graph := inserted
          bound := insert_bound h
          labels := (graph.parser_graph_wf _).2.insert h } }

/-- Insert one curated patch after enforcing identity uniqueness within the
curated-patch kind. -/
def insert_source_patch (graph : CorpusGraph) (patch : SourcePatchRecord) :
    Except SourcePatchError CorpusGraph :=
  match graph.source_patches.get patch.uid with
  | some _ => .error (.DuplicateUid patch.uid)
  | none =>
    match graph.source_patches.values.find? fun existing =>
        existing.human_id == patch.human_id with
    | some existing => .error (.DuplicateHumanId patch.human_id existing.uid patch.uid)
    | none => .ok { graph with source_patches := graph.source_patches.put patch }

end CorpusGraph

/-! ## Small planes -/

/-- An HTML revision of one document, with unavailable material. -/
def revision_node (uid id : String) (edges : List Edge) : SourceRevisionNode where
  uid := uid
  id := id
  document_key := "doc"
  title := "fixture document"
  media_type := "text/html"
  canonical_location := "https://example.org/a"
  material := .Unavailable "fixture"
  edges := edges

def RevisionGraph.of_node (node : SourceNode) : RevisionGraph where
  revision_uid := node.source_revision_uid
  graph := Store.empty.put node
  bound := by
    intro m hm
    rw [Store.mem_values_singleton.mp hm]
  labels := by
    intro a ha b hb _
    rw [Store.mem_values_singleton.mp ha, Store.mem_values_singleton.mp hb]

end Evidence.Corpus
