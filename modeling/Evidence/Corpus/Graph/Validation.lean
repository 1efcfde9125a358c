/-
`corpus/graph/validation.rs`, `graph/review_invariants.rs`,
`graph/supersession.rs` and `source/lineage.rs` -- the checks of the node plane.

Every edge resolves and joins kinds that may be joined; every review has one
`Reviews` edge, to the target it names; and the supersession edges of the reviews,
and those of the source revisions, form chains: no node supersedes two, itself, or
a foreign one, none is superseded twice, and no walk returns to a node it has
passed. The two planes share their fork check and their cycle walk.
-/
import Mathlib.Data.List.Dedup
import Evidence.Lib.Check
import Evidence.Corpus.Graph.Basic

set_option autoImplicit false

namespace Evidence.Corpus

open Check Sorting

/-! ## Edges -/

/-- The endpoint-kind contract per edge kind. -/
def edge_kinds_match : NodeKind → EdgeKind → NodeKind → Bool
  | .Requirement, .DerivesFrom, .Requirement => true
  | .Test, .Verifies, .Requirement => true
  | .Review, .Reviews, .Requirement => true
  | .Review, .Supersedes, .Review => true
  | .SourceRevision, .Supersedes, .SourceRevision => true
  | _, _, _ => false

/-- One edge of a node: it resolves, to a node of a kind it may join or, for the
`Reviews` edge of a review, to a curated patch. -/
def validate_edge (graph : CorpusGraph) (node : Node) (edge : Edge) : Except CorpusError Unit :=
  match graph.get edge.2 with
  | none =>
    failIf (¬ (node.kind = .Review ∧ edge.1 = .Reviews ∧
        (graph.source_patch edge.2).isSome = true))
      (.DanglingEdge node.uid edge.2 edge.1)
  | some target =>
    failIf (!edge_kinds_match node.kind edge.1 target.kind)
      (.InvalidEdgeKinds node.uid edge.2 edge.1 node.kind target.kind)

/-- Every edge resolves and obeys its endpoint-kind contract. -/
def validate_edges (graph : CorpusGraph) : Except CorpusError Unit :=
  graph.nodes.values.forM fun node => node.edges.forM (validate_edge graph node)

/-! ## Review invariants -/

/-- The review-content projection version supported. -/
def SUPPORTED_REVIEW_CONTENT_SCHEMA : UInt32 := 1

def reviews_edge (review : ReviewNode) : Except ReviewError String :=
  match edge_targets .Reviews review.edges with
  | [edge_target_uid] => .ok edge_target_uid
  | [] => .error (.ReviewMissingReviewsEdge review.uid)
  | edges => .error (.ReviewDuplicateReviewsEdge review.uid edges.length)

/-- The declared target kind matches the plane the edge resolves to. -/
def kind_coherent (graph : CorpusGraph) (review : ReviewNode) (edge_target_uid : String) : Bool :=
  let resolves_to_patch := (graph.source_patch edge_target_uid).isSome
  match review.target with
  | .Requirement _ =>
    !resolves_to_patch && ((graph.get edge_target_uid).bind Node.as_requirement).isSome
  | .CuratedPatch _ => resolves_to_patch

def validate_review_node (graph : CorpusGraph) (review : ReviewNode) : Except ReviewError Unit := do
  let edge_target_uid ← reviews_edge review
  failIf (edge_target_uid ≠ review.target.uid)
    (.ReviewTargetEdgeMismatch review.uid review.target.uid edge_target_uid)
  failIf (!kind_coherent graph review edge_target_uid)
    (.ReviewTargetKindMismatch review.uid review.target.kind.as_str
      (if (graph.source_patch edge_target_uid).isSome then "a curated patch"
        else "a requirement node"))
  failIf (review.content_schema ≠ SUPPORTED_REVIEW_CONTENT_SCHEMA)
    (.ReviewContentSchema "<graph>" review.uid review.id review.content_schema
      SUPPORTED_REVIEW_CONTENT_SCHEMA)

def validate_review_nodes (graph : CorpusGraph) : Except ReviewError Unit :=
  graph.reviews.forM (validate_review_node graph)

/-! ## Supersession chains -/

section Chains

variable {ε : Type}

/-- The nodes of one plane in uid order, each with the targets of its `Supersedes`
edges. -/
abbrev Chains := List (String × List String)

/-- The targets of a node of the plane, and none of any other. -/
def Chains.targets (chains : Chains) (uid : String) : List String :=
  ((chains.find? fun link => link.1 == uid).map Prod.snd).getD []

/-- A node has at most one superseding node. Successors are listed in uid order. -/
def reject_forks (fork : String → String → String → ε) (chains : Chains) : Except ε Unit :=
  chains.forM fun predecessor =>
    match (chains.filter fun link => predecessor.1 ∈ link.2).map Prod.fst with
    | first :: second :: _ => .error (fork predecessor.1 first second)
    | _ => .ok ()

/-- The walk from the uids on `frontier`, whose head is the top of the stack: the
path it has taken, or a cycle. -/
def walk_chain (cycle : String → ε) (chains : Chains) (done : List String) :
    ℕ → List String → List String → Except ε (List String)
  | _, [], path => .ok path
  -- a node is expanded once, so the edges bound the uids ever pushed
  | 0, current :: _, _ => .error (cycle current)
  | fuel + 1, current :: frontier, path =>
    if current ∈ path then .error (cycle current)
    else if current ∈ done then walk_chain cycle chains done fuel frontier path
    else
      walk_chain cycle chains done fuel ((chains.targets current).reverse ++ frontier)
        (path ++ [current])

/-- Walk every supersession chain; a revisit along a walk is a cycle. -/
def reject_cycles (cycle : String → ε) (chains : Chains) : Except ε Unit := do
  let fuel := (chains.map fun link => link.2.length).sum + 1
  let _ ← chains.foldlM (fun done link =>
    if link.1 ∈ done then .ok done
    else (done ++ ·) <$> walk_chain cycle chains done fuel [link.1] []) []
  .ok ()

end Chains

/-! ## Review supersession -/

/-- One `Supersedes` edge of a review: it corrects the same reviewer's decision on
the same content of the same target. -/
def validate_review_link (graph : CorpusGraph) (review : ReviewNode) (target : String) :
    Except ReviewError Unit := do
  failIf (target = review.uid) (.ReviewSupersessionSelf review.uid)
  match (graph.get target).bind Node.as_review with
  | none => .ok ()
  | some predecessor => do
    failIf (review.reviewer ≠ predecessor.reviewer)
      (.ReviewSupersessionReviewer review.uid predecessor.uid)
    failIf (review.target ≠ predecessor.target)
      (.ReviewSupersessionTarget review.uid predecessor.uid)
    failIf (review.reviewed_content_sha256 ≠ predecessor.reviewed_content_sha256)
      (.ReviewSupersessionDigest review.uid predecessor.uid)

/-- The supersession edges of one review. -/
def validate_review_links (graph : CorpusGraph) (review : ReviewNode) :
    Except ReviewError Unit := do
  let targets := edge_targets .Supersedes review.edges
  failIf (1 < targets.length) (.ReviewDuplicateSupersedesEdge review.uid targets.length)
  targets.forM (validate_review_link graph review)

/-- The review plane's chains. -/
def review_chains (graph : CorpusGraph) : Chains :=
  graph.reviews.map fun review => (review.uid, edge_targets .Supersedes review.edges)

def validate_review_supersession (graph : CorpusGraph) : Except ReviewError Unit := do
  graph.reviews.forM (validate_review_links graph)
  reject_forks .ReviewSupersessionFork (review_chains graph)
  reject_cycles .ReviewSupersessionCycle (review_chains graph)

/-! ## Source-revision lineage -/

/-- One `Supersedes` edge of a source revision: it names a prior revision of the
same document. -/
def validate_source_link (graph : CorpusGraph) (revision : SourceRevisionNode) (target : String) :
    Except SourceError Unit := do
  failIf (target = revision.uid) (.SourceSupersessionSelf revision.uid)
  match (graph.get target).bind Node.as_source_revision with
  | none => .ok ()
  | some predecessor =>
    failIf (revision.document_key ≠ predecessor.document_key)
      (.SourceSupersessionDocumentKey revision.uid predecessor.uid)

/-- The supersession edges of one source revision. -/
def validate_source_links (graph : CorpusGraph) (revision : SourceRevisionNode) :
    Except SourceError Unit := do
  let targets := edge_targets .Supersedes revision.edges
  failIf (1 < targets.length) (.SourceDuplicateSupersedesEdge revision.uid targets.length)
  targets.forM (validate_source_link graph revision)

/-- The source plane's chains. -/
def source_chains (graph : CorpusGraph) : Chains :=
  graph.source_revisions.map fun revision =>
    (revision.uid, edge_targets .Supersedes revision.edges)

def document_keys (graph : CorpusGraph) : List String :=
  sortBy compare (graph.source_revisions.map SourceRevisionNode.document_key).dedup

/-- The source revisions of one document, in uid order. -/
def revisions_of (graph : CorpusGraph) (document_key : String) : List SourceRevisionNode :=
  graph.source_revisions.filter fun revision => revision.document_key == document_key

/-- The single owned `Supersedes` target of a revision, if any. -/
def supersedes_target (revision : SourceRevisionNode) : Option String :=
  (edge_targets .Supersedes revision.edges).head?

/-- Every target of a `Supersedes` edge of the graph. -/
def superseded_uids (graph : CorpusGraph) : List String :=
  graph.nodes.values.flatMap fun node => edge_targets .Supersedes node.edges

/-- At most one revision of a document satisfies `p`. -/
def reject_multiple (graph : CorpusGraph) (p : SourceRevisionNode → Bool)
    (multiple : String → String → String → SourceError) : Except SourceError Unit :=
  (document_keys graph).forM fun document_key =>
    match ((revisions_of graph document_key).filter p).map SourceRevisionNode.uid with
    | first :: second :: _ => .error (multiple document_key first second)
    | _ => .ok ()

/-- A root is a revision that supersedes nothing. -/
def reject_multiple_roots (graph : CorpusGraph) : Except SourceError Unit :=
  reject_multiple graph (fun revision => (supersedes_target revision).isNone)
    .SourceLineageMultipleRoots

/-- A head is a revision that no other supersedes. -/
def reject_multiple_heads (graph : CorpusGraph) : Except SourceError Unit :=
  reject_multiple graph (fun revision => revision.uid ∉ superseded_uids graph)
    .SourceLineageMultipleHeads

/-- Every source-revision lineage chain. -/
def validate_source_lineage (graph : CorpusGraph) : Except SourceError Unit := do
  graph.source_revisions.forM (validate_source_links graph)
  reject_forks .SourceSupersessionFork (source_chains graph)
  reject_cycles .SourceSupersessionCycle (source_chains graph)
  reject_multiple_roots graph
  reject_multiple_heads graph

end Evidence.Corpus
