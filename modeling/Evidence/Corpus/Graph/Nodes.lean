/-
`corpus/graph/nodes.rs` -- the node and edge types of the corpus graph.

Edges are typed and owned by their source node. A node's identity is its uid, and
its human id within its kind; the review-content fields of a requirement play no
role in it.
-/
import Evidence.Corpus.Digest

set_option autoImplicit false

namespace Evidence.Corpus

/-! ## Kinds -/

inductive EdgeKind where
  | DerivesFrom
  | Verifies
  | Reviews
  | Supersedes
deriving DecidableEq

def EdgeKind.rank : EdgeKind → ℕ
  | DerivesFrom => 0
  | Verifies => 1
  | Reviews => 2
  | Supersedes => 3

/-- Requirement decomposition layer within the graph. -/
inductive RequirementLayer where
  | Source
  | Sys
  | Hlr
  | Llr
  | Derived
deriving DecidableEq

/-- The snake_case wire string of a layer. -/
def RequirementLayer.as_str : RequirementLayer → String
  | Source => "source"
  | Sys => "sys"
  | Hlr => "hlr"
  | Llr => "llr"
  | Derived => "derived"

inductive NodeKind where
  | Requirement
  | Test
  | Review
  | SourceRevision
deriving DecidableEq

/-- A human review decision over exact reviewed content. -/
inductive ReviewDecision where
  | Approve
  | Reject
deriving DecidableEq

/-! ## Trace metadata -/

structure RequirementMetadata where
  «namespace» : Option String
  sort_key : Option Int64
  scope : Option String
  category : Option String
  source : Option String
  modules : List String
  surfaces : List String
  emits : List String
  verification_methods : List String
deriving DecidableEq

structure TestMetadata where
  «namespace» : Option String
  sort_key : Option Int64
  category : Option String
  source : Option String
  primary_selector : Option String
deriving DecidableEq

inductive TraceMetadata where
  | Requirement (metadata : RequirementMetadata)
  | Test (metadata : TestMetadata)
deriving DecidableEq

/-! ## Nodes -/

/-- An outgoing typed edge: its kind and its target uid. -/
abbrev Edge := EdgeKind × String

structure RequirementNode where
  uid : String
  id : String
  title : String
  layer : RequirementLayer
  edges : List Edge
  description : Option String
  rationale : Option String
  scope : Option String
  category : Option String
  source : Option String
  verification_methods : List String
  safety_impact : Option String
deriving DecidableEq

structure TestNode where
  uid : String
  id : String
  title : String
  selectors : List String
  edges : List Edge
deriving DecidableEq

inductive ReviewTargetKind where
  | Requirement
  | CuratedPatch
deriving DecidableEq

/-- The snake_case wire string of a target kind. -/
def ReviewTargetKind.as_str : ReviewTargetKind → String
  | Requirement => "requirement"
  | CuratedPatch => "curated_patch"

inductive ReviewTarget where
  | Requirement (uid : String)
  | CuratedPatch (uid : String)
deriving DecidableEq

namespace ReviewTarget

def uid : ReviewTarget → String
  | Requirement uid => uid
  | CuratedPatch uid => uid

def kind : ReviewTarget → ReviewTargetKind
  | Requirement _ => .Requirement
  | CuratedPatch _ => .CuratedPatch

end ReviewTarget

structure ReviewNode where
  uid : String
  id : String
  target : ReviewTarget
  content_schema : UInt32
  reviewed_content_sha256 : ReviewContentDigest
  decision : ReviewDecision
  reviewer : String
  reviewed_at : String
  rationale : Option String
  edges : List Edge
deriving DecidableEq

inductive SourceCapture where
  | Vendored (path : String)
  | HashOnly
  | ExternalControlled (system immutable_id : String)
deriving DecidableEq

inductive SourceMaterial where
  | Available (retrieved_at : String) (sha256 : SourceContentDigest) (capture : SourceCapture)
  | Unavailable (reason : String)
deriving DecidableEq

structure SourceRevisionNode where
  uid : String
  id : String
  document_key : String
  title : String
  media_type : String
  canonical_location : String
  material : SourceMaterial
  edges : List Edge
deriving DecidableEq

/-- A corpus graph node. -/
inductive Node where
  | Requirement (requirement : RequirementNode)
  | Test (test : TestNode)
  | Review (review : ReviewNode)
  | SourceRevision (revision : SourceRevisionNode)
deriving DecidableEq

namespace Node

def uid : Node → String
  | Requirement r => r.uid
  | Test t => t.uid
  | Review r => r.uid
  | SourceRevision s => s.uid

def kind : Node → NodeKind
  | Requirement _ => .Requirement
  | Test _ => .Test
  | Review _ => .Review
  | SourceRevision _ => .SourceRevision

/-- The node's human-readable identifier. -/
def id : Node → String
  | Requirement r => r.id
  | Test t => t.id
  | Review r => r.id
  | SourceRevision s => s.id

/-- The node's outgoing typed edges. -/
def edges : Node → List Edge
  | Requirement r => r.edges
  | Test t => t.edges
  | Review r => r.edges
  | SourceRevision s => s.edges

/-- The write through `edges_mut`. -/
def with_edges (edges : List Edge) : Node → Node
  | Requirement r => .Requirement { r with edges := edges }
  | Test t => .Test { t with edges := edges }
  | Review r => .Review { r with edges := edges }
  | SourceRevision s => .SourceRevision { s with edges := edges }

@[simp] theorem with_edges_uid (edges : List Edge) (node : Node) :
    (node.with_edges edges).uid = node.uid := by
  cases node <;> rfl

def as_review : Node → Option ReviewNode
  | Review review => some review
  | _ => none

def as_source_revision : Node → Option SourceRevisionNode
  | SourceRevision revision => some revision
  | _ => none

def as_requirement : Node → Option RequirementNode
  | Requirement requirement => some requirement
  | _ => none

end Node

def edge_targets (kind : EdgeKind) (edges : List Edge) : List String :=
  (edges.filter fun edge => edge.1 == kind).map Prod.snd

theorem mem_edge_targets {kind : EdgeKind} {edges : List Edge} {target : String} :
    target ∈ edge_targets kind edges ↔ (kind, target) ∈ edges := by
  simp only [edge_targets, List.mem_map, List.mem_filter, beq_iff_eq]
  constructor
  · rintro ⟨edge, ⟨hedge, rfl⟩, rfl⟩
    exact hedge
  · intro hedge
    exact ⟨(kind, target), ⟨hedge, rfl⟩, rfl⟩

end Evidence.Corpus
