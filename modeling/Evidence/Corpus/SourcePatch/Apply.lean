/-
`corpus/source_patch/apply.rs` -- the atomic precondition-checked application of a
curated patch.

`apply_patch` validates the parser graph, checks the three bindings, runs the
operations in order over a working copy, recomputes the stored digests, and
validates the result. The graph it is given is a value and never changes.

An operation checks its preconditions against the stored fields of the working
graph. The `content_sha256` field is one of them, and it is recomputed once,
after the last operation.
-/
import Evidence.Corpus.SourceGraph.Validate
import Evidence.Corpus.SourcePatch.Digest

set_option autoImplicit false

namespace Evidence.Corpus

open Check Climb Sorting

structure PatchBindings where
  recipe_digest : StructuralContentDigest
  input_digest : StructuralContentDigest
deriving DecidableEq

/-- The result of one candidate patch application. -/
structure PatchApplication where
  pre_patch_digest : StructuralContentDigest
  patch_digest : StructuralContentDigest
  post_patch_digest : StructuralContentDigest
  graph : SourceGraph

/-! ## Preconditions -/

/-- The presented digest must equal the recorded one exactly. -/
def check_binding (patch_uid field : String) (expected actual : StructuralContentDigest) :
    Except SourcePatchError Unit :=
  failIf (expected ≠ actual) (.StaleBinding patch_uid field expected.as_str actual.as_str)

def target_node (graph : SourceGraph) (patch_uid target_uid : String) :
    Except SourcePatchError SourceNode :=
  match graph.get target_uid with
  | some node => .ok node
  | none => .error (.DanglingTarget patch_uid target_uid)

/-- The expected-content-digest precondition shared by `replace_content` and
`remove`. -/
def check_content_digest (patch_uid : String) (ordinal : UInt32) (node : SourceNode)
    (expected : StructuralContentDigest) : Except SourcePatchError Unit :=
  failIf (node.content_sha256 ≠ expected)
    (.StalePrecondition patch_uid ordinal node.uid "content_sha256" expected.as_str
      node.content_sha256.as_str)

/-- A parent named by an operation must be in the graph. -/
def check_parent (graph : SourceGraph) (patch_uid : String) :
    Option String → Except SourcePatchError Unit
  | some parent => failIf ((graph.get parent).isNone = true) (.DanglingTarget patch_uid parent)
  | none => .ok ()

/-- The name an error gives a parent. -/
def parent_text (parent_uid : Option String) : String := parent_uid.getD "<root>"

/-- A write through `node_mut`, or a dangling-target error. -/
def write_node (graph : SourceGraph) (patch_uid target_uid : String)
    (write : SourceNode → SourceNode)
    (keeps : ∀ node, (write node).uid = node.uid := by intro _; rfl) :
    Except SourcePatchError SourceGraph :=
  match graph.node_mut target_uid write keeps with
  | some graph' => .ok graph'
  | none => .error (.DanglingTarget patch_uid target_uid)

/-! ## Removal -/

def ordered_uids (graph : SourceGraph) (p : SourceNode → Bool) : List String :=
  (sortBy sibling_cmp (graph.values.filter p)).map SourceNode.uid

/-- Renumber one node of the merged sibling sequence, and lift it to the removed
node's parent when it is a promoted child. -/
def place_sibling (parent : Option String) (promoted : List String) (graph : SourceGraph)
    (entry : String × ℕ) : SourceGraph :=
  (graph.node_mut entry.1 fun node =>
    { node with
      ordinal := UInt32.ofNat entry.2
      parent_uid := if entry.1 ∈ promoted then parent else node.parent_uid }).getD graph

/-- Remove a node and promote its children to its parent, taking the removed
node's position in their original order; the sibling set renumbers. -/
def reparent_children (graph : SourceGraph) (target_uid : String) : SourceGraph :=
  match graph.remove_node target_uid with
  | (none, graph) => graph
  | (some removed, graph) =>
    let parent := removed.parent_uid
    let promoted := ordered_uids graph fun node => node.parent_uid == some target_uid
    let earlier := ordered_uids graph fun node =>
      node.parent_uid == parent && node.ordinal < removed.ordinal
    let later := ordered_uids graph fun node =>
      node.parent_uid == parent && removed.ordinal < node.ordinal
    (earlier ++ promoted ++ later).zipIdx.foldl (place_sibling parent promoted) graph

/-- The worklist of `remove_subtree`: pop a uid, and push the children of a uid
seen for the first time. The head of `pending` is the top of the stack. -/
def collect_subtree (graph : SourceGraph) : ℕ → List String → List String → List String
  | _, [], members => members
  | 0, _ :: _, members => members
  | fuel + 1, uid :: pending, members =>
    if uid ∈ members then collect_subtree graph fuel pending members
    else
      collect_subtree graph fuel
        (((children graph (some uid)).map SourceNode.uid).reverse ++ pending) (uid :: members)

/-- The members of a node's subtree. Every node is pushed at most once, by its
parent, so the number of nodes bounds the pops. -/
def subtree_members (graph : SourceGraph) (target_uid : String) : List String :=
  collect_subtree graph (graph.size + 1) [target_uid] []

/-- Remove a node and its entire subtree. -/
def remove_subtree (graph : SourceGraph) (target_uid : String) : SourceGraph :=
  (subtree_members graph target_uid).foldl (fun graph uid => (graph.remove_node uid).2) graph

/-! ## Operations -/

section Application

variable [Sha256]

/-- The `(kind, label)` ancestry pairs of a parent's chain, root to parent. -/
def ancestry_pairs (graph : SourceGraph) (parent_uid : Option String) : List AncestryPair :=
  (graph.climb [] parent_uid).1.reverse.map SourceNode.pair

/-- The node an `insert` operation adds. -/
def inserted_node (graph : SourceGraph) (patch : SourcePatchRecord)
    (parent_uid : Option String) (node : InsertedNodeSpec) : SourceNode where
  uid := node.uid
  source_revision_uid := patch.source_revision_uid
  parent_uid := parent_uid
  kind := node.kind
  ordinal := node.ordinal
  label := node.label
  canonical_text := node.canonical_text
  content_sha256 := content_digest node.kind node.canonical_text
  fingerprint := fingerprint node.kind node.label (ancestry_pairs graph parent_uid)
  locator := node.locator

/-- An insertion failure as the patch pipeline reports it. -/
def insertion_error (patch : SourcePatchRecord) (node : InsertedNodeSpec) :
    SourceGraphError → SourcePatchError
  | .DuplicateUid _ uid => .InsertedIdentityCollision patch.uid uid "uid" node.uid
  | .DuplicateHumanId _ _ _ first_uid duplicate_uid =>
    .InsertedIdentityCollision patch.uid duplicate_uid "label" first_uid
  | other => .InvalidPostGraph patch.uid other

/-- Apply one operation to the working graph after checking its exact
preconditions. -/
def apply_operation (patch : SourcePatchRecord) (graph : SourceGraph) :
    PatchOperation → Except SourcePatchError SourceGraph
  | .ReplaceContent ordinal target_uid expected_content_sha256 new_canonical_text new_label => do
    let node ← target_node graph patch.uid target_uid
    check_content_digest patch.uid ordinal node expected_content_sha256
    write_node graph patch.uid target_uid fun node =>
      { node with
        canonical_text := new_canonical_text.getD node.canonical_text
        label := new_label.or node.label }
  | .Reclassify ordinal target_uid expected_kind new_kind => do
    let node ← target_node graph patch.uid target_uid
    failIf (node.kind ≠ expected_kind)
      (.StalePrecondition patch.uid ordinal target_uid "kind" expected_kind.as_str
        node.kind.as_str)
    write_node graph patch.uid target_uid fun node => { node with kind := new_kind }
  | .Reparent ordinal target_uid expected_parent_uid expected_ordinal new_parent_uid new_ordinal => do
    let node ← target_node graph patch.uid target_uid
    failIf (node.parent_uid ≠ expected_parent_uid)
      (.StalePrecondition patch.uid ordinal target_uid "parent_uid"
        (parent_text expected_parent_uid) (parent_text node.parent_uid))
    failIf (node.ordinal ≠ expected_ordinal)
      (.StalePrecondition patch.uid ordinal target_uid "ordinal"
        (decimal expected_ordinal.toNat) (decimal node.ordinal.toNat))
    check_parent graph patch.uid new_parent_uid
    write_node graph patch.uid target_uid fun node =>
      { node with parent_uid := new_parent_uid, ordinal := new_ordinal }
  | .Insert _ expected_parent_uid node => do
    check_parent graph patch.uid expected_parent_uid
    (graph.insert (inserted_node graph patch expected_parent_uid node)).mapError
      (insertion_error patch node)
  | .Remove ordinal target_uid expected_digest child_disposition => do
    let node ← target_node graph patch.uid target_uid
    check_content_digest patch.uid ordinal node expected_digest
    match child_disposition with
    | .ReparentChildren => .ok (reparent_children graph target_uid)
    | .RemoveSubtree => .ok (remove_subtree graph target_uid)

/-! ## Application -/

/-- A node with its digests recomputed from its kind, text, label, and ancestry in
`graph`. -/
def restamp (graph : SourceGraph) (node : SourceNode) : SourceNode :=
  { node with
    content_sha256 := content_digest node.kind node.canonical_text
    fingerprint :=
      fingerprint node.kind node.label (ancestry_pairs graph node.parent_uid) }

/-- Recompute every node's stored digests. The new values are all computed from
the graph before any of them is written. -/
def recompute_node_digests (graph : SourceGraph) : SourceGraph :=
  graph.mapValues (restamp graph) fun _ => rfl

theorem get_recompute (graph : SourceGraph) (uid : String) :
    (recompute_node_digests graph).get uid = (graph.get uid).map (restamp graph) :=
  Store.get_mapValues graph uid _ _

theorem mem_values_recompute {graph : SourceGraph} {node : SourceNode} :
    node ∈ (recompute_node_digests graph).values ↔ ∃ old ∈ graph.values, restamp graph old = node :=
  Store.mem_values_mapValues

def apply_patch [F64Display] (graph : SourceGraph) (patch : SourcePatchRecord)
    (bindings : PatchBindings) (media_type : String) :
    Except SourcePatchError PatchApplication := do
  (validate_graph_standalone patch.source_revision_uid media_type graph).mapError
    (.PreGraphInvalid patch.uid)
  check_binding patch.uid "recipe_digest" patch.recipe_digest bindings.recipe_digest
  check_binding patch.uid "input_digest" patch.input_digest bindings.input_digest
  let pre_patch_digest := source_graph_digest graph
  check_binding patch.uid "pre_patch_graph_digest" patch.pre_patch_graph_digest pre_patch_digest
  let working ← patch.operations.foldlM (apply_operation patch) graph
  let working := recompute_node_digests working
  (validate_graph_standalone patch.source_revision_uid media_type working).mapError
    (.InvalidPostGraph patch.uid)
  .ok
    { pre_patch_digest := pre_patch_digest
      patch_digest := patch.reviewed_content_digest
      post_patch_digest := source_graph_digest working
      graph := working }

/-- **What an accepted application has gone through**: a valid graph, matching
bindings, a run of the operations, and a valid result. -/
theorem apply_patch_ok_iff [F64Display] {graph : SourceGraph} {patch : SourcePatchRecord}
    {bindings : PatchBindings} {media_type : String} {application : PatchApplication} :
    apply_patch graph patch bindings media_type = .ok application ↔
      Forest media_type graph ∧ patch.recipe_digest = bindings.recipe_digest ∧
      patch.input_digest = bindings.input_digest ∧
      patch.pre_patch_graph_digest = source_graph_digest graph ∧
      ∃ working, Runs (apply_operation patch) graph patch.operations working ∧
        Forest media_type (recompute_node_digests working) ∧
        application =
          { pre_patch_digest := source_graph_digest graph
            patch_digest := patch.reviewed_content_digest
            post_patch_digest := source_graph_digest (recompute_node_digests working)
            graph := recompute_node_digests working } := by
  simp only [apply_patch, check_binding]
  rw [seq_ok_iff, seq_ok_iff, seq_ok_iff, seq_ok_iff, bind_ok_iff, mapError_ok_iff,
    validate_graph_standalone_ok_iff]
  simp only [seq_ok_iff, mapError_ok_iff, validate_graph_standalone_ok_iff, failIf_ok_iff, ne_eq,
    not_not, foldlM_ok_iff, Except.ok.injEq]
  simp only [eq_comm (a := application)]

end Application

end Evidence.Corpus
