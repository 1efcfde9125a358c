/-
`corpus/drift/nodes.rs` -- the node plane of the drift comparison.

Candidates pass through three stages: a match of structural keys, a pass over equal
content digests, and a pass over keys with every kind erased. A committed key of
several nodes is ambiguous, and a match with it is reported instead of compared;
what no stage pairs is added or removed, and every pair is compared field by field.

`pair_nodes` is the three stages, and `compare_nodes` renders where they have put
every node. The uids minted for unmatched candidates enter no finding.
-/
import Evidence.Lib.Pairing
import Evidence.Corpus.Drift.Findings
import Evidence.Corpus.SourceGraph.Identity

set_option autoImplicit false

namespace Evidence.Corpus

open Climb Pairing Queues Sorting

/-! ## Relaxed keys -/

inductive RelaxedKey where
  | Explicit (anchor : String)
  | Position (parent : RelaxedKey) (ordinal : UInt32)
  | Fingerprint (digest : StructuralContentDigest)
deriving DecidableEq

def relax : StructuralKey → RelaxedKey
  | .Explicit _ anchor => .Explicit anchor
  | .Position parent _ ordinal => .Position (relax parent) ordinal
  | .Fingerprint digest => .Fingerprint digest

/-- The derived order: by variant, then by the fields. -/
def RelaxedKey.cmp : RelaxedKey → RelaxedKey → Ordering
  | .Explicit anchor, .Explicit other => compare anchor other
  | .Explicit _, _ => .lt
  | .Position .., .Explicit _ => .gt
  | .Position parent ordinal, .Position parent' ordinal' =>
    (parent.cmp parent').then (compare ordinal ordinal')
  | .Position .., .Fingerprint _ => .lt
  | .Fingerprint digest, .Fingerprint other => compare digest.as_str other.as_str
  | .Fingerprint _, _ => .gt

/-! ## Structural paths -/

/-- One segment of a structural path: the label, else `kind[ordinal]`. -/
def path_segment (node : SourceNode) : String :=
  node.label.getD (node.kind.as_str ++ "[" ++ decimal node.ordinal.toNat ++ "]")

/-- The deterministic structural path of one node, root first. -/
def structural_path (graph : SourceGraph) (uid : String) : String :=
  "/".intercalate ((graph.climb [] (some uid)).1.reverse.map path_segment)

/-! ## Pairing -/

/-- The reconciled uid of every candidate: `(candidate uid, uid)`. -/
abbrev UidMap := Store (Prod.fst : String × String → String)

/-- Insert the entries in order; a later entry overwrites an earlier one. -/
def UidMap.extend (uids : UidMap) (entries : List (String × String)) : UidMap :=
  entries.foldl Store.put uids

/-- An entry among distinct candidates is looked up. -/
theorem UidMap.get_extend_of_mem {uids : UidMap} {entries : List (String × String)}
    (hnodup : (entries.map Prod.fst).Nodup) {uid reconciled : String}
    (h : (uid, reconciled) ∈ entries) : (uids.extend entries).get uid = some (uid, reconciled) :=
  Store.get_foldl_put_of_mem (fun entry => entry) hnodup uids h

/-- The other candidates keep their uid. -/
theorem UidMap.get_extend_of_not_mem {uids : UidMap} {entries : List (String × String)}
    (hnodup : (entries.map Prod.fst).Nodup) {uid : String} (h : uid ∉ entries.map Prod.fst) :
    (uids.extend entries).get uid = uids.get uid :=
  Store.get_foldl_put_of_not_mem (fun entry => entry) hnodup uids h

/-- Where the three stages have put every node. Pairs are `(committed, candidate)`. -/
structure NodePairing where
  unreconciled : List (SourceNode × SourceNode)
  pairs : List (SourceNode × SourceNode)
  leftover_committed : List String
  leftover_candidates : List String
  reconciled_uid : UidMap

/-- The pairs and the leftovers of the relaxed passes, as uids. -/
structure RelaxedPairs where
  pairs : List (String × String)
  leftover_committed : List String
  leftover_candidates : List String

section Pairs

variable [Sha256]

/-- Project one committed-shaped candidate node into a candidate record. -/
def to_candidate (node : SourceNode) : CandidateNode where
  provisional_id := node.uid
  parent_id := node.parent_uid
  kind := node.kind
  ordinal := node.ordinal
  label := node.label
  canonical_text := node.canonical_text
  locator := node.locator

omit [Sha256] in
/-- The content pass: every candidate is offered the first committed node left with
its content digest. -/
def content_offers (committed candidates : List SourceNode) :
    List (Option SourceNode × SourceNode) :=
  let pool := fun digest => committed.filter fun node => node.content_sha256 = digest
  (serve (fun _ => none) 0 (fun digest => (pool digest).map some)
    (candidates.map SourceNode.content_sha256)).1.zip candidates

/-- The uids of the nodes with one relaxed key, in uid order. -/
def skeleton_pool (graph : SourceGraph) (nodes : List SourceNode) (key : RelaxedKey) :
    List String :=
  (nodes.filter fun node => relax (structural_key node graph) = key).map SourceNode.uid

/-- The skeleton pass: within one relaxed key the nodes pair in uid order. -/
def skeleton_pairs (committed_graph candidate_graph : SourceGraph)
    (remaining deferred : List SourceNode) : RelaxedPairs :=
  let keys := sortBy RelaxedKey.cmp
    ((remaining.map fun node => relax (structural_key node committed_graph)) ++
      deferred.map fun node => relax (structural_key node candidate_graph)).dedup
  let committed_pool := skeleton_pool committed_graph remaining
  let candidate_pool := skeleton_pool candidate_graph deferred
  { pairs := keys.flatMap fun key => (committed_pool key).zip (candidate_pool key)
    leftover_committed :=
      keys.flatMap fun key => (committed_pool key).drop (candidate_pool key).length
    leftover_candidates :=
      keys.flatMap fun key => (candidate_pool key).drop (committed_pool key).length }

/-- Re-pair unmatched nodes: the content pass over all of them, then the skeleton
pass over the rest. -/
def relaxed_pairs (committed candidates : List SourceNode)
    (committed_graph candidate_graph : SourceGraph) : RelaxedPairs :=
  let offers := content_offers committed candidates
  let pairs := (paired offers).map fun pair => (pair.1.uid, pair.2.uid)
  let remaining := committed.filter fun node => node.uid ∉ pairs.map Prod.fst
  let rest := skeleton_pairs committed_graph candidate_graph remaining (unpaired offers)
  { rest with pairs := pairs ++ rest.pairs }

def primary_offers (committed candidate : SourceGraph) (reconciled : List ReconciledNode) :
    List (Option SourceNode × SourceNode) :=
  reconciled.filterMap fun entry =>
    (candidate.get entry.candidate.provisional_id).map fun node => (committed.get entry.uid, node)

/-- A committed node shares its structural key. -/
def is_ambiguous (committed : SourceGraph) (node : SourceNode) : Bool :=
  1 < (key_pool committed (structural_key node committed)).length

/-- The three stages. Of the relaxed pairs, those that resolve replace the minted
uid of their candidate. -/
def pair_nodes (mint : ℕ → String) (committed candidate : SourceGraph) : NodePairing :=
  let reconciled := (reconcile mint committed (candidate.values.map to_candidate)).1
  let offers := primary_offers committed candidate reconciled
  let matched := paired offers
  let unmatched := committed.values.filter fun node =>
    node.uid ∉ (matched.map Prod.fst).map SourceNode.uid
  let relaxed := relaxed_pairs unmatched (unpaired offers) committed candidate
  let resolved := relaxed.pairs.filterMap fun pair =>
    (committed.get pair.1).bind fun node => (candidate.get pair.2).map fun other => (node, other)
  let uids : UidMap := UidMap.extend Store.empty
    (reconciled.map fun entry => (entry.candidate.provisional_id, entry.uid))
  { unreconciled := matched.filter fun pair => is_ambiguous committed pair.1
    pairs := (matched.filter fun pair => !is_ambiguous committed pair.1) ++ resolved
    leftover_committed := relaxed.leftover_committed
    leftover_candidates := relaxed.leftover_candidates
    reconciled_uid := uids.extend (resolved.map fun pair => (pair.2.uid, pair.1.uid)) }

end Pairs

/-! ## Findings -/

/-- Render both sides' parent linkage. A candidate parent that matched no committed
node never renders as the throwaway minted uid. -/
def rendered_parents (committed_graph : SourceGraph) (reconciled_uid : UidMap)
    (committed candidate : SourceNode) : String × String :=
  let candidate_parent :=
    match candidate.parent_uid with
    | none => "<root>"
    | some parent =>
      match reconciled_uid.get parent with
      | some (_, reconciled) =>
        if (committed_graph.get reconciled).isSome then reconciled
        else "<uncommitted parent " ++ parent ++ ">"
      | none => "<uncommitted parent " ++ parent ++ ">"
  (committed.parent_uid.getD "<root>", candidate_parent)

/-- A changed field of a pair is one finding. -/
def push_change (differs : Bool) (category : DriftCategory) (field committed candidate : String) :
    List (DriftCategory × DriftDetail) :=
  if differs then [(category, change field committed candidate)] else []

theorem push_change_eq_nil_iff {differs : Bool} {category : DriftCategory}
    {field committed candidate : String} :
    push_change differs category field committed candidate = [] ↔ differs = false := by
  cases differs <;> simp [push_change]

section Comparison

variable [F64Display]

/-- The changed fields of one matched pair, in order. -/
def matched_changes (committed_graph : SourceGraph) (reconciled_uid : UidMap)
    (committed candidate : SourceNode) : List (DriftCategory × DriftDetail) :=
  let parents := rendered_parents committed_graph reconciled_uid committed candidate
  push_change (committed.kind ≠ candidate.kind) .NodeKindChanged "kind" committed.kind.as_str
      candidate.kind.as_str ++
    push_change (parents.1 ≠ parents.2) .NodeParentChanged "parent_uid" parents.1 parents.2 ++
    push_change (committed.ordinal ≠ candidate.ordinal) .NodeOrdinalChanged "ordinal"
      (decimal committed.ordinal.toNat) (decimal candidate.ordinal.toNat) ++
    push_change (committed.label ≠ candidate.label) .NodeLabelChanged "label"
      (render_option committed.label) (render_option candidate.label) ++
    push_change (committed.canonical_text ≠ candidate.canonical_text) .NodeCanonicalTextChanged
      "canonical_text" committed.canonical_text candidate.canonical_text ++
    push_change (committed.content_sha256 ≠ candidate.content_sha256) .NodeContentDigestChanged
      "content_sha256" committed.content_sha256.as_str candidate.content_sha256.as_str ++
    push_change (committed.fingerprint ≠ candidate.fingerprint) .NodeStructuralFingerprintChanged
      "fingerprint" committed.fingerprint.as_str candidate.fingerprint.as_str ++
    compare_locators committed candidate

/-- Compare one matched pair field by field; every changed field is its own
finding. -/
def compare_matched (committed_graph : SourceGraph) (reconciled_uid : UidMap)
    (pair : SourceNode × SourceNode) : List DriftFinding :=
  (matched_changes committed_graph reconciled_uid pair.1 pair.2).map fun entry =>
    { category := entry.1
      structural_path := some (structural_path committed_graph pair.1.uid)
      node_uid := some pair.1.uid
      patch_uid := none
      detail := entry.2 }

/-- The finding of a node that only one side has. -/
def leftover_finding (graph : SourceGraph) (category : DriftCategory) (detail : DriftDetail)
    (uid : String) : DriftFinding where
  category := category
  structural_path := some (structural_path graph uid)
  node_uid := some uid
  patch_uid := none
  detail := detail

variable [Sha256]

/-- The finding of a candidate whose key several committed nodes claim. -/
def unreconciled_finding (committed : SourceGraph) (pair : SourceNode × SourceNode) :
    DriftFinding where
  category := .NodeUnreconciled
  structural_path := some (structural_path committed pair.1.uid)
  node_uid := some pair.2.uid
  patch_uid := none
  detail := .AmbiguousKey (key_pool committed (structural_key pair.1 committed))

/-- Compare the candidate parser graph against the committed graph of the same
revision. -/
def compare_nodes (mint : ℕ → String) (committed candidate : SourceGraph) : List DriftFinding :=
  let pairing := pair_nodes mint committed candidate
  pairing.unreconciled.map (unreconciled_finding committed) ++
    pairing.pairs.flatMap (compare_matched committed pairing.reconciled_uid) ++
    pairing.leftover_candidates.map (leftover_finding candidate .NodeAdded .CandidateOnly) ++
    pairing.leftover_committed.map (leftover_finding committed .NodeRemoved .CommittedOnly)

end Comparison

end Evidence.Corpus
