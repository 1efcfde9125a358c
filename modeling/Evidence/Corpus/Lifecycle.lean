/-
`corpus/lifecycle.rs` and `corpus/patch_lifecycle.rs` -- the one effective lifecycle
state of a requirement, and of a curated patch.

A state is derived from the effective review heads of its target: the reviews of
the target that no review supersedes, each deciding one digest. Both kinds of
target share the truth table `derive_state`, and both evaluators validate the whole
corpus first.
-/
import Evidence.Lib.Lists
import Evidence.Corpus.Graph.Validate
import Evidence.Corpus.ReviewContent

set_option autoImplicit false

namespace Evidence.Corpus

open Check

/-! ## The truth table -/

inductive RequirementLifecycle where
  | Candidate
  | Approved
  | Rejected
  | Stale
deriving DecidableEq

/-- The stable lowercase wire string of a state. -/
def RequirementLifecycle.as_str : RequirementLifecycle → String
  | Candidate => "candidate"
  | Approved => "approved"
  | Rejected => "rejected"
  | Stale => "stale"

/-- The one effective lifecycle state of a curated patch. -/
abbrev PatchLifecycle := RequirementLifecycle

def binds (current_digest : String) (head : ReviewNode) : Bool :=
  head.reviewed_content_sha256.as_str == current_digest

/-- Current-digest rejection beats current-digest approval beats older-digest
approval beats nothing. -/
def derive_state (heads : List ReviewNode) (current_digest : String) : RequirementLifecycle :=
  if heads.any fun head => head.decision == .Reject && binds current_digest head then .Rejected
  else if heads.any fun head => head.decision == .Approve && binds current_digest head then
    .Approved
  else if heads.any fun head => head.decision == .Approve && !binds current_digest head then .Stale
  else .Candidate

/-- The reviews of a target that no review supersedes, in uid order. -/
def effective_heads (graph : CorpusGraph) (target : ReviewTarget) : List ReviewNode :=
  (graph.reviews_for target).filter fun review => review.uid ∉ graph.superseded_review_uids

section Evaluation

variable [Sha256] [F64Display]

/-! ## Requirements -/

structure LifecycleEvaluation where
  requirement_uid : String
  state : RequirementLifecycle
  current_digest : ReviewContentDigest
  effective_review_uids : List String
deriving DecidableEq

/-- The failures of lifecycle evaluation. -/
inductive LifecycleError where
  | InvalidGraph (source : CorpusError)
  | RequirementMissing (requirement_uid : String)
  | ApprovalTargetsMissingRequirement (requirement_uid review_uid : String)
deriving DecidableEq

omit [Sha256] [F64Display] in
/-- A missing requirement with reviews targeting it is invalid graph data; without
reviews it is simply absent. -/
def missing_requirement_error (graph : CorpusGraph) (requirement_uid : String) : LifecycleError :=
  match (graph.reviews_for_requirement requirement_uid).head? with
  | some review => .ApprovalTargetsMissingRequirement requirement_uid review.uid
  | none => .RequirementMissing requirement_uid

omit [F64Display] in
def evaluate_lifecycle_validated (graph : CorpusGraph) (requirement_uid : String) :
    Except LifecycleError LifecycleEvaluation :=
  match graph.review_content requirement_uid with
  | none => .error (missing_requirement_error graph requirement_uid)
  | some content =>
    let current_digest := review_content_digest_v1 content
    let heads := effective_heads graph (.Requirement requirement_uid)
    .ok
      { requirement_uid := requirement_uid
        state := derive_state heads current_digest.as_str
        current_digest := current_digest
        effective_review_uids := heads.map ReviewNode.uid }

def evaluate_lifecycle (graph : CorpusGraph) (requirement_uid : String) :
    Except LifecycleError LifecycleEvaluation := do
  graph.validate.mapError .InvalidGraph
  evaluate_lifecycle_validated graph requirement_uid

def check_reviewed_requirement (graph : CorpusGraph) (review : ReviewNode) :
    Except LifecycleError Unit :=
  match review.target with
  | .Requirement requirement_uid =>
    failIf (((graph.get requirement_uid).bind Node.as_requirement).isNone = true)
      (.ApprovalTargetsMissingRequirement requirement_uid review.uid)
  | .CuratedPatch _ => .ok ()

/-- The requirement nodes, in uid order. -/
def CorpusGraph.requirements (graph : CorpusGraph) : List RequirementNode :=
  graph.nodes.values.filterMap Node.as_requirement

def evaluate_all_lifecycles (graph : CorpusGraph) :
    Except LifecycleError (Store LifecycleEvaluation.requirement_uid) := do
  graph.validate.mapError .InvalidGraph
  graph.reviews.forM (check_reviewed_requirement graph)
  graph.requirements.foldlM
    (fun evaluations requirement =>
      evaluations.put <$> evaluate_lifecycle_validated graph requirement.uid) Store.empty

/-! ## What the requirement evaluation computes -/

def requirement_evaluation (graph : CorpusGraph) (requirement : RequirementNode) :
    LifecycleEvaluation :=
  let current_digest := review_content_digest_v1 (.from_node requirement)
  let heads := effective_heads graph (.Requirement requirement.uid)
  { requirement_uid := requirement.uid
    state := derive_state heads current_digest.as_str
    current_digest := current_digest
    effective_review_uids := heads.map ReviewNode.uid }

def lifecycle_evaluations (graph : CorpusGraph) : Store LifecycleEvaluation.requirement_uid :=
  graph.requirements.foldl
    (fun evaluations requirement => evaluations.put (requirement_evaluation graph requirement))
    Store.empty

omit [Sha256] [F64Display] in
theorem CorpusGraph.mem_requirements {graph : CorpusGraph} {requirement : RequirementNode} :
    requirement ∈ graph.requirements ↔
      graph.get requirement.uid = some (.Requirement requirement) := by
  rw [CorpusGraph.requirements, List.mem_filterMap]
  constructor
  · rintro ⟨node, hnode, hrequirement⟩
    cases node with
    | Requirement found =>
      cases hrequirement
      exact Store.mem_values.mp hnode
    | Test found => cases hrequirement
    | Review found => cases hrequirement
    | SourceRevision found => cases hrequirement
  · intro hget
    exact ⟨.Requirement requirement, Store.mem_values_of_get hget, rfl⟩

omit [Sha256] [F64Display] in
theorem CorpusGraph.requirements_uids_nodup (graph : CorpusGraph) :
    (graph.requirements.map RequirementNode.uid).Nodup := by
  refine graph.nodes.values_keys_nodup.sublist (Lists.map_filterMap_sublist ?_ _)
  intro node requirement hnode
  cases node <;> cases hnode
  rfl

omit [F64Display] in
theorem lifecycle_evaluations_get {graph : CorpusGraph} {uid : String} :
    (lifecycle_evaluations graph).get uid =
      ((graph.get uid).bind Node.as_requirement).map (requirement_evaluation graph) := by
  have hnodup : (graph.requirements.map fun requirement =>
      (requirement_evaluation graph requirement).requirement_uid).Nodup :=
    graph.requirements_uids_nodup
  cases hrequirement : (graph.get uid).bind Node.as_requirement with
  | some requirement =>
    obtain ⟨node, hnode, hsome⟩ := Option.bind_eq_some_iff.mp hrequirement
    cases node <;> cases hsome
    have huid : (Node.Requirement requirement).uid = uid := Store.key_of_get hnode
    subst huid
    exact Store.get_foldl_put_of_mem (requirement_evaluation graph) hnodup Store.empty
      (CorpusGraph.mem_requirements.mpr hnode)
  | none =>
    refine (Store.get_foldl_put_of_not_mem (requirement_evaluation graph) hnodup Store.empty
      ?_).trans (Store.get_empty uid)
    intro hmem
    obtain ⟨requirement, hlisted, rfl⟩ := List.mem_map.mp hmem
    rw [requirement_evaluation, CorpusGraph.mem_requirements.mp hlisted] at hrequirement
    cases hrequirement

omit [F64Display] in
theorem evaluate_lifecycle_validated_ok {graph : CorpusGraph} {requirement : RequirementNode}
    (hrequirement : requirement ∈ graph.requirements) :
    evaluate_lifecycle_validated graph requirement.uid =
      .ok (requirement_evaluation graph requirement) := by
  rw [evaluate_lifecycle_validated, CorpusGraph.review_content,
    CorpusGraph.mem_requirements.mp hrequirement]
  rfl

/-- **The evaluator accepts exactly the valid corpora, and evaluates every requirement.** -/
theorem evaluate_all_lifecycles_ok_iff {graph : CorpusGraph}
    {evaluations : Store LifecycleEvaluation.requirement_uid} :
    evaluate_all_lifecycles graph = .ok evaluations ↔
      graph.validate = .ok () ∧ evaluations = lifecycle_evaluations graph := by
  have hloop : (graph.requirements.foldlM
      (fun evaluations requirement =>
        evaluations.put <$> evaluate_lifecycle_validated graph requirement.uid) Store.empty :
        Except LifecycleError (Store LifecycleEvaluation.requirement_uid)) =
      .ok (lifecycle_evaluations graph) := by
    refine foldlM_eq_ok fun requirement hrequirement evaluations => ?_
    rw [evaluate_lifecycle_validated_ok hrequirement]
    rfl
  rw [evaluate_all_lifecycles, seq_ok_iff, seq_ok_iff, mapError_ok_iff, hloop,
    Except.ok.injEq, forM_ok_iff]
  constructor
  · rintro ⟨hvalid, -, heq⟩
    exact ⟨hvalid, heq.symm⟩
  · rintro ⟨hvalid, heq⟩
    refine ⟨hvalid, fun review hreview => ?_, heq.symm⟩
    cases htarget : review.target with
    | CuratedPatch uid => rw [check_reviewed_requirement, htarget]
    | Requirement requirement_uid =>
      have hsome := graph.reviewed_requirement hvalid hreview htarget
      rw [check_reviewed_requirement, htarget]
      simp only [failIf_ok_iff, Option.isNone_iff_eq_none]
      exact fun hnone => by simp [hnone] at hsome

/-! ## Curated patches -/

structure PatchLifecycleEvaluation where
  patch_uid : String
  state : PatchLifecycle
  current_digest : StructuralContentDigest
  effective_review_uids : List String
deriving DecidableEq

/-- The failures of patch lifecycle evaluation. -/
inductive PatchLifecycleError where
  | InvalidGraph (source : CorpusError)
  | PatchMissing (patch_uid : String)
  | ReviewTargetsMissingPatch (patch_uid review_uid : String)
deriving DecidableEq

/-- A missing patch with reviews targeting it is invalid graph data; without reviews
it is simply absent. -/
def missing_patch_error (graph : CorpusGraph) (patch_uid : String) : PatchLifecycleError :=
  match (graph.reviews_for_patch patch_uid).head? with
  | some review => .ReviewTargetsMissingPatch patch_uid review.uid
  | none => .PatchMissing patch_uid

def patch_evaluation (graph : CorpusGraph) (patch : SourcePatchRecord) :
    PatchLifecycleEvaluation :=
  let heads := effective_heads graph (.CuratedPatch patch.uid)
  { patch_uid := patch.uid
    state := derive_state heads patch.reviewed_content_digest.as_str
    current_digest := patch.reviewed_content_digest
    effective_review_uids := heads.map ReviewNode.uid }

def evaluate_patch_lifecycle_validated (graph : CorpusGraph) (patch_uid : String) :
    Except PatchLifecycleError PatchLifecycleEvaluation :=
  match graph.source_patch patch_uid with
  | none => .error (missing_patch_error graph patch_uid)
  | some patch => .ok (patch_evaluation graph patch)

/-- The effective lifecycle of one curated patch. -/
def evaluate_patch_lifecycle (graph : CorpusGraph) (patch_uid : String) :
    Except PatchLifecycleError PatchLifecycleEvaluation := do
  graph.validate.mapError .InvalidGraph
  evaluate_patch_lifecycle_validated graph patch_uid

/-- A review of a curated patch names one. -/
def check_reviewed_patch (graph : CorpusGraph) (review : ReviewNode) :
    Except PatchLifecycleError Unit :=
  match review.target with
  | .CuratedPatch patch_uid =>
    failIf ((graph.source_patch patch_uid).isNone = true)
      (.ReviewTargetsMissingPatch patch_uid review.uid)
  | .Requirement _ => .ok ()

def evaluate_all_patch_lifecycles (graph : CorpusGraph) :
    Except PatchLifecycleError (Store PatchLifecycleEvaluation.patch_uid) := do
  graph.validate.mapError .InvalidGraph
  graph.reviews.forM (check_reviewed_patch graph)
  graph.source_patches.values.foldlM
    (fun evaluations patch =>
      evaluations.put <$> evaluate_patch_lifecycle_validated graph patch.uid) Store.empty

/-! ## What the patch evaluation computes -/

def patch_evaluations (graph : CorpusGraph) : Store PatchLifecycleEvaluation.patch_uid :=
  graph.source_patches.values.foldl
    (fun evaluations patch => evaluations.put (patch_evaluation graph patch)) Store.empty

omit [Sha256] [F64Display] in
theorem patch_evaluations_get {graph : CorpusGraph} {uid : String} :
    (patch_evaluations graph).get uid =
      (graph.source_patch uid).map (patch_evaluation graph) := by
  have hnodup : (graph.source_patches.values.map fun patch =>
      (patch_evaluation graph patch).patch_uid).Nodup := graph.source_patches.values_keys_nodup
  rw [patch_evaluations, Store.get_foldl_put (patch_evaluation graph) hnodup, Store.get_empty,
    Option.or_none]
  exact congrArg (Option.map (patch_evaluation graph)) (graph.source_patches.find?_values uid)

/-- **The evaluator accepts exactly the valid corpora, and evaluates every committed
patch.** -/
theorem evaluate_all_patch_lifecycles_ok_iff {graph : CorpusGraph}
    {evaluations : Store PatchLifecycleEvaluation.patch_uid} :
    evaluate_all_patch_lifecycles graph = .ok evaluations ↔
      graph.validate = .ok () ∧ evaluations = patch_evaluations graph := by
  have hloop : (graph.source_patches.values.foldlM
      (fun evaluations patch =>
        evaluations.put <$> evaluate_patch_lifecycle_validated graph patch.uid) Store.empty :
        Except PatchLifecycleError (Store PatchLifecycleEvaluation.patch_uid)) =
      .ok (patch_evaluations graph) := by
    refine foldlM_eq_ok fun patch hpatch evaluations => ?_
    have hget : graph.source_patch patch.uid = some patch := Store.mem_values.mp hpatch
    rw [evaluate_patch_lifecycle_validated, hget]
    rfl
  rw [evaluate_all_patch_lifecycles, seq_ok_iff, seq_ok_iff, mapError_ok_iff, hloop,
    Except.ok.injEq, forM_ok_iff]
  constructor
  · rintro ⟨hvalid, -, heq⟩
    exact ⟨hvalid, heq.symm⟩
  · rintro ⟨hvalid, heq⟩
    refine ⟨hvalid, fun review hreview => ?_, heq.symm⟩
    cases htarget : review.target with
    | Requirement uid => rw [check_reviewed_patch, htarget]
    | CuratedPatch patch_uid =>
      have hsome := graph.reviewed_patch hvalid hreview htarget
      rw [check_reviewed_patch, htarget]
      simp only [failIf_ok_iff, Option.isNone_iff_eq_none]
      exact fun hnone => by simp [hnone] at hsome

end Evaluation

end Evidence.Corpus
