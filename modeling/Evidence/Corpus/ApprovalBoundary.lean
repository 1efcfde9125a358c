/-
`corpus/approval_boundary.rs` -- under explicit enforcement, no implementation or
verification evidence claims an unapproved requirement, and every approved curated
patch applies to its revision's parser graph.

The claims are gathered over the whole corpus and reported together, sorted by
requirement and then by the referring artifact. The patch plane is checked last,
one approved patch at a time, each against the committed parser graph.
-/
import Evidence.Corpus.Lifecycle
import Evidence.Corpus.SourcePatch.Apply

set_option autoImplicit false

namespace Evidence.Corpus

open Check Sorting

/-- Explicit lifecycle-enforcement input. -/
inductive LifecycleEnforcement where
  | Required
deriving DecidableEq

/-- The artifact whose claim against a requirement is gated. -/
inductive ReferringArtifact where
  | Test (test_uid test_id : String)
  | ImplementationModules (modules : List String)
  | EmittedDiagnostics (codes : List String)
deriving DecidableEq

/-- The order of the referring artifacts: by variant, then by their fields. -/
def ReferringArtifact.cmp : ReferringArtifact → ReferringArtifact → Ordering
  | .Test uid id, .Test uid' id' => (compare uid uid').then (compare id id')
  | .Test .., _ => .lt
  | .ImplementationModules _, .Test .. => .gt
  | .ImplementationModules modules, .ImplementationModules modules' => compare modules modules'
  | .ImplementationModules _, .EmittedDiagnostics _ => .lt
  | .EmittedDiagnostics codes, .EmittedDiagnostics codes' => compare codes codes'
  | .EmittedDiagnostics _, _ => .gt

structure ApprovalBoundaryViolation where
  requirement_uid : String
  requirement_id : String
  state : RequirementLifecycle
  referring : ReferringArtifact
deriving DecidableEq

/-- The failures of approval-boundary validation. -/
inductive ApprovalBoundaryError where
  | Violations (violations : List ApprovalBoundaryViolation)
  | Lifecycle (source : LifecycleError)
  | InvariantMissingEvaluation (requirement_uid : String)
  | PatchLifecycle (source : PatchLifecycleError)
  | EffectiveCuratedContent (patch_uid : String) (source : SourcePatchError)
  | InvariantMissingPatchEvaluation (patch_uid : String)
deriving DecidableEq

/-! ## Claims -/

section Claims

variable (graph : CorpusGraph) (evaluations : Store LifecycleEvaluation.requirement_uid)

def verifies_claim (test : TestNode) (target : String) :
    Except ApprovalBoundaryError (List ApprovalBoundaryViolation) :=
  match graph.get target, evaluations.get target with
  | some target_node, some evaluation =>
    .ok (if evaluation.state = .Approved then []
      else
        [{ requirement_uid := target
           requirement_id := target_node.id
           state := evaluation.state
           referring := .Test test.uid test.id }])
  | _, _ => .error (.Lifecycle (.RequirementMissing target))

def implementation_claims (requirement : RequirementNode) :
    Except ApprovalBoundaryError (List ApprovalBoundaryViolation) :=
  match evaluations.get requirement.uid with
  | none => .error (.InvariantMissingEvaluation requirement.uid)
  | some evaluation =>
    let violation := fun referring =>
      { requirement_uid := requirement.uid
        requirement_id := requirement.id
        state := evaluation.state
        referring := referring : ApprovalBoundaryViolation }
    match graph.trace_metadata.get requirement.uid with
    | some (_, .Requirement metadata) =>
      .ok (if evaluation.state = .Approved then []
        else
          (if metadata.modules.isEmpty then []
            else [violation (.ImplementationModules metadata.modules)]) ++
          (if metadata.emits.isEmpty then [] else [violation (.EmittedDiagnostics metadata.emits)]))
    | _ => .ok []

/-- The violations of one node's claims, in order. -/
def node_claims (node : Node) : Except ApprovalBoundaryError (List ApprovalBoundaryViolation) :=
  match node with
  | .Test test =>
    List.flatten <$> (edge_targets .Verifies test.edges).mapM (verifies_claim graph evaluations test)
  | .Requirement requirement => implementation_claims graph evaluations requirement
  | .Review _ => .ok []
  | .SourceRevision _ => .ok []

/-- Violations are sorted by requirement uid, then by referring artifact. -/
def violation_cmp : ApprovalBoundaryViolation → ApprovalBoundaryViolation → Ordering :=
  compareLex (compareOn ApprovalBoundaryViolation.requirement_uid)
    fun left right => left.referring.cmp right.referring

end Claims

/-! ## The boundary -/

variable [Sha256] [F64Display]

/-- One curated patch under enforcement: an approved patch applies cleanly to its
revision's committed parser graph, under its recorded bindings. -/
def validate_effective_patch (graph : CorpusGraph)
    (patch_evaluations : Store PatchLifecycleEvaluation.patch_uid) (patch : SourcePatchRecord) :
    Except ApprovalBoundaryError Unit :=
  match patch_evaluations.get patch.uid with
  | none => .error (.InvariantMissingPatchEvaluation patch.uid)
  | some evaluation =>
    if evaluation.state ≠ .Approved then .ok ()
    else
      match (graph.get patch.source_revision_uid).bind Node.as_source_revision with
      | none => .error (.InvariantMissingPatchEvaluation patch.uid)
      | some revision =>
        match apply_patch (graph.parser_graph patch.source_revision_uid) patch
          ⟨patch.recipe_digest, patch.input_digest⟩ revision.media_type with
        | .ok _ => .ok ()
        | .error source => .error (.EffectiveCuratedContent patch.uid source)

/-- The patch plane under explicit enforcement. -/
def validate_effective_curated_content (graph : CorpusGraph) :
    Except ApprovalBoundaryError Unit := do
  let patch_evaluations ← (evaluate_all_patch_lifecycles graph).mapError .PatchLifecycle
  graph.source_patches.values.forM (validate_effective_patch graph patch_evaluations)

/-- Every gated claim must target an approved requirement. -/
def validate_required (graph : CorpusGraph) : Except ApprovalBoundaryError Unit := do
  let evaluations ← (evaluate_all_lifecycles graph).mapError .Lifecycle
  let claims ← graph.nodes.values.mapM (node_claims graph evaluations)
  let violations := sortBy violation_cmp claims.flatten
  failIf (violations ≠ []) (.Violations violations)
  validate_effective_curated_content graph

/-- No implementation or verification evidence claims an unapproved requirement. -/
def validate_approval_boundary (graph : CorpusGraph) (enforcement : LifecycleEnforcement) :
    Except ApprovalBoundaryError Unit :=
  match enforcement with
  | .Required => validate_required graph

/-! ## What an accepted boundary says of the patches -/

def approved_patches (graph : CorpusGraph) (source_revision_uid : String) :
    List SourcePatchRecord :=
  graph.source_patches.values.filter fun patch =>
    patch.source_revision_uid == source_revision_uid &&
      (patch_evaluation graph patch).state == .Approved

/-- **Behind an accepted boundary every approved patch applies, on its own, to the
parser graph of its revision.** -/
theorem approved_patch_applies {graph : CorpusGraph}
    (hboundary : validate_approval_boundary graph .Required = .ok ())
    {revision : SourceRevisionNode} (hrevision : revision ∈ graph.source_revisions)
    {patch : SourcePatchRecord} (hpatch : patch ∈ approved_patches graph revision.uid) :
    ∃ application, apply_patch (graph.parser_graph revision.uid) patch
      ⟨patch.recipe_digest, patch.input_digest⟩ revision.media_type = .ok application := by
  obtain ⟨hmem, happroved⟩ := List.mem_filter.mp hpatch
  rw [Bool.and_eq_true, beq_iff_eq, beq_iff_eq] at happroved
  obtain ⟨huid, hstate⟩ := happroved
  rw [validate_approval_boundary, validate_required, bind_ok_iff] at hboundary
  obtain ⟨_, -, hboundary⟩ := hboundary
  rw [bind_ok_iff] at hboundary
  obtain ⟨_, -, hboundary⟩ := hboundary
  rw [seq_ok_iff, validate_effective_curated_content, bind_ok_iff] at hboundary
  obtain ⟨-, evaluations, hevaluations, hloop⟩ := hboundary
  rw [mapError_ok_iff] at hevaluations
  obtain ⟨-, rfl⟩ := evaluate_all_patch_lifecycles_ok_iff.mp hevaluations
  have hgot : (patch_evaluations graph).get patch.uid = some (patch_evaluation graph patch) := by
    rw [patch_evaluations_get, CorpusGraph.source_patch, Store.mem_values.mp hmem, Option.map_some]
  have hone := forM_ok_iff.mp hloop patch hmem
  rw [validate_effective_patch, hgot] at hone
  simp only [hstate, ne_eq, not_true, if_false, huid, CorpusGraph.get_revision hrevision,
    Option.bind_some, Node.as_source_revision] at hone
  cases happly : apply_patch (graph.parser_graph revision.uid) patch
      ⟨patch.recipe_digest, patch.input_digest⟩ revision.media_type with
  | ok application => exact ⟨application, rfl⟩
  | error source =>
    rw [happly] at hone
    cases hone

end Evidence.Corpus
