/-
What the approval boundary accepts, and what it reports.

A claim is a `Verifies` edge of a test, or a list of modules or of emitted codes in the trace
metadata of a requirement. Over a valid corpus every requirement has an evaluated state, so each
claim is judged (`node_claims_eq`); the boundary is accepted when every claimed requirement is
approved and every approved patch applies, and otherwise the violations are the claims on the
requirements that are not (`validate_required_eq`).
-/
import Evidence.Corpus.ApprovalBoundary
import Evidence.Corpus.InsertOrder

set_option autoImplicit false

namespace Evidence.Corpus

open Std Check Sorting

/-! ## The graphs the writes build -/

inductive CorpusGraph.Built : CorpusGraph → Prop where
  | new : Built CorpusGraph.new
  | insert {graph graph' : CorpusGraph} {node : Node} (hbuilt : Built graph)
      (h : graph.insert node = .ok graph') : Built graph'
  | insert_with_trace_metadata {graph graph' : CorpusGraph} {node : Node}
      {metadata : TraceMetadata} (hbuilt : Built graph)
      (h : graph.insert_with_trace_metadata node metadata = .ok graph') : Built graph'
  | insert_source_node {graph graph' : CorpusGraph} {node : SourceNode} (hbuilt : Built graph)
      (h : graph.insert_source_node node = .ok graph') : Built graph'
  | insert_source_patch {graph graph' : CorpusGraph} {patch : SourcePatchRecord}
      (hbuilt : Built graph) (h : graph.insert_source_patch patch = .ok graph') : Built graph'

theorem CorpusGraph.insert_edges_nodup {graph graph' : CorpusGraph} {node : Node}
    (hnodes : ∀ old ∈ graph.nodes.values, old.edges.Nodup) (h : graph.insert node = .ok graph') :
    ∀ old ∈ graph'.nodes.values, old.edges.Nodup := by
  obtain ⟨-, -, hedges, rfl⟩ := CorpusGraph.insert_ok_iff.mp h
  intro old hold
  obtain rfl | ⟨-, hold⟩ := Store.mem_values_put.mp hold
  · have hcanonical : (CorpusGraph.canonical node).edges =
        sortBy CorpusGraph.edge_cmp node.edges := by
      cases node <;> rfl
    rw [hcanonical, (sortBy_perm _).nodup_iff]
    exact repeated_sortBy_eq_none_iff.mp hedges
  · exact hnodes old hold

/-- **No node of a built graph lists an edge twice.** -/
theorem CorpusGraph.Built.edges_nodup {graph : CorpusGraph} (hbuilt : graph.Built) :
    ∀ node ∈ graph.nodes.values, node.edges.Nodup := by
  induction hbuilt with
  | new => exact fun node hnode => absurd hnode (Store.not_mem_values_empty node)
  | insert _ h ih => exact CorpusGraph.insert_edges_nodup ih h
  | insert_with_trace_metadata _ h ih =>
    rw [CorpusGraph.insert_with_trace_metadata, bind_ok_iff] at h
    obtain ⟨inserted, hinsert, hrest⟩ := h
    cases hrest
    have hnodes := CorpusGraph.insert_edges_nodup ih hinsert
    exact hnodes
  | insert_source_node _ h ih =>
    obtain ⟨_, -, hnodes, -⟩ := CorpusGraph.insert_source_node_ok h
    rwa [hnodes]
  | insert_source_patch _ h ih =>
    unfold CorpusGraph.insert_source_patch at h
    split at h
    · cases h
    · split at h <;> cases h
      exact ih

/-! ## The order of the violations -/

def ReferringArtifact.rank : ReferringArtifact → ℕ
  | .Test .. => 0
  | .ImplementationModules _ => 1
  | .EmittedDiagnostics _ => 2

def ReferringArtifact.test : ReferringArtifact → String × String
  | .Test uid id => (uid, id)
  | _ => ("", "")

def ReferringArtifact.listed : ReferringArtifact → List String
  | .Test .. => []
  | .ImplementationModules modules => modules
  | .EmittedDiagnostics codes => codes

/-- The derived order compares variants, then fields. -/
theorem ReferringArtifact.cmp_eq : ReferringArtifact.cmp =
    compareLex (compareOn ReferringArtifact.rank)
      (compareLex (compareLex (compareOn fun a => a.test.1) (compareOn fun a => a.test.2))
        (compareOn ReferringArtifact.listed)) := by
  funext a b
  cases a <;> cases b <;>
    simp only [ReferringArtifact.cmp, compareLex, compareOn, ReferringArtifact.rank,
      ReferringArtifact.test, ReferringArtifact.listed, ReflCmp.compare_self, Ordering.then_eq,
      Ordering.eq_then]
  -- the variants differ
  all_goals rfl

instance : TransCmp ReferringArtifact.cmp := by
  rw [ReferringArtifact.cmp_eq]
  infer_instance

instance : TransCmp fun left right : ApprovalBoundaryViolation =>
    left.referring.cmp right.referring :=
  transCmp_on ApprovalBoundaryViolation.referring

instance : TransCmp violation_cmp :=
  inferInstanceAs (TransCmp (compareLex (compareOn ApprovalBoundaryViolation.requirement_uid)
    fun left right => left.referring.cmp right.referring))

/-! ## Claims -/

section Claims

inductive Claims (graph : CorpusGraph) (requirement : RequirementNode) :
    ReferringArtifact → Prop where
  | verifies {test : TestNode} (htest : Node.Test test ∈ graph.nodes.values)
      (hedge : (EdgeKind.Verifies, requirement.uid) ∈ test.edges) :
      Claims graph requirement (.Test test.uid test.id)
  | modules {uid : String} {metadata : RequirementMetadata}
      (hmetadata : graph.trace_metadata.get requirement.uid = some (uid, .Requirement metadata))
      (hlisted : metadata.modules ≠ []) :
      Claims graph requirement (.ImplementationModules metadata.modules)
  | emits {uid : String} {metadata : RequirementMetadata}
      (hmetadata : graph.trace_metadata.get requirement.uid = some (uid, .Requirement metadata))
      (hlisted : metadata.emits ≠ []) :
      Claims graph requirement (.EmittedDiagnostics metadata.emits)

/-- The implementation claims on a requirement, in order. -/
def implementation_referrings (graph : CorpusGraph) (requirement : RequirementNode) :
    List ReferringArtifact :=
  match graph.trace_metadata.get requirement.uid with
  | some (_, .Requirement metadata) =>
    (if metadata.modules = [] then [] else [.ImplementationModules metadata.modules]) ++
      (if metadata.emits = [] then [] else [.EmittedDiagnostics metadata.emits])
  | _ => []

def claims_of (graph : CorpusGraph) : Node → List (RequirementNode × ReferringArtifact)
  | .Test test => (edge_targets .Verifies test.edges).flatMap fun target =>
      ((graph.get target).bind Node.as_requirement).toList.map fun requirement =>
        (requirement, .Test test.uid test.id)
  | .Requirement requirement =>
    (implementation_referrings graph requirement).map fun referring => (requirement, referring)
  | .Review _ => []
  | .SourceRevision _ => []

theorem mem_implementation_referrings {graph : CorpusGraph} {requirement : RequirementNode}
    {referring : ReferringArtifact} :
    referring ∈ implementation_referrings graph requirement ↔
      ∃ uid metadata, graph.trace_metadata.get requirement.uid = some (uid, .Requirement metadata) ∧
        ((metadata.modules ≠ [] ∧ referring = .ImplementationModules metadata.modules) ∨
          (metadata.emits ≠ [] ∧ referring = .EmittedDiagnostics metadata.emits)) := by
  unfold implementation_referrings
  split
  · next uid metadata hget =>
    rw [hget, List.mem_append]
    by_cases hmodules : metadata.modules = [] <;> by_cases hemits : metadata.emits = [] <;>
      simp [hmodules, hemits]
  · next hother =>
    constructor
    · intro hmem
      cases hmem
    · rintro ⟨uid, metadata, hget, -⟩
      exact absurd hget (hother uid metadata)

/-- **The nodes of a graph make exactly its claims.** -/
theorem mem_claims_of_iff {graph : CorpusGraph} {requirement : RequirementNode}
    {referring : ReferringArtifact} :
    (∃ node ∈ graph.nodes.values, (requirement, referring) ∈ claims_of graph node) ↔
      requirement ∈ graph.requirements ∧ Claims graph requirement referring := by
  constructor
  · rintro ⟨node, hnode, hclaim⟩
    cases node with
    | Test test =>
      obtain ⟨target, htarget, hmem⟩ := List.mem_flatMap.mp hclaim
      obtain ⟨found, hfound, heq⟩ := List.mem_map.mp hmem
      cases heq
      rw [Option.mem_toList] at hfound
      obtain ⟨node, hget, hrequirement⟩ := Option.bind_eq_some_iff.mp hfound
      cases node <;> cases hrequirement
      have huid : (Node.Requirement requirement).uid = target := Store.key_of_get hget
      subst huid
      exact ⟨CorpusGraph.mem_requirements.mpr hget, .verifies hnode (mem_edge_targets.mp htarget)⟩
    | Requirement found =>
      obtain ⟨made, hmade, heq⟩ := List.mem_map.mp hclaim
      cases heq
      refine ⟨CorpusGraph.mem_requirements.mpr (Store.mem_values.mp hnode), ?_⟩
      obtain ⟨uid, metadata, hget, ⟨hlisted, rfl⟩ | ⟨hlisted, rfl⟩⟩ :=
        mem_implementation_referrings.mp hmade
      · exact .modules hget hlisted
      · exact .emits hget hlisted
    | Review found => cases hclaim
    | SourceRevision found => cases hclaim
  · rintro ⟨hrequirement, hclaims⟩
    have hget := CorpusGraph.mem_requirements.mp hrequirement
    have hown : ∀ {made : ReferringArtifact},
        made ∈ implementation_referrings graph requirement →
        ∃ node ∈ graph.nodes.values, (requirement, made) ∈ claims_of graph node :=
      fun hmade => ⟨.Requirement requirement, Store.mem_values_of_get hget,
        List.mem_map.mpr ⟨_, hmade, rfl⟩⟩
    cases hclaims with
    | verifies htest hedge =>
      refine ⟨_, htest, List.mem_flatMap.mpr ⟨requirement.uid, mem_edge_targets.mpr hedge, ?_⟩⟩
      rw [hget]
      exact List.mem_singleton_self _
    | modules hmetadata hlisted =>
      exact hown (mem_implementation_referrings.mpr ⟨_, _, hmetadata, .inl ⟨hlisted, rfl⟩⟩)
    | emits hmetadata hlisted =>
      exact hown (mem_implementation_referrings.mpr ⟨_, _, hmetadata, .inr ⟨hlisted, rfl⟩⟩)

/-- The node that makes a claim, by uid. -/
def maker (claim : RequirementNode × ReferringArtifact) : String :=
  match claim.2 with
  | .Test uid _ => uid
  | .ImplementationModules _ => claim.1.uid
  | .EmittedDiagnostics _ => claim.1.uid

theorem maker_of_mem {graph : CorpusGraph} {node : Node}
    {claim : RequirementNode × ReferringArtifact} (h : claim ∈ claims_of graph node) :
    maker claim = node.uid := by
  cases node with
  | Test test =>
    obtain ⟨target, -, hmem⟩ := List.mem_flatMap.mp h
    obtain ⟨found, -, rfl⟩ := List.mem_map.mp hmem
    rfl
  | Requirement found =>
    obtain ⟨made, hmade, rfl⟩ := List.mem_map.mp h
    obtain ⟨uid, metadata, -, ⟨-, rfl⟩ | ⟨-, rfl⟩⟩ := mem_implementation_referrings.mp hmade
    · rfl
    · rfl
  | Review found => cases h
  | SourceRevision found => cases h

theorem edge_targets_nodup {kind : EdgeKind} {edges : List Edge} (h : edges.Nodup) :
    (edge_targets kind edges).Nodup := by
  refine List.Nodup.map_on ?_ (h.filter _)
  intro a ha b hb htarget
  have hkind : ∀ edge ∈ edges.filter (fun edge => edge.1 == kind), edge.1 = kind :=
    fun edge hedge => beq_iff_eq.mp (List.mem_filter.mp hedge).2
  exact Prod.ext ((hkind a ha).trans (hkind b hb).symm) htarget

/-- **No claim is made twice** where no node lists an edge twice. -/
theorem claims_nodup {graph : CorpusGraph}
    (hedges : ∀ node ∈ graph.nodes.values, node.edges.Nodup) :
    (graph.nodes.values.flatMap (claims_of graph)).Nodup := by
  rw [List.nodup_flatMap]
  constructor
  · intro node hnode
    cases node with
    | Test test =>
      refine List.nodup_flatMap.mpr ⟨?_, ?_⟩
      · intro target _
        cases (graph.get target).bind Node.as_requirement with
        | none => exact List.nodup_nil
        | some found => exact List.nodup_singleton _
      · refine (edge_targets_nodup (hedges _ hnode)).imp ?_
        intro target other hne claim hleft hright
        obtain ⟨found, hfound, rfl⟩ := List.mem_map.mp hleft
        obtain ⟨found', hfound', heq⟩ := List.mem_map.mp hright
        cases heq
        obtain ⟨node, hget, hsome⟩ := Option.bind_eq_some_iff.mp (Option.mem_toList.mp hfound)
        obtain ⟨node', hget', hsome'⟩ := Option.bind_eq_some_iff.mp (Option.mem_toList.mp hfound')
        cases node <;> cases hsome
        cases node' <;> cases hsome'
        have huid : (Node.Requirement found).uid = target := Store.key_of_get hget
        have huid' : (Node.Requirement found).uid = other := Store.key_of_get hget'
        exact hne (huid.symm.trans huid')
    | Requirement found =>
      refine List.Nodup.map (fun _ _ heq => (Prod.mk.inj heq).2) ?_
      unfold implementation_referrings
      split
      · next uid metadata _ =>
        by_cases hmodules : metadata.modules = [] <;> by_cases hemits : metadata.emits = [] <;>
          simp [hmodules, hemits]
      · exact List.nodup_nil
    | Review found => exact List.nodup_nil
    | SourceRevision found => exact List.nodup_nil
  · have huids : graph.nodes.values.Pairwise fun a b => a.uid ≠ b.uid :=
      List.pairwise_map.mp graph.nodes.values_keys_nodup
    refine huids.imp ?_
    intro a b hne claim ha hb
    exact hne ((maker_of_mem ha).symm.trans (maker_of_mem hb))

end Claims

/-! ## The violations -/

section Boundary

variable [Sha256] [F64Display]

def offends (graph : CorpusGraph) (claim : RequirementNode × ReferringArtifact) : Bool :=
  (requirement_evaluation graph claim.1).state ≠ .Approved

def violation_of (graph : CorpusGraph) (claim : RequirementNode × ReferringArtifact) :
    ApprovalBoundaryViolation where
  requirement_uid := claim.1.uid
  requirement_id := claim.1.id
  state := (requirement_evaluation graph claim.1).state
  referring := claim.2

def violations_of (graph : CorpusGraph) (claims : List (RequirementNode × ReferringArtifact)) :
    List ApprovalBoundaryViolation :=
  (claims.filter (offends graph)).map (violation_of graph)

omit [F64Display] in
theorem violations_of_flatMap {α : Type} (graph : CorpusGraph)
    (f : α → List (RequirementNode × ReferringArtifact)) (l : List α) :
    violations_of graph (l.flatMap f) = l.flatMap fun a => violations_of graph (f a) := by
  simp only [violations_of, List.filter_flatMap, List.map_flatMap]

theorem verifies_claim_eq {graph : CorpusGraph} (hvalid : graph.validate = .ok ())
    {test : TestNode} (htest : Node.Test test ∈ graph.nodes.values) {target : String}
    (htarget : target ∈ edge_targets .Verifies test.edges) :
    verifies_claim graph (lifecycle_evaluations graph) test target =
      .ok (violations_of graph (((graph.get target).bind Node.as_requirement).toList.map
        fun requirement => (requirement, .Test test.uid test.id))) := by
  obtain ⟨-, requirement, hget⟩ :=
    CorpusGraph.verifies_edge hvalid htest (mem_edge_targets.mp htarget)
  have huid : (Node.Requirement requirement).uid = target := Store.key_of_get hget
  subst huid
  rw [verifies_claim, lifecycle_evaluations_get, hget]
  by_cases hstate : (requirement_evaluation graph requirement).state = .Approved
  · simp [violations_of, offends, Node.as_requirement, hstate]
  · simp [violations_of, offends, violation_of, Node.as_requirement, hstate, Node.uid, Node.id]

omit [F64Display] in
theorem implementation_claims_eq {graph : CorpusGraph} {requirement : RequirementNode}
    (hrequirement : requirement ∈ graph.requirements) :
    implementation_claims graph (lifecycle_evaluations graph) requirement =
      .ok (violations_of graph ((implementation_referrings graph requirement).map
        fun referring => (requirement, referring))) := by
  rw [implementation_claims, lifecycle_evaluations_get,
    CorpusGraph.mem_requirements.mp hrequirement]
  simp only [Option.bind_some, Node.as_requirement, Option.map_some, implementation_referrings]
  rcases graph.trace_metadata.get requirement.uid with _ | ⟨uid, metadata | metadata⟩
  · rfl
  · by_cases hstate : (requirement_evaluation graph requirement).state = .Approved
    · simp [violations_of, offends, hstate]
    · by_cases hmodules : metadata.modules = [] <;> by_cases hemits : metadata.emits = [] <;>
        simp [violations_of, offends, violation_of, hstate, hmodules, hemits]
  · rfl

/-- **Over a valid corpus every claim is judged**: a node's violations are its claims on
requirements that are not approved. -/
theorem node_claims_eq {graph : CorpusGraph} (hvalid : graph.validate = .ok ()) {node : Node}
    (hnode : node ∈ graph.nodes.values) :
    node_claims graph (lifecycle_evaluations graph) node =
      .ok (violations_of graph (claims_of graph node)) := by
  cases node with
  | Test test =>
    have hloop : (edge_targets .Verifies test.edges).mapM
        (verifies_claim graph (lifecycle_evaluations graph) test) =
        .ok ((edge_targets .Verifies test.edges).map fun target =>
          violations_of graph (((graph.get target).bind Node.as_requirement).toList.map
            fun requirement => (requirement, .Test test.uid test.id))) := by
      rw [mapM_ok_iff, List.forall₂_map_right_iff, List.forall₂_same]
      exact fun target htarget => verifies_claim_eq hvalid hnode htarget
    rw [node_claims, hloop, claims_of, violations_of_flatMap, List.flatMap]
    rfl
  | Requirement requirement =>
    exact implementation_claims_eq (CorpusGraph.mem_requirements.mpr (Store.mem_values.mp hnode))
  | Review review => rfl
  | SourceRevision revision => rfl

def violations (graph : CorpusGraph) : List ApprovalBoundaryViolation :=
  sortBy violation_cmp (violations_of graph (graph.nodes.values.flatMap (claims_of graph)))

/-- **The boundary over a valid corpus**: its violations, and without any the patch plane. -/
theorem validate_required_eq {graph : CorpusGraph} (hvalid : graph.validate = .ok ()) :
    validate_required graph =
      if violations graph = [] then
        graph.source_patches.values.forM (validate_effective_patch graph (patch_evaluations graph))
      else .error (.Violations (violations graph)) := by
  have hevaluations := evaluate_all_lifecycles_ok_iff.mpr ⟨hvalid, rfl⟩
  have hpatches := evaluate_all_patch_lifecycles_ok_iff.mpr ⟨hvalid, rfl⟩
  have hloop : graph.nodes.values.mapM (node_claims graph (lifecycle_evaluations graph)) =
      .ok (graph.nodes.values.map fun node => violations_of graph (claims_of graph node)) := by
    rw [mapM_ok_iff, List.forall₂_map_right_iff, List.forall₂_same]
    exact fun node hnode => node_claims_eq hvalid hnode
  have hsorted : sortBy violation_cmp
      (graph.nodes.values.map fun node => violations_of graph (claims_of graph node)).flatten =
      violations graph := by
    rw [violations, violations_of_flatMap, List.flatMap]
  rw [validate_required, hevaluations]
  simp only [Except.mapError, bind, Except.bind, hloop, hsorted]
  by_cases hnone : violations graph = []
  · simp only [failIf, hnone, ne_eq, not_true, if_false, if_true]
    rw [validate_effective_curated_content, hpatches]
    rfl
  · simp only [failIf, hnone, ne_eq, not_false_eq_true, if_true, if_false]

/-! ## What is accepted, and what is reported -/

def InState (graph : CorpusGraph) (requirement_uid : String) (state : RequirementLifecycle) :
    Prop :=
  ∃ evaluation, evaluate_lifecycle graph requirement_uid = .ok evaluation ∧
    evaluation.state = state

def PatchInState (graph : CorpusGraph) (patch_uid : String) (state : PatchLifecycle) : Prop :=
  ∃ evaluation, evaluate_patch_lifecycle graph patch_uid = .ok evaluation ∧
    evaluation.state = state

/-- The patch applies to the committed graph of its revision. -/
def AppliesCleanly (graph : CorpusGraph) (patch : SourcePatchRecord) : Prop :=
  ∃ revision application,
    graph.get patch.source_revision_uid = some (.SourceRevision revision) ∧
    apply_patch (graph.parser_graph patch.source_revision_uid) patch
      ⟨patch.recipe_digest, patch.input_digest⟩ revision.media_type = .ok application

structure ClaimsApproved (graph : CorpusGraph) : Prop where
  verified : ∀ requirement ∈ graph.requirements,
    (∃ node ∈ graph.nodes.values, (EdgeKind.Verifies, requirement.uid) ∈ node.edges) →
    InState graph requirement.uid .Approved
  implemented : ∀ requirement ∈ graph.requirements, ∀ uid metadata,
    graph.trace_metadata.get requirement.uid = some (uid, .Requirement metadata) →
    metadata.modules ≠ [] ∨ metadata.emits ≠ [] → InState graph requirement.uid .Approved

/-- The violation reports a claim on a requirement that is not approved, with the state the
requirement is evaluated in. -/
def Reports (graph : CorpusGraph) (violation : ApprovalBoundaryViolation) : Prop :=
  ∃ requirement ∈ graph.requirements, Claims graph requirement violation.referring ∧
    InState graph requirement.uid violation.state ∧ violation.state ≠ .Approved ∧
    violation.requirement_uid = requirement.uid ∧ violation.requirement_id = requirement.id

theorem inState_iff {graph : CorpusGraph} (hvalid : graph.validate = .ok ())
    {requirement : RequirementNode} (hrequirement : requirement ∈ graph.requirements)
    {state : RequirementLifecycle} :
    InState graph requirement.uid state ↔
      (requirement_evaluation graph requirement).state = state := by
  rw [InState, evaluate_lifecycle, hvalid]
  simp only [Except.mapError, bind, Except.bind, evaluate_lifecycle_validated_ok hrequirement,
    Except.ok.injEq, exists_eq_left']

theorem patchInState_iff {graph : CorpusGraph} (hvalid : graph.validate = .ok ())
    {patch : SourcePatchRecord} (hpatch : patch ∈ graph.source_patches.values)
    {state : PatchLifecycle} :
    PatchInState graph patch.uid state ↔ (patch_evaluation graph patch).state = state := by
  have hget : graph.source_patch patch.uid = some patch := Store.mem_values.mp hpatch
  rw [PatchInState, evaluate_patch_lifecycle, hvalid]
  simp only [Except.mapError, bind, Except.bind, evaluate_patch_lifecycle_validated, hget,
    Except.ok.injEq, exists_eq_left']

/-- **The violations of a valid corpus report its offending claims**, and nothing else. -/
theorem mem_violations_iff {graph : CorpusGraph} (hvalid : graph.validate = .ok ())
    {violation : ApprovalBoundaryViolation} :
    violation ∈ violations graph ↔ Reports graph violation := by
  rw [violations, mem_sortBy, violations_of, List.mem_map]
  constructor
  · rintro ⟨⟨requirement, referring⟩, hclaim, rfl⟩
    obtain ⟨hmade, hoffends⟩ := List.mem_filter.mp hclaim
    obtain ⟨hrequirement, hclaims⟩ := mem_claims_of_iff.mp (List.mem_flatMap.mp hmade)
    exact ⟨requirement, hrequirement, hclaims, (inState_iff hvalid hrequirement).mpr rfl,
      of_decide_eq_true hoffends, rfl, rfl⟩
  · rintro ⟨requirement, hrequirement, hclaims, hstate, hoffends, huid, hid⟩
    have hstate := (inState_iff hvalid hrequirement).mp hstate
    refine ⟨(requirement, violation.referring), List.mem_filter.mpr ⟨List.mem_flatMap.mpr
      (mem_claims_of_iff.mpr ⟨hrequirement, hclaims⟩), ?_⟩, ?_⟩
    · rw [offends, hstate]
      exact decide_eq_true hoffends
    · rw [violation_of, hstate, ← huid, ← hid]

theorem violations_eq_nil_iff {graph : CorpusGraph} (hvalid : graph.validate = .ok ()) :
    violations graph = [] ↔ ClaimsApproved graph := by
  have happroved : violations graph = [] ↔ ∀ requirement ∈ graph.requirements,
      ∀ referring, Claims graph requirement referring →
        InState graph requirement.uid .Approved := by
    rw [List.eq_nil_iff_forall_not_mem]
    simp only [mem_violations_iff hvalid]
    constructor
    · intro hnone requirement hrequirement referring hclaims
      by_contra hstate
      refine hnone (violation_of graph (requirement, referring)) ⟨requirement, hrequirement,
        hclaims, (inState_iff hvalid hrequirement).mpr rfl, ?_, rfl, rfl⟩
      exact fun happroved => hstate ((inState_iff hvalid hrequirement).mpr happroved)
    · rintro hall violation ⟨requirement, hrequirement, hclaims, hstate, hoffends, -, -⟩
      have happroved := hall requirement hrequirement _ hclaims
      rw [inState_iff hvalid hrequirement] at hstate happroved
      exact hoffends (hstate.symm.trans happroved)
  rw [happroved]
  constructor
  · intro hall
    refine ⟨?_, ?_⟩
    · rintro requirement hrequirement ⟨node, hnode, hedge⟩
      obtain ⟨⟨test, rfl⟩, -⟩ := CorpusGraph.verifies_edge hvalid hnode hedge
      exact hall requirement hrequirement _ (.verifies hnode hedge)
    · rintro requirement hrequirement uid metadata hmetadata (hmodules | hemits)
      · exact hall requirement hrequirement _ (.modules hmetadata hmodules)
      · exact hall requirement hrequirement _ (.emits hmetadata hemits)
  · intro happroved requirement hrequirement referring hclaims
    cases hclaims with
    | verifies htest hedge => exact happroved.verified requirement hrequirement ⟨_, htest, hedge⟩
    | modules hmetadata hlisted =>
      exact happroved.implemented requirement hrequirement _ _ hmetadata (.inl hlisted)
    | emits hmetadata hlisted =>
      exact happroved.implemented requirement hrequirement _ _ hmetadata (.inr hlisted)

omit [F64Display] in
theorem violations_nodup {graph : CorpusGraph}
    (hedges : ∀ node ∈ graph.nodes.values, node.edges.Nodup) : (violations graph).Nodup := by
  rw [violations, (sortBy_perm _).nodup_iff, violations_of]
  refine List.Nodup.map_on ?_ ((claims_nodup hedges).filter _)
  rintro ⟨requirement, referring⟩ hclaim ⟨other, referring'⟩ hclaim' heq
  obtain ⟨hmem, -⟩ := mem_claims_of_iff.mp (List.mem_flatMap.mp (List.mem_filter.mp hclaim).1)
  obtain ⟨hmem', -⟩ := mem_claims_of_iff.mp (List.mem_flatMap.mp (List.mem_filter.mp hclaim').1)
  have huid : requirement.uid = other.uid :=
    congrArg ApprovalBoundaryViolation.requirement_uid heq
  have hreferring : referring = referring' := congrArg ApprovalBoundaryViolation.referring heq
  have hget := CorpusGraph.mem_requirements.mp hmem
  rw [huid, CorpusGraph.mem_requirements.mp hmem'] at hget
  cases hget
  rw [hreferring]

theorem validate_effective_patch_eq {graph : CorpusGraph} (hvalid : graph.validate = .ok ())
    {patch : SourcePatchRecord} (hpatch : patch ∈ graph.source_patches.values) :
    (validate_effective_patch graph (patch_evaluations graph) patch = .ok () ↔
      (PatchInState graph patch.uid .Approved → AppliesCleanly graph patch)) ∧
    ∀ error, validate_effective_patch graph (patch_evaluations graph) patch = .error error →
      ∃ source, error = .EffectiveCuratedContent patch.uid source := by
  obtain ⟨⟨revision, hrevision, huid⟩, -, -⟩ := CorpusGraph.patch_wellBound hvalid hpatch
  have hget : graph.source_patch patch.uid = some patch := Store.mem_values.mp hpatch
  have hnode := CorpusGraph.get_revision hrevision
  rw [huid] at hnode
  rw [patchInState_iff hvalid hpatch, validate_effective_patch, patch_evaluations_get, hget,
    Option.map_some]
  by_cases hstate : (patch_evaluation graph patch).state = .Approved
  · simp only [AppliesCleanly, hstate, ne_eq, not_true, if_false, hnode, Option.bind_some,
      Node.as_source_revision, true_imp_iff, Option.some.injEq, Node.SourceRevision.injEq]
    cases happly : apply_patch (graph.parser_graph patch.source_revision_uid) patch
        ⟨patch.recipe_digest, patch.input_digest⟩ revision.media_type with
    | ok application =>
      refine ⟨⟨fun _ => ⟨revision, application, rfl, happly⟩, fun _ => rfl⟩, ?_⟩
      intro error herror
      cases herror
    | error source =>
      refine ⟨⟨?_, ?_⟩, ?_⟩
      · intro hok
        cases hok
      · rintro ⟨found, application, rfl, happlied⟩
        rw [happly] at happlied
        cases happlied
      · intro error herror
        cases herror
        exact ⟨source, rfl⟩
  · simp only [hstate, ne_eq, not_false_eq_true, if_true, false_imp_iff, reduceCtorEq,
      implies_true, and_self]

/-- **The approval boundary.** Over a valid corpus it is accepted exactly when every requirement
that a `Verifies` edge targets or whose metadata lists modules or codes is approved, and every
approved patch applies to its revision's committed graph. When a claimed requirement is not
approved, the violations are sorted and report every offending claim, once in a graph that the
writes built; when all are, the error is that of an approved patch. -/
theorem approval_boundary_iff {graph : CorpusGraph} (hvalid : graph.validate = .ok ()) :
    (validate_approval_boundary graph .Required = .ok () ↔
      ClaimsApproved graph ∧ ∀ patch ∈ graph.source_patches.values,
        PatchInState graph patch.uid .Approved → AppliesCleanly graph patch) ∧
    (¬ ClaimsApproved graph → ∃ reported,
      validate_approval_boundary graph .Required = .error (.Violations reported) ∧
      (∀ violation, violation ∈ reported ↔ Reports graph violation) ∧
      (reported.Pairwise fun a b => (violation_cmp a b).isLE = true) ∧
      (graph.Built → reported.Nodup)) ∧
    (ClaimsApproved graph → ∀ error, validate_approval_boundary graph .Required = .error error →
      ∃ patch ∈ graph.source_patches.values, PatchInState graph patch.uid .Approved ∧
        ¬ AppliesCleanly graph patch ∧
        ∃ source, error = .EffectiveCuratedContent patch.uid source) := by
  have hnil := violations_eq_nil_iff hvalid
  rw [validate_approval_boundary, validate_required_eq hvalid]
  refine ⟨?_, ?_, ?_⟩
  · by_cases hclaims : ClaimsApproved graph
    · rw [if_pos (hnil.mpr hclaims), forM_ok_iff, and_iff_right hclaims]
      exact forall₂_congr fun patch hpatch => (validate_effective_patch_eq hvalid hpatch).1
    · rw [if_neg (mt hnil.mp hclaims)]
      refine ⟨fun h => ?_, fun h => absurd h.1 hclaims⟩
      cases h
  · intro hclaims
    rw [if_neg (mt hnil.mp hclaims)]
    exact ⟨_, rfl, fun _ => mem_violations_iff hvalid, sortBy_sorted _,
      fun hbuilt => violations_nodup hbuilt.edges_nodup⟩
  · intro hclaims error herror
    rw [if_pos (hnil.mpr hclaims)] at herror
    obtain ⟨patch, hpatch, hfail⟩ := forM_error herror
    obtain ⟨hok, herrors⟩ := validate_effective_patch_eq hvalid hpatch
    have hnot : ¬ (PatchInState graph patch.uid .Approved → AppliesCleanly graph patch) := by
      rw [← hok, hfail]
      intro h
      cases h
    rw [Classical.not_imp] at hnot
    exact ⟨patch, hpatch, hnot.1, hnot.2, herrors error hfail⟩

end Boundary

/-! ## An unreviewed requirement -/

/-- A requirement without reviews, and the test that verifies it. -/
def unreviewed : CorpusGraph where
  nodes := Store.ofList
    [.Requirement
      { uid := "req_a", id := "HLR-1", title := "Stop", layer := .Hlr, edges := [],
        description := none, rationale := none, scope := none, category := none, source := none,
        verification_methods := [], safety_impact := none },
     .Test
      { uid := "test_a", id := "TEST-1", title := "Stops", selectors := [],
        edges := [(.Verifies, "req_a")] }]
  trace_metadata := Store.empty
  source_graphs := Store.empty
  source_patches := Store.empty

section Witness

attribute [local instance] fips180 F64.exact_display

/-- The test may not claim the requirement. -/
theorem approval_boundary_unreviewed :
    validate_approval_boundary unreviewed .Required = .ok () ↔
      ClaimsApproved unreviewed ∧ ∀ patch ∈ unreviewed.source_patches.values,
        PatchInState unreviewed patch.uid .Approved → AppliesCleanly unreviewed patch :=
  (approval_boundary_iff (by decide +kernel)).1

end Witness

end Evidence.Corpus
