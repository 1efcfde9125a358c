/-
`corpus/drift/compare.rs` -- the comparison of one re-ingestion with the committed
baseline.

The prerequisites are checked in their documented order, the committed effective
graph is produced, and the planes are compared one after the other: recipe, verified
input, extractor output, nodes, patches, effective graph. The report lists the
findings in the order of their sort keys.

`drift_findings` is the list before it is sorted, and `compare_reingestion_ok_iff`
says when there is a report.
-/
import Evidence.Corpus.EffectiveGraph
import Evidence.Corpus.Graph.Supersession
import Evidence.Corpus.Ingest.Recipe
import Evidence.Corpus.Drift.Nodes
import Evidence.Corpus.Drift.Patches

set_option autoImplicit false

namespace Evidence.Corpus

open Check Emission

/-! ## The two sides -/

structure DriftBaseline where
  corpus : CorpusGraph
  source_revision_uid : String
  recipe_digest : StructuralContentDigest
  input_digest : StructuralContentDigest
  extractor_output_digest : Option StructuralContentDigest
  patch_evaluations : EvaluationPlane

/-- The candidate side of one re-ingestion comparison. -/
structure ReingestionCandidate where
  source_document : String
  recipe : Option IngesterRecipe
  verified_input_digest : Option StructuralContentDigest
  extractor_output_digest : Option StructuralContentDigest
  parser_graph : SourceGraph
  patches : List SourcePatchRecord
  patch_evaluations : EvaluationPlane

inductive DriftError where
  | InvalidBaseline (source : CorpusError)
  | UnknownSourceRevision (revision_uid : String)
  | CandidateRevisionMismatch (revision_uid node_uid found : String)
  | InvalidCandidateGraph (source : SourceGraphError)
  | MissingPatchEvaluation (plane patch_uid : String)
  | InvalidEffectiveBaseline (source : EffectiveGraphError)
deriving DecidableEq

/-! ## Prerequisites -/

/-- The compared revision's declared media type. -/
def revision_media_type (graph : CorpusGraph) (revision_uid : String) :
    Except DriftError String :=
  match graph.source_revisions.find? fun revision => revision.uid == revision_uid with
  | some revision => .ok revision.media_type
  | none => .error (.UnknownSourceRevision revision_uid)

/-- A candidate node binds the compared revision. -/
def check_revision_binding (revision_uid : String) (node : SourceNode) : Except DriftError Unit :=
  failIf (node.source_revision_uid ≠ revision_uid)
    (.CandidateRevisionMismatch revision_uid node.uid node.source_revision_uid)

/-- A patch of a plane carries an evaluation on it. -/
def check_evaluated (plane : String) (evaluations : EvaluationPlane) (uid : String) :
    Except DriftError Unit :=
  failIf ((evaluations.get uid).isNone = true) (.MissingPatchEvaluation plane uid)

def bound_patches (revision_uid : String) (patches : List SourcePatchRecord) :
    List SourcePatchRecord :=
  patches.filter fun patch => patch.source_revision_uid == revision_uid

/-- The committed patches bound to the compared revision. -/
def DriftBaseline.committed_patches (baseline : DriftBaseline) : Store SourcePatchRecord.uid :=
  Store.ofList (bound_patches baseline.source_revision_uid baseline.corpus.source_patches.values)

def ReingestionCandidate.bound (candidate : ReingestionCandidate) (revision_uid : String) :
    List SourcePatchRecord :=
  bound_patches revision_uid candidate.patches

section Compare

variable [Sha256]

def ReingestionCandidate.recipe_digest (candidate : ReingestionCandidate) :
    Option StructuralContentDigest :=
  candidate.recipe.map IngesterRecipe.digest

variable [F64Display]

/-- The prerequisites, in order, up to the media type of the compared revision. -/
def check_prerequisites (baseline : DriftBaseline) (candidate : ReingestionCandidate) :
    Except DriftError String := do
  baseline.corpus.validate.mapError .InvalidBaseline
  let media_type ← revision_media_type baseline.corpus baseline.source_revision_uid
  candidate.parser_graph.values.forM (check_revision_binding baseline.source_revision_uid)
  (validate_graph_standalone baseline.source_revision_uid media_type
    candidate.parser_graph).mapError .InvalidCandidateGraph
  (baseline.committed_patches.values.map SourcePatchRecord.uid).forM
    (check_evaluated "committed" baseline.patch_evaluations)
  .ok media_type

/-! ## Findings -/

omit [Sha256] [F64Display] in
def plane_finding (category : DriftCategory) (baseline : StructuralContentDigest)
    (candidate : Option StructuralContentDigest) : DriftFinding where
  category := category
  structural_path := none
  node_uid := none
  patch_uid := none
  detail := .PlaneDigest baseline.as_str (candidate.map StructuralContentDigest.as_str)

omit [Sha256] [F64Display] in
/-- An identity plane against its baseline. -/
def compare_plane (category : DriftCategory) (baseline : StructuralContentDigest)
    (candidate : Option StructuralContentDigest) : List DriftFinding :=
  if candidate ≠ some baseline then [plane_finding category baseline candidate] else []

omit [F64Display] in
/-- The identity planes: recipe, verified input, and extractor output where the
baseline carries one. -/
def compare_identities (baseline : DriftBaseline) (candidate : ReingestionCandidate) :
    List DriftFinding :=
  compare_plane .RecipeChangedOrUnavailable baseline.recipe_digest candidate.recipe_digest ++
    compare_plane .VerifiedInputChanged baseline.input_digest candidate.verified_input_digest ++
    (match baseline.extractor_output_digest with
    | some extractor =>
      compare_plane .ExtractorOutputChanged extractor candidate.extractor_output_digest
    | none => [])

/-- The effective plane: the digests of the two effective graphs. -/
def compare_effective (committed candidate : SourceGraph) : List DriftFinding :=
  if source_graph_digest committed ≠ source_graph_digest candidate then
    [{ category := .EffectiveGraphChanged
       structural_path := none
       node_uid := none
       patch_uid := none
       detail := .EffectiveDigests (source_graph_digest committed).as_str
         (source_graph_digest candidate).as_str }]
  else []

/-- The bindings that the committed patches apply under. -/
def DriftBaseline.bindings (baseline : DriftBaseline) : PatchBindings :=
  ⟨baseline.recipe_digest, baseline.input_digest⟩

omit [F64Display] in
/-- The candidate's patch-plane inputs. -/
def ReingestionCandidate.patch_plane (candidate : ReingestionCandidate) (revision_uid : String) :
    CandidatePatchPlane where
  graph := candidate.parser_graph
  patches := candidate.bound revision_uid
  evaluations := candidate.patch_evaluations
  recipe_digest := candidate.recipe_digest
  input_digest := candidate.verified_input_digest

variable [StrDebug]

/-- The patch planes of the two sides. -/
def compare_patch_planes (baseline : DriftBaseline) (candidate : ReingestionCandidate)
    (media_type : String) : PatchPlaneOutcome :=
  compare_patches media_type baseline.committed_patches baseline.patch_evaluations
    (candidate.patch_plane baseline.source_revision_uid)

/-- The findings of all planes, against the committed effective graph. -/
def drift_findings (mint : ℕ → String) (baseline : DriftBaseline)
    (candidate : ReingestionCandidate) (media_type : String) (effective : SourceGraph) :
    List DriftFinding :=
  let outcome := compare_patch_planes baseline candidate media_type
  compare_identities baseline candidate ++
    compare_nodes mint (baseline.corpus.parser_graph baseline.source_revision_uid)
      candidate.parser_graph ++
    outcome.findings ++ compare_effective effective outcome.effective

/-- Compare the candidate planes of one re-ingestion with the committed baseline. -/
def compare_reingestion (mint : ℕ → String) (baseline : DriftBaseline)
    (candidate : ReingestionCandidate) : Except DriftError DriftReport := do
  let media_type ← check_prerequisites baseline candidate
  ((candidate.bound baseline.source_revision_uid).map SourcePatchRecord.uid).forM
    (check_evaluated "candidate" candidate.patch_evaluations)
  let effective ← (effective_source_graph baseline.corpus baseline.source_revision_uid
    baseline.bindings media_type).mapError .InvalidEffectiveBaseline
  .ok
    { source_document := candidate.source_document
      source_revision_uid := baseline.source_revision_uid
      findings :=
        sorted_findings (drift_findings mint baseline candidate media_type effective.graph) }

/-! ## When there is a report -/

omit [Sha256] [F64Display] [StrDebug] in
theorem revision_media_type_ok_iff {graph : CorpusGraph} {revision_uid media_type : String} :
    revision_media_type graph revision_uid = .ok media_type ↔
      ∃ revision ∈ graph.source_revisions, revision.uid = revision_uid ∧
        revision.media_type = media_type := by
  rw [revision_media_type]
  cases hfind : graph.source_revisions.find? fun revision => revision.uid == revision_uid with
  | none =>
    refine ⟨fun h => (nomatch h), ?_⟩
    rintro ⟨revision, hrevision, huid, -⟩
    exact absurd (beq_iff_eq.mpr huid) (List.find?_eq_none.mp hfind revision hrevision)
  | some found =>
    have hmem := List.mem_of_find?_eq_some hfind
    have huid : (found.uid == revision_uid) = true :=
      List.find?_some (p := fun revision : SourceRevisionNode => revision.uid == revision_uid) hfind
    constructor
    · intro h
      exact ⟨found, hmem, beq_iff_eq.mp huid, Except.ok.inj h⟩
    · rintro ⟨revision, hrevision, hkey, rfl⟩
      rw [graph.revision_inj hmem hrevision ((beq_iff_eq.mp huid).trans hkey.symm)]

omit [Sha256] [F64Display] [StrDebug] in
theorem mem_bound_patches {revision_uid : String} {patches : List SourcePatchRecord}
    {patch : SourcePatchRecord} :
    patch ∈ bound_patches revision_uid patches ↔
      patch ∈ patches ∧ patch.source_revision_uid = revision_uid := by
  rw [bound_patches, List.mem_filter, beq_iff_eq]

omit [Sha256] [F64Display] [StrDebug] in
theorem DriftBaseline.mem_committed_patches {baseline : DriftBaseline}
    {patch : SourcePatchRecord} :
    patch ∈ baseline.committed_patches.values ↔
      patch ∈ baseline.corpus.source_patches.values ∧
        patch.source_revision_uid = baseline.source_revision_uid := by
  have hnodup : ((bound_patches baseline.source_revision_uid
      baseline.corpus.source_patches.values).map SourcePatchRecord.uid).Nodup :=
    baseline.corpus.source_patches.values_keys_nodup.sublist (List.filter_sublist.map _)
  rw [committed_patches, Store.mem_values_ofList hnodup, mem_bound_patches]

omit [Sha256] [F64Display] [StrDebug] in
theorem check_evaluated_ok_iff {plane : String} {evaluations : EvaluationPlane}
    {uids : List String} :
    uids.forM (check_evaluated plane evaluations) = .ok () ↔
      ∀ uid ∈ uids, evaluations.get uid ≠ none := by
  simp only [forM_ok_iff, check_evaluated, failIf_ok_iff, Option.isNone_iff_eq_none, ne_eq]

omit [StrDebug] in
/-- **What the prerequisites ask for.** -/
theorem check_prerequisites_ok_iff {baseline : DriftBaseline} {candidate : ReingestionCandidate}
    {media_type : String} :
    check_prerequisites baseline candidate = .ok media_type ↔
      baseline.corpus.validate = .ok () ∧
      (∃ revision ∈ baseline.corpus.source_revisions,
        revision.uid = baseline.source_revision_uid ∧ revision.media_type = media_type) ∧
      (∀ node ∈ candidate.parser_graph.values,
        node.source_revision_uid = baseline.source_revision_uid) ∧
      Forest media_type candidate.parser_graph ∧
      ∀ patch ∈ baseline.committed_patches.values,
        baseline.patch_evaluations.get patch.uid ≠ none := by
  rw [check_prerequisites, seq_ok_iff, mapError_ok_iff, bind_ok_iff]
  simp only [seq_ok_iff, mapError_ok_iff, revision_media_type_ok_iff, check_evaluated_ok_iff,
    validate_graph_standalone_ok_iff, List.forall_mem_map, Except.ok.injEq]
  simp only [forM_ok_iff, check_revision_binding, failIf_ok_iff, ne_eq, not_not]
  constructor
  · rintro ⟨hvalid, found, hmedia, hbinding, hforest, hevaluated, rfl⟩
    exact ⟨hvalid, hmedia, hbinding, hforest, hevaluated⟩
  · rintro ⟨hvalid, hmedia, hbinding, hforest, hevaluated⟩
    exact ⟨hvalid, media_type, hmedia, hbinding, hforest, hevaluated, rfl⟩

/-- **When there is a report, and what it says.** -/
theorem compare_reingestion_eq_ok {mint : ℕ → String} {baseline : DriftBaseline}
    {candidate : ReingestionCandidate} {media_type : String} {effective : EffectiveSourceGraph}
    (hpre : check_prerequisites baseline candidate = .ok media_type)
    (hevaluated : ∀ patch ∈ candidate.bound baseline.source_revision_uid,
      candidate.patch_evaluations.get patch.uid ≠ none)
    (heffective : effective_source_graph baseline.corpus baseline.source_revision_uid
      baseline.bindings media_type = .ok effective) :
    compare_reingestion mint baseline candidate =
      .ok
        { source_document := candidate.source_document
          source_revision_uid := baseline.source_revision_uid
          findings :=
            sorted_findings (drift_findings mint baseline candidate media_type effective.graph) } := by
  have hall : ((candidate.bound baseline.source_revision_uid).map SourcePatchRecord.uid).forM
      (check_evaluated "candidate" candidate.patch_evaluations) = .ok () := by
    refine check_evaluated_ok_iff.mpr fun uid huid => ?_
    obtain ⟨patch, hpatch, rfl⟩ := List.mem_map.mp huid
    exact hevaluated patch hpatch
  rw [compare_reingestion, hpre, bind_ok_iff]
  refine ⟨media_type, rfl, ?_⟩
  rw [seq_ok_iff, bind_ok_iff]
  exact ⟨hall, effective, mapError_ok_iff.mpr heffective, rfl⟩

/-- Without the prerequisites there is no report. -/
theorem compare_reingestion_of_unmet {mint : ℕ → String} {baseline : DriftBaseline}
    {candidate : ReingestionCandidate} {error : DriftError}
    (hpre : check_prerequisites baseline candidate = .error error) :
    compare_reingestion mint baseline candidate = .error error := by
  rw [compare_reingestion, hpre]
  rfl

theorem compare_reingestion_of_missing {mint : ℕ → String} {baseline : DriftBaseline}
    {candidate : ReingestionCandidate} {media_type : String} {error : DriftError}
    (hpre : check_prerequisites baseline candidate = .ok media_type)
    (hloop : ((candidate.bound baseline.source_revision_uid).map SourcePatchRecord.uid).forM
      (check_evaluated "candidate" candidate.patch_evaluations) = .error error) :
    compare_reingestion mint baseline candidate = .error error := by
  rw [compare_reingestion, hpre]
  show (_ >>= _) = _
  rw [hloop]
  rfl

theorem compare_reingestion_of_unproducible {mint : ℕ → String} {baseline : DriftBaseline}
    {candidate : ReingestionCandidate} {media_type : String} {error : EffectiveGraphError}
    (hpre : check_prerequisites baseline candidate = .ok media_type)
    (hloop : ((candidate.bound baseline.source_revision_uid).map SourcePatchRecord.uid).forM
      (check_evaluated "candidate" candidate.patch_evaluations) = .ok ())
    (heffective : effective_source_graph baseline.corpus baseline.source_revision_uid
      baseline.bindings media_type = .error error) :
    compare_reingestion mint baseline candidate = .error (.InvalidEffectiveBaseline error) := by
  rw [compare_reingestion, hpre]
  show (_ >>= _) = _
  rw [hloop]
  show (Except.mapError _ _ >>= _) = _
  rw [heffective]
  rfl

end Compare

end Evidence.Corpus
