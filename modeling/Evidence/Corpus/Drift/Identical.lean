/-
The comparison of a baseline with its own planes.

The candidate presents the identities, the parser graph, the patches and the
evaluations of the baseline. Its patches are then their own groups, and the loop over
them applies the approved ones to the parser graph just as the committed effective
graph does, so neither the patch plane nor the effective plane finds a difference
between the sides. What is reported all the same is what a plane says about one side:
a structural key of several nodes, a record that does not recompute, a patch that is
stale or rejected. `compare_reingestion_identical` is the exact condition.
-/
import Evidence.Corpus.Drift.Alike
import Evidence.Corpus.Drift.Compare
import Evidence.Corpus.Drift.Renamed

set_option autoImplicit false

namespace Evidence.Corpus

open Check Emission Sorting

/-! ## Identity planes -/

structure SameIdentities [Sha256] (baseline : DriftBaseline) (candidate : ReingestionCandidate) :
    Prop where
  recipe : candidate.recipe_digest = some baseline.recipe_digest
  input : candidate.verified_input_digest = some baseline.input_digest
  extractor : candidate.extractor_output_digest = baseline.extractor_output_digest

theorem compare_plane_self (category : DriftCategory) (digest : StructuralContentDigest) :
    compare_plane category digest (some digest) = [] :=
  if_neg (not_not.mpr rfl)

/-- Equal identities have no finding. -/
theorem SameIdentities.silent [Sha256] {baseline : DriftBaseline}
    {candidate : ReingestionCandidate} (h : SameIdentities baseline candidate) :
    compare_identities baseline candidate = [] := by
  rw [compare_identities, h.recipe, h.input, h.extractor, compare_plane_self, compare_plane_self]
  cases baseline.extractor_output_digest with
  | none => rfl
  | some digest => exact compare_plane_self _ digest

/-! ## Patches grouped with themselves -/

theorem DriftBaseline.committed_patches_values (baseline : DriftBaseline) :
    baseline.committed_patches.values =
      bound_patches baseline.source_revision_uid baseline.corpus.source_patches.values := by
  have hsorted : ∀ store : Store SourcePatchRecord.uid, store.values.Pairwise
      fun a b => compareOn SourcePatchRecord.uid a b = .lt := Store.values_sorted
  refine eq_of_perm_of_strict ?_ (hsorted _) ((hsorted baseline.corpus.source_patches).filter _)
  refine (List.perm_ext_iff_of_nodup baseline.committed_patches.values_nodup
    (baseline.corpus.source_patches.values_nodup.filter _)).mpr fun patch => ?_
  rw [baseline.mem_committed_patches, ← mem_bound_patches]
  rfl

section Grouping

variable {committed : Store SourcePatchRecord.uid} {records : List SourcePatchRecord}

/-- The records of a store are their own groups. -/
theorem presented_of_perm (hperm : records.Perm committed.values) {uid : String}
    {patch : SourcePatchRecord} :
    patch ∈ presented records uid ↔ committed.get uid = some patch := by
  rw [mem_presented, hperm.mem_iff]
  constructor
  · rintro ⟨hpatch, rfl⟩
    exact Store.mem_values.mp hpatch
  · intro hget
    exact ⟨Store.mem_values_of_get hget, Store.key_of_get hget⟩

theorem uniformGroup_of_perm (hperm : records.Perm committed.values) (uid : String) :
    UniformGroup records uid := by
  intro p hp q hq
  have hget := (presented_of_perm hperm).mp hp
  rw [(presented_of_perm hperm).mp hq] at hget
  rw [Option.some.inj hget]

/-- **Grouping the records of a store** excludes none, and looks them up as the store
does. -/
theorem group_candidate_uids_of_perm (hperm : records.Perm committed.values) :
    group_candidate_uids records = ([], committed) := by
  refine Prod.ext ?_ (Store.ext fun uid => ?_)
  · refine List.flatMap_eq_nil_iff.mpr fun uid _ => ?_
    have hdistinct := carries_distinct_eq_false_iff.mpr (uniformGroup_of_perm hperm uid)
    simp only [group_finding, hdistinct, Bool.false_eq_true, if_false]
  · rw [group_candidate_uids_get, group_record_eq_head (uniformGroup_of_perm hperm uid)]
    cases hget : committed.get uid with
    | none =>
      rw [List.head?_eq_none_iff, List.eq_nil_iff_forall_not_mem]
      intro patch hpatch
      rw [presented_of_perm hperm, hget] at hpatch
      exact nomatch hpatch
    | some patch =>
      have hmem := (presented_of_perm hperm).mpr hget
      obtain ⟨first, hfirst⟩ := Option.ne_none_iff_exists'.mp
        (mt List.head?_eq_none_iff.mp (List.ne_nil_of_mem hmem))
      have hsame := (presented_of_perm hperm).mp (List.mem_of_head? hfirst)
      rw [hget, Option.some.injEq] at hsame
      rw [hfirst, hsame]

/-- The uids of a store's records on both sides are its uids. -/
theorem plane_uids_self (committed : Store SourcePatchRecord.uid) :
    plane_uids committed committed = committed.values.map SourcePatchRecord.uid := by
  have hperm : (committed.values.map SourcePatchRecord.uid ++
      committed.values.map SourcePatchRecord.uid).dedup.Perm
      (committed.values.map SourcePatchRecord.uid) := by
    refine (List.perm_ext_iff_of_nodup (List.nodup_dedup _) committed.values_keys_nodup).mpr ?_
    intro uid
    rw [List.mem_dedup, List.mem_append, or_self]
  have hsorted : plane_uids committed committed =
      sortBy compare (committed.values.map SourcePatchRecord.uid) :=
    sortBy_congr hperm fun a _ b _ => Std.LawfulEqCmp.compare_eq_iff_eq.mp
  rw [hsorted]
  refine sortBy_eq_self ?_
  rw [List.pairwise_map]
  refine committed.values_sorted.imp fun {a b} hlt => ?_
  rw [hlt]
  rfl

end Grouping

/-! ## Patches compared with themselves -/

section Plane

variable [Sha256] [F64Display]

/-- Neither the record nor its review is reported. -/
structure Unremarkable (graph : CorpusGraph) (patch : SourcePatchRecord) : Prop where
  recomputes : patch.Recomputes
  not_stale : (patch_evaluation graph patch).state ≠ .Stale
  not_rejected : (patch_evaluation graph patch).state ≠ .Rejected

/-- The committed evaluations of a baseline are those that its corpus derives. -/
def DriftBaseline.Evaluated (baseline : DriftBaseline) : Prop :=
  ∀ patch ∈ baseline.committed_patches.values,
    (baseline.patch_evaluations.get patch.uid).map Prod.snd =
      some (patch_evaluation baseline.corpus patch)

omit [Sha256] [F64Display] in
theorem review_findings_self_eq_nil_iff {uid : String} {state : PatchLifecycle} :
    review_findings uid state state = [] ↔ state ≠ .Stale ∧ state ≠ .Rejected := by
  simp only [review_findings, ne_eq, not_true, if_false, List.nil_append, List.append_eq_nil_iff,
    ite_eq_right_iff, List.cons_ne_nil, imp_false]

variable [StrDebug]

section Step

variable {media_type : String} {evaluations : EvaluationPlane} {candidate : CandidatePatchPlane}
  {patch : SourcePatchRecord} {evaluation : PatchLifecycleEvaluation}

theorem compare_both_self (hsame : candidate.evaluations = evaluations)
    (heval : (evaluations.get patch.uid).map Prod.snd = some evaluation)
    (hrecomputes : patch.Recomputes) (working : SourceGraph) :
    compare_both media_type evaluations candidate patch.uid patch patch working =
      if evaluation.state = .Approved then
        (review_findings patch.uid evaluation.state evaluation.state ++
          (candidate.apply_approved media_type working patch).1,
          (candidate.apply_approved media_type working patch).2)
      else (review_findings patch.uid evaluation.state evaluation.state, working) := by
  obtain ⟨⟨uid, found⟩, hget, rfl⟩ := Option.map_eq_some_iff.mp heval
  have hstored : patch.reviewed_content_digest = reviewed_content_digest patch := hrecomputes
  unfold compare_both
  rw [if_neg (not_not.mpr hstored), if_neg (not_not.mpr rfl), hsame, hget]

/-- A record that is compared with itself without findings is unremarkable. -/
theorem unremarkable_of_silent {graph : CorpusGraph}
    (hsame : candidate.evaluations = evaluations)
    (heval : (evaluations.get patch.uid).map Prod.snd = some (patch_evaluation graph patch))
    {working : SourceGraph}
    (hsilent :
      (compare_both media_type evaluations candidate patch.uid patch patch working).1 = []) :
    Unremarkable graph patch := by
  by_cases hrecomputes : patch.Recomputes
  · rw [compare_both_self hsame heval hrecomputes] at hsilent
    have hreview : review_findings patch.uid (patch_evaluation graph patch).state
        (patch_evaluation graph patch).state = [] := by
      split at hsilent
      · exact (List.append_eq_nil_iff.mp hsilent).1
      · exact hsilent
    obtain ⟨hstale, hrejected⟩ := review_findings_self_eq_nil_iff.mp hreview
    exact ⟨hrecomputes, hstale, hrejected⟩
  · have hfinding : patch_finding .PatchUnappliable patch.uid (.Failure RECOMPUTE_MESSAGE) ∈
        (compare_both media_type evaluations candidate patch.uid patch patch working).1 :=
      recompute_finding_mem_iff.mpr hrecomputes
    rw [hsilent] at hfinding
    exact nomatch hfinding

end Step

/-! ## The loop over one plane twice -/

section Loop

variable {media_type : String} {graph : CorpusGraph} {committed : Store SourcePatchRecord.uid}
  {evaluations : EvaluationPlane} {candidate : CandidatePatchPlane}

theorem compare_patch_self {patch : SourcePatchRecord} (hpatch : patch ∈ committed.values)
    (working : SourceGraph) :
    compare_patch media_type committed evaluations candidate committed.get working patch.uid =
      compare_both media_type evaluations candidate patch.uid patch patch working := by
  have hget : committed.get patch.uid = some patch := Store.mem_values.mp hpatch
  simp only [compare_patch, hget]

/-- What a plane reports of itself, it reports of a patch. -/
theorem unremarkable_of_silent_loop (hsame : candidate.evaluations = evaluations)
    (heval : ∀ patch ∈ committed.values,
      (evaluations.get patch.uid).map Prod.snd = some (patch_evaluation graph patch))
    {patches : List SourcePatchRecord} (hsub : ∀ patch ∈ patches, patch ∈ committed.values)
    {working : SourceGraph}
    (hsilent : (emit (compare_patch media_type committed evaluations candidate committed.get)
      working (patches.map SourcePatchRecord.uid)).1 = []) :
    ∀ patch ∈ patches, Unremarkable graph patch := by
  induction patches generalizing working with
  | nil => exact fun patch hpatch => nomatch hpatch
  | cons first rest ih =>
    rw [List.forall_mem_cons] at hsub
    rw [List.map_cons, emit_cons, List.append_eq_nil_iff, compare_patch_self hsub.1] at hsilent
    exact List.forall_mem_cons.mpr
      ⟨unremarkable_of_silent hsame (heval first hsub.1) hsilent.1, ih hsub.2 hsilent.2⟩

/-- **The loop over unremarkable patches is the committed run**: the approved patches
apply one after the other, and nothing is reported. -/
theorem emit_of_unremarkable (hsame : candidate.evaluations = evaluations)
    (heval : ∀ patch ∈ committed.values,
      (evaluations.get patch.uid).map Prod.snd = some (patch_evaluation graph patch))
    {bindings : PatchBindings} (hrecipe : candidate.recipe_digest = some bindings.recipe_digest)
    (hinput : candidate.input_digest = some bindings.input_digest)
    {patches : List SourcePatchRecord} (hsub : ∀ patch ∈ patches, patch ∈ committed.values)
    (hclean : ∀ patch ∈ patches, Unremarkable graph patch) {working effective : SourceGraph}
    (hrun : Runs (apply_approved bindings media_type) working
      (patches.filter fun patch => (patch_evaluation graph patch).state == .Approved) effective) :
    emit (compare_patch media_type committed evaluations candidate committed.get) working
      (patches.map SourcePatchRecord.uid) = ([], effective) := by
  induction patches generalizing working with
  | nil =>
    cases hrun
    rfl
  | cons first rest ih =>
    rw [List.forall_mem_cons] at hsub hclean
    obtain ⟨hfirst, hrest⟩ := hsub
    obtain ⟨⟨hrecomputes, hstale, hrejected⟩, hclean⟩ := hclean
    have hreview : review_findings first.uid (patch_evaluation graph first).state
        (patch_evaluation graph first).state = [] :=
      review_findings_self_eq_nil_iff.mpr ⟨hstale, hrejected⟩
    rw [List.map_cons, emit_cons, compare_patch_self hfirst,
      compare_both_self hsame (heval first hfirst) hrecomputes, hreview, List.nil_append]
    by_cases happroved : (patch_evaluation graph first).state = .Approved
    · rw [if_pos happroved]
      rw [List.filter_cons, if_pos (beq_iff_eq.mpr happroved)] at hrun
      cases hrun with
      | cons hstep hrun =>
        obtain ⟨application, happly, rfl⟩ := apply_approved_ok_iff.mp hstep
        have houtcome : application_outcome media_type candidate working first =
            .ok application.graph := by
          unfold application_outcome
          rw [hrecipe, hinput]
          simp only [happly]
        rw [apply_approved_of_ok houtcome, ih hrest hclean hrun]
        rfl
    · rw [if_neg happroved]
      rw [List.filter_cons, if_neg (mt beq_iff_eq.mp happroved)] at hrun
      rw [ih hrest hclean hrun]
      rfl

end Loop

/-! ## The report -/

structure SamePlanes (baseline : DriftBaseline) (candidate : ReingestionCandidate) : Prop where
  identities : SameIdentities baseline candidate
  parser_graph :
    candidate.parser_graph = baseline.corpus.parser_graph baseline.source_revision_uid
  patches :
    (candidate.bound baseline.source_revision_uid).Perm baseline.committed_patches.values
  evaluations : candidate.patch_evaluations = baseline.patch_evaluations

/-- Nothing about the planes of a baseline is reported when they are compared with
themselves. -/
structure DriftBaseline.Reproducible (baseline : DriftBaseline) : Prop where
  keys : DistinctKeys (baseline.corpus.parser_graph baseline.source_revision_uid)
  locators : ∀ node ∈ (baseline.corpus.parser_graph baseline.source_revision_uid).values,
    node.locator.Agrees node.locator
  patches : ∀ patch ∈ baseline.committed_patches.values, Unremarkable baseline.corpus patch

variable {mint : ℕ → String} {baseline : DriftBaseline} {candidate : ReingestionCandidate}
  {media_type : String}

omit [StrDebug] in
theorem DriftBaseline.parser_graph_forest (hvalid : baseline.corpus.validate = .ok ())
    (hmedia : revision_media_type baseline.corpus baseline.source_revision_uid = .ok media_type) :
    Forest media_type (baseline.corpus.parser_graph baseline.source_revision_uid) := by
  obtain ⟨revision, hrevision, huid, rfl⟩ := revision_media_type_ok_iff.mp hmedia
  rw [← huid]
  exact baseline.corpus.parser_graph_forest hvalid hrevision

omit [StrDebug] in
theorem check_prerequisites_renamed {f : String → String}
    (hvalid : baseline.corpus.validate = .ok ())
    (hmedia : revision_media_type baseline.corpus baseline.source_revision_uid = .ok media_type)
    (hevaluated : ∀ patch ∈ baseline.committed_patches.values,
      baseline.patch_evaluations.get patch.uid ≠ none)
    (hgraph : Renames f (baseline.corpus.parser_graph baseline.source_revision_uid)
      candidate.parser_graph) : check_prerequisites baseline candidate = .ok media_type := by
  refine check_prerequisites_ok_iff.mpr ⟨hvalid, revision_media_type_ok_iff.mp hmedia, ?_,
    (baseline.parser_graph_forest hvalid hmedia).rename hgraph, hevaluated⟩
  intro node hnode
  obtain ⟨m, hm, rfl⟩ := (hgraph.nodes node).mp hnode
  exact (baseline.corpus.parser_graph_wf _).1 m hm

/-- **The patch plane of a baseline against itself**: silent when every patch is
unremarkable, and then the candidate effective graph is the committed one. -/
theorem compare_patch_planes_self (hvalid : baseline.corpus.validate = .ok ())
    (hmedia : revision_media_type baseline.corpus baseline.source_revision_uid = .ok media_type)
    (hevaluated : baseline.Evaluated) {effective : EffectiveSourceGraph}
    (heffective : effective_source_graph baseline.corpus baseline.source_revision_uid
      baseline.bindings media_type = .ok effective)
    (hsame : SamePlanes baseline candidate) :
    ((compare_patch_planes baseline candidate media_type).findings = [] ↔
        ∀ patch ∈ baseline.committed_patches.values, Unremarkable baseline.corpus patch) ∧
      ((compare_patch_planes baseline candidate media_type).findings = [] →
        (compare_patch_planes baseline candidate media_type).effective = effective.graph) := by
  have hplane : compare_patch_planes baseline candidate media_type =
      ⟨(emit (compare_patch media_type baseline.committed_patches baseline.patch_evaluations
          (candidate.patch_plane baseline.source_revision_uid) baseline.committed_patches.get)
          candidate.parser_graph
          (baseline.committed_patches.values.map SourcePatchRecord.uid)).1,
        (emit (compare_patch media_type baseline.committed_patches baseline.patch_evaluations
          (candidate.patch_plane baseline.source_revision_uid) baseline.committed_patches.get)
          candidate.parser_graph
          (baseline.committed_patches.values.map SourcePatchRecord.uid)).2⟩ := by
    have hgrouped : group_candidate_uids
        (candidate.patch_plane baseline.source_revision_uid).patches =
        ([], baseline.committed_patches) := group_candidate_uids_of_perm hsame.patches
    rw [compare_patch_planes, compare_patches, hgrouped, plane_uids_self]
    rfl
  -- the committed effective graph is the run of the approved ones among these patches
  have hrun : Runs (apply_approved baseline.bindings media_type) candidate.parser_graph
      (baseline.committed_patches.values.filter fun patch =>
        (patch_evaluation baseline.corpus patch).state == .Approved) effective.graph := by
    obtain ⟨revision, hrevision, huid, rfl⟩ := revision_media_type_ok_iff.mp hmedia
    rw [← huid] at heffective
    obtain ⟨working, hrun, rfl⟩ :=
      (effective_source_graph_ok_iff hvalid hrevision).mp heffective
    rw [baseline.committed_patches_values, hsame.parser_graph, bound_patches, List.filter_filter,
      ← huid]
    have hcommute : approved_patches baseline.corpus revision.uid =
        baseline.corpus.source_patches.values.filter fun patch =>
          (patch_evaluation baseline.corpus patch).state == .Approved &&
            patch.source_revision_uid == revision.uid :=
      List.filter_congr fun patch _ => Bool.and_comm _ _
    rwa [hcommute] at hrun
  have hclean : (∀ patch ∈ baseline.committed_patches.values,
      Unremarkable baseline.corpus patch) →
      emit (compare_patch media_type baseline.committed_patches baseline.patch_evaluations
        (candidate.patch_plane baseline.source_revision_uid) baseline.committed_patches.get)
        candidate.parser_graph (baseline.committed_patches.values.map SourcePatchRecord.uid) =
        ([], effective.graph) := by
    intro hclean
    exact emit_of_unremarkable hsame.evaluations hevaluated hsame.identities.recipe
      hsame.identities.input (fun patch hpatch => hpatch) hclean hrun
  have hsilent : (compare_patch_planes baseline candidate media_type).findings = [] →
      ∀ patch ∈ baseline.committed_patches.values, Unremarkable baseline.corpus patch := by
    intro hsilent
    rw [hplane] at hsilent
    exact unremarkable_of_silent_loop hsame.evaluations hevaluated (fun patch hpatch => hpatch)
      hsilent
  refine ⟨⟨hsilent, fun h => ?_⟩, fun h => ?_⟩
  · rw [hplane, hclean h]
  · rw [hplane, hclean (hsilent h)]

/-- Nothing is found in a baseline's own planes exactly when nothing about them is
reported. -/
theorem drift_findings_self (mint : ℕ → String) (hvalid : baseline.corpus.validate = .ok ())
    (hmedia : revision_media_type baseline.corpus baseline.source_revision_uid = .ok media_type)
    (hevaluated : baseline.Evaluated) {effective : EffectiveSourceGraph}
    (heffective : effective_source_graph baseline.corpus baseline.source_revision_uid
      baseline.bindings media_type = .ok effective)
    (hsame : SamePlanes baseline candidate) :
    drift_findings mint baseline candidate media_type effective.graph = [] ↔
      baseline.Reproducible := by
  have hgraph : Renames id (baseline.corpus.parser_graph baseline.source_revision_uid)
      candidate.parser_graph := hsame.parser_graph ▸ Renames.refl _
  obtain ⟨hpatches, hworking⟩ := compare_patch_planes_self hvalid hmedia hevaluated heffective hsame
  have hnodes := compare_nodes_renamed mint (baseline.parser_graph_forest hvalid hmedia) hgraph
  simp only [drift_findings, List.append_eq_nil_iff, hsame.identities.silent, hnodes, hpatches,
    true_and]
  constructor
  · rintro ⟨⟨⟨hkeys, hlocators⟩, hclean⟩, -⟩
    exact ⟨hkeys, hlocators, hclean⟩
  · rintro ⟨hkeys, hlocators, hclean⟩
    refine ⟨⟨⟨hkeys, hlocators⟩, hclean⟩, ?_⟩
    rw [hworking (hpatches.mpr hclean)]
    exact if_neg (not_not.mpr rfl)

theorem compare_reingestion_same_planes (mint : ℕ → String)
    (hvalid : baseline.corpus.validate = .ok ())
    (hmedia : revision_media_type baseline.corpus baseline.source_revision_uid = .ok media_type)
    (hevaluated : baseline.Evaluated) {effective : EffectiveSourceGraph}
    (heffective : effective_source_graph baseline.corpus baseline.source_revision_uid
      baseline.bindings media_type = .ok effective)
    (hsame : SamePlanes baseline candidate) :
    compare_reingestion mint baseline candidate =
      .ok
        { source_document := candidate.source_document
          source_revision_uid := baseline.source_revision_uid
          findings :=
            sorted_findings (drift_findings mint baseline candidate media_type effective.graph) } := by
  have hsome : ∀ patch ∈ baseline.committed_patches.values,
      baseline.patch_evaluations.get patch.uid ≠ none := by
    intro patch hpatch hnone
    have heval := hevaluated patch hpatch
    rw [hnone] at heval
    exact nomatch heval
  have hgraph : Renames id (baseline.corpus.parser_graph baseline.source_revision_uid)
      candidate.parser_graph := hsame.parser_graph ▸ Renames.refl _
  refine compare_reingestion_eq_ok (check_prerequisites_renamed hvalid hmedia hsome hgraph) ?_
    heffective
  intro patch hpatch
  rw [hsame.evaluations]
  exact hsome patch (hsame.patches.mem_iff.mp hpatch)

theorem reproducible_of_no_findings (hvalid : baseline.corpus.validate = .ok ())
    (hmedia : revision_media_type baseline.corpus baseline.source_revision_uid = .ok media_type)
    (hevaluated : baseline.Evaluated) {effective : EffectiveSourceGraph}
    (heffective : effective_source_graph baseline.corpus baseline.source_revision_uid
      baseline.bindings media_type = .ok effective)
    (hsame : SamePlanes baseline candidate) {report : DriftReport}
    (hreport : compare_reingestion mint baseline candidate = .ok report)
    (hnone : report.findings = []) : baseline.Reproducible := by
  rw [compare_reingestion_same_planes mint hvalid hmedia hevaluated heffective hsame,
    Except.ok.injEq] at hreport
  subst hreport
  exact (drift_findings_self mint hvalid hmedia hevaluated heffective hsame).mp
    (sorted_findings_eq_nil_iff.mp hnone)

/-- **A baseline compared with its own planes** gives a report, and the report is equality
exactly when nothing about the planes themselves is reported. -/
theorem compare_reingestion_identical (hvalid : baseline.corpus.validate = .ok ())
    (hmedia : revision_media_type baseline.corpus baseline.source_revision_uid = .ok media_type)
    (hevaluated : baseline.Evaluated) {effective : EffectiveSourceGraph}
    (heffective : effective_source_graph baseline.corpus baseline.source_revision_uid
      baseline.bindings media_type = .ok effective)
    (hsame : SamePlanes baseline candidate) :
    ∃ report, compare_reingestion mint baseline candidate = .ok report ∧
      (report.findings = [] ↔ baseline.Reproducible) ∧
      (report.outcome = .Equal ↔ baseline.Reproducible) := by
  have hsilent := sorted_findings_eq_nil_iff.trans
    (drift_findings_self mint hvalid hmedia hevaluated heffective hsame)
  refine ⟨_, compare_reingestion_same_planes mint hvalid hmedia hevaluated heffective hsame,
    hsilent, ?_⟩
  rw [DriftReport.outcome_eq_equal_iff]
  exact hsilent

end Plane

/-! ## One paragraph, and two of one key -/

section Witness

attribute [local instance] fips180 F64.exact_display plain_debug

def parsed_corpus (graph : RevisionGraph) : CorpusGraph :=
  { empty_corpus with source_graphs := Store.empty.put graph }

/-- The recipe of an ingester without extensions. -/
def plain_recipe : IngesterRecipe where
  parser := "html"
  parser_version := "1"
  extensions := Store.empty
  adapter_version := "1"
  normalization_contract := "1"

/-- The committed side of a corpus without patches. -/
def parsed_baseline (graph : RevisionGraph) : DriftBaseline where
  corpus := parsed_corpus graph
  source_revision_uid := empty_revision.uid
  recipe_digest := plain_recipe.digest
  input_digest := .of_bytes []
  extractor_output_digest := none
  patch_evaluations := Store.empty

/-- A re-ingestion under the recipe and the input of that side. -/
def reingested (graph : SourceGraph) : ReingestionCandidate where
  source_document := "https://example.org/a"
  recipe := some plain_recipe
  verified_input_digest := some (.of_bytes [])
  extractor_output_digest := none
  parser_graph := graph
  patches := []
  patch_evaluations := Store.empty

section Parsed

variable {graph : RevisionGraph} (huid : graph.revision_uid = empty_revision.uid)

include huid

theorem parsed_corpus_parser_graph :
    (parsed_corpus graph).parser_graph empty_revision.uid = graph.graph := by
  have hget : (parsed_corpus graph).source_graphs.get empty_revision.uid = some graph := by
    rw [← huid]
    exact Store.mem_values.mp (Store.mem_values_singleton.mpr rfl)
  rw [CorpusGraph.parser_graph, CorpusGraph.source_graph, hget]
  rfl

theorem parsed_corpus_valid (hforest : Forest "text/html" graph.graph) :
    (parsed_corpus graph).validate = .ok () := by
  -- the other passes read the nodes alone
  have hedges : validate_edges empty_corpus = .ok () := by decide +kernel
  have hreviews : validate_review_nodes empty_corpus = .ok () := by decide +kernel
  have hsupersession : validate_review_supersession empty_corpus = .ok () := by decide +kernel
  have hlineage : validate_source_lineage empty_corpus = .ok () := by decide +kernel
  have hmedia : revision_media_map empty_corpus empty_revision.uid = some "text/html" := by
    decide +kernel
  refine CorpusGraph.validate_ok_iff.mpr ⟨hedges, hreviews, hsupersession, hlineage,
    validate_source_graphs_ok_iff.mpr ?_, rfl⟩
  intro committed hcommitted
  rw [Store.mem_values_singleton.mp hcommitted, huid]
  exact ⟨"text/html", hmedia, hforest⟩

omit huid in
theorem parsed_corpus_media :
    revision_media_type (parsed_corpus graph) empty_revision.uid = .ok "text/html" :=
  revision_media_type_ok_iff.mpr ⟨empty_revision, List.mem_singleton_self _, rfl, rfl⟩

theorem parsed_corpus_effective (hforest : Forest "text/html" graph.graph) :
    effective_source_graph (parsed_corpus graph) empty_revision.uid
      (parsed_baseline graph).bindings "text/html" =
      .ok
        { source_revision_uid := empty_revision.uid
          graph := (parsed_corpus graph).parser_graph empty_revision.uid
          applied_patch_uids := [] } := by
  have hrevision : empty_revision ∈ (parsed_corpus graph).source_revisions :=
    List.mem_singleton_self _
  exact (effective_source_graph_ok_iff (parsed_corpus_valid huid hforest) hrevision).mpr
    ⟨_, .nil _, rfl⟩

omit huid in
theorem parsed_baseline_patches : (parsed_baseline graph).committed_patches.values = [] := by
  rw [DriftBaseline.committed_patches_values]
  rfl

omit huid in
theorem parsed_baseline_evaluated : (parsed_baseline graph).Evaluated := by
  intro patch hpatch
  rw [parsed_baseline_patches] at hpatch
  exact nomatch hpatch

omit huid in
theorem reingested_identities (candidate : SourceGraph) :
    SameIdentities (parsed_baseline graph) (reingested candidate) :=
  ⟨rfl, rfl, rfl⟩

/-- The committed graph, re-ingested. -/
theorem reingested_same_planes : SamePlanes (parsed_baseline graph) (reingested graph.graph) where
  identities := reingested_identities _
  parser_graph := (parsed_corpus_parser_graph huid).symm
  patches := by
    rw [parsed_baseline_patches]
    exact List.Perm.nil
  evaluations := rfl

end Parsed

def lone_paragraph : RevisionGraph :=
  .of_node (committed_root "snode_00000000-0000-4000-8000-000000000001" empty_revision.uid
    .Paragraph 0 none "Text.")

theorem lone_paragraph_forest : Forest "text/html" lone_paragraph.graph := by
  refine forest_of_committed_roots ?_ ?_
  · intro node hnode
    exact ⟨_, _, _, _, _, _, Store.mem_values_singleton.mp hnode⟩
  · have hvalues : lone_paragraph.graph.values = [_] := Store.values_singleton
    rw [hvalues]
    exact List.Perm.refl [0]

/-- The paragraph compared with itself. -/
theorem compare_reingestion_identical_lone :
    ∃ report, compare_reingestion (fun _ => "") (parsed_baseline lone_paragraph)
        (reingested lone_paragraph.graph) = .ok report ∧
      (report.findings = [] ↔ (parsed_baseline lone_paragraph).Reproducible) ∧
      (report.outcome = .Equal ↔ (parsed_baseline lone_paragraph).Reproducible) :=
  compare_reingestion_identical (parsed_corpus_valid rfl lone_paragraph_forest)
    parsed_corpus_media parsed_baseline_evaluated
    (parsed_corpus_effective rfl lone_paragraph_forest) (reingested_same_planes rfl)

/-- The committed graph of two unlabeled paragraphs. -/
def paragraph_pair : RevisionGraph where
  revision_uid := empty_revision.uid
  graph := two_paragraphs
  bound := by
    intro node hnode
    rw [two_paragraphs, Store.mem_values_put, Store.mem_values_singleton] at hnode
    rcases hnode with rfl | ⟨-, rfl⟩ <;> rfl
  labels := by
    intro a ha b hb hsame
    rw [two_paragraphs, Store.mem_values_put, Store.mem_values_singleton] at ha
    rcases ha with rfl | ⟨-, rfl⟩
    · exact absurd rfl hsame.1
    · exact absurd rfl hsame.1

theorem structural_key_root {node : SourceNode} {graph : SourceGraph}
    (h : node.parent_uid = none) : structural_key node graph = key_under node.tier [] := by
  rw [structural_key, h]
  rfl

theorem two_paragraphs_not_distinct : ¬ DistinctKeys two_paragraphs := by
  let first := committed_root "snode_00000000-0000-4000-8000-000000000002"
    "src_00000000-0000-4000-8000-000000000001" .Paragraph 0 none "First."
  let second := committed_root "snode_00000000-0000-4000-8000-000000000001"
    "src_00000000-0000-4000-8000-000000000001" .Paragraph 1 none "Second."
  have hne : first.uid ≠ second.uid := by decide
  have hsecond : second ∈ two_paragraphs.values := Store.mem_values_put.mpr (.inl rfl)
  have hfirst : first ∈ two_paragraphs.values :=
    Store.mem_values_put.mpr (.inr ⟨hne, Store.mem_values_singleton.mpr rfl⟩)
  have hkey : structural_key first two_paragraphs = structural_key second two_paragraphs := by
    rw [structural_key_root rfl, structural_key_root rfl]
    rfl
  intro hkeys
  exact hne (congrArg SourceNode.uid (hkeys first hfirst second hsecond hkey))

/-- **Identical planes can be told to differ**: the two paragraphs share a structural key,
and a match with such a key is reported. -/
theorem compare_reingestion_reports_identical :
    ¬ ∀ (mint : ℕ → String) (baseline : DriftBaseline) (candidate : ReingestionCandidate)
      (media_type : String) (effective : EffectiveSourceGraph),
      baseline.corpus.validate = .ok () →
      revision_media_type baseline.corpus baseline.source_revision_uid = .ok media_type →
      baseline.Evaluated →
      effective_source_graph baseline.corpus baseline.source_revision_uid baseline.bindings
        media_type = .ok effective →
      SamePlanes baseline candidate →
      ∃ report, compare_reingestion mint baseline candidate = .ok report ∧
        report.findings = [] ∧ report.outcome = .Equal := by
  intro hclaim
  have hforest : Forest "text/html" paragraph_pair.graph :=
    validate_graph_standalone_ok_iff.mp two_paragraphs_valid
  have hvalid : (parsed_baseline paragraph_pair).corpus.validate = .ok () :=
    parsed_corpus_valid rfl hforest
  have heffective := parsed_corpus_effective rfl hforest
  have hsame : SamePlanes (parsed_baseline paragraph_pair) (reingested paragraph_pair.graph) :=
    reingested_same_planes rfl
  obtain ⟨report, hreport, hnone, -⟩ := hclaim (fun _ => "") _ _ "text/html" _ hvalid
    parsed_corpus_media parsed_baseline_evaluated heffective hsame
  have hkeys := (reproducible_of_no_findings hvalid parsed_corpus_media parsed_baseline_evaluated
    heffective hsame hreport hnone).keys
  have hgraph : (parsed_baseline paragraph_pair).corpus.parser_graph
      (parsed_baseline paragraph_pair).source_revision_uid = paragraph_pair.graph :=
    parsed_corpus_parser_graph rfl
  rw [hgraph] at hkeys
  exact two_paragraphs_not_distinct hkeys

end Witness

end Evidence.Corpus
