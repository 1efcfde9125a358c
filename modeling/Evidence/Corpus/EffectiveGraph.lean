/-
`corpus/effective_graph.rs` -- the committed parser graph of a revision with its
currently approved patches applied.

The patches are applied one after the other to a working copy, in uid order. Every
one of them binds the digest of the committed graph, and the application compares
that digest with the working copy, so an approved patch is applied after another
only if the other has left the digest alone.
-/
import Evidence.Corpus.ApprovalBoundary
import Evidence.Corpus.SourcePatch.Frame

set_option autoImplicit false

namespace Evidence.Corpus

open Check Sorting

structure EffectiveSourceGraph where
  source_revision_uid : String
  graph : SourceGraph
  applied_patch_uids : List String

/-- The failures of effective-graph computation. -/
inductive EffectiveGraphError where
  | Lifecycle (source : PatchLifecycleError)
  | UnknownSourceRevision (revision_uid : String)
  | ApprovedPatchApplication (patch_uid : String) (source : SourcePatchError)
deriving DecidableEq

def contributes (evaluations : Store PatchLifecycleEvaluation.patch_uid)
    (source_revision_uid : String) (patch : SourcePatchRecord) : Bool :=
  patch.source_revision_uid == source_revision_uid &&
    ((evaluations.get patch.uid).map fun evaluation => evaluation.state == .Approved).getD false

section Effective

variable [Sha256] [F64Display]

/-- One approved patch over the working copy. -/
def apply_approved (bindings : PatchBindings) (media_type : String) (working : SourceGraph)
    (patch : SourcePatchRecord) : Except EffectiveGraphError SourceGraph :=
  match apply_patch working patch bindings media_type with
  | .ok application => .ok application.graph
  | .error source => .error (.ApprovedPatchApplication patch.uid source)

/-- Produce the effective structural graph of `source_revision_uid`. The loop over
the committed patches skips those that do not contribute. -/
def effective_source_graph (graph : CorpusGraph) (source_revision_uid : String)
    (bindings : PatchBindings) (media_type : String) :
    Except EffectiveGraphError EffectiveSourceGraph := do
  let evaluations ← (evaluate_all_patch_lifecycles graph).mapError .Lifecycle
  failIf (¬ ∃ revision ∈ graph.source_revisions, revision.uid = source_revision_uid)
    (.UnknownSourceRevision source_revision_uid)
  let approved := graph.source_patches.values.filter (contributes evaluations source_revision_uid)
  let working ← approved.foldlM (apply_approved bindings media_type)
    (graph.parser_graph source_revision_uid)
  .ok
    { source_revision_uid := source_revision_uid
      graph := working
      applied_patch_uids := approved.map SourcePatchRecord.uid }

theorem apply_approved_ok_iff {bindings : PatchBindings} {media_type : String}
    {working working' : SourceGraph} {patch : SourcePatchRecord} :
    apply_approved bindings media_type working patch = .ok working' ↔
      ∃ application, apply_patch working patch bindings media_type = .ok application ∧
        application.graph = working' := by
  rw [apply_approved]
  cases apply_patch working patch bindings media_type with
  | ok application => simp
  | error source => simp

/-- **The effective graph is a run of the approved patches** over the committed
parser graph. -/
theorem effective_source_graph_ok_iff {graph : CorpusGraph} (hvalid : graph.validate = .ok ())
    {revision : SourceRevisionNode} (hrevision : revision ∈ graph.source_revisions)
    {bindings : PatchBindings} {media_type : String} {effective : EffectiveSourceGraph} :
    effective_source_graph graph revision.uid bindings media_type = .ok effective ↔
      ∃ working, Runs (apply_approved bindings media_type) (graph.parser_graph revision.uid)
          (approved_patches graph revision.uid) working ∧
        effective =
          { source_revision_uid := revision.uid
            graph := working
            applied_patch_uids :=
              (approved_patches graph revision.uid).map SourcePatchRecord.uid } := by
  have hevaluations : evaluate_all_patch_lifecycles graph = .ok (patch_evaluations graph) :=
    evaluate_all_patch_lifecycles_ok_iff.mpr ⟨hvalid, rfl⟩
  have happroved : graph.source_patches.values.filter
      (contributes (patch_evaluations graph) revision.uid) =
      approved_patches graph revision.uid := by
    refine List.filter_congr fun patch hpatch => ?_
    rw [contributes, patch_evaluations_get, CorpusGraph.source_patch, Store.mem_values.mp hpatch]
    rfl
  have hknown : ∃ known ∈ graph.source_revisions, known.uid = revision.uid :=
    ⟨revision, hrevision, rfl⟩
  have hmapped : (evaluate_all_patch_lifecycles graph).mapError EffectiveGraphError.Lifecycle =
      .ok (patch_evaluations graph) :=
    mapError_ok_iff.mpr hevaluations
  rw [effective_source_graph, hmapped, bind_ok_iff]
  simp only [Except.ok.injEq, exists_eq_left', happroved]
  rw [seq_ok_iff, failIf_ok_iff, not_not, and_iff_right hknown, bind_ok_iff]
  simp only [foldlM_ok_iff, Except.ok.injEq]
  simp only [eq_comm (a := effective)]

/-! ## Several approved patches -/

/-- The patch, applied to the graph on its own, leaves it as it is. -/
def LeavesUnchanged (graph : SourceGraph) (media_type : String) (patch : SourcePatchRecord) :
    Prop :=
  ∀ application, apply_patch graph patch ⟨patch.recipe_digest, patch.input_digest⟩ media_type =
    .ok application → application.graph = graph

end Effective

/-! ## Two approved insertions -/

section Witness

attribute [local instance] fips180 F64.exact_display canonical_formats

/-- A root paragraph that curation adds to an empty revision. -/
def curated_root : InsertedNodeSpec where
  uid := "snode_00000000-0000-4000-8000-000000000001"
  kind := .Paragraph
  ordinal := 0
  label := none
  canonical_text := "New."
  locator := .Html "https://example.org/a" none none [] []

def insertion (uid human_id : String) : SourcePatchRecord :=
  patch_record uid human_id "src_00000000-0000-4000-8000-000000000001" Store.empty
    [.Insert 1 none curated_root]

def inserted_graph : SourceGraph :=
  Store.empty.put (committed_root "snode_00000000-0000-4000-8000-000000000001"
    "src_00000000-0000-4000-8000-000000000001" .Paragraph 0 none "New.")

theorem insertion_applies (uid human_id : String) : ∃ application,
    apply_patch Store.empty (insertion uid human_id) ⟨.of_bytes [], .of_bytes []⟩ "text/html" =
      .ok application := by
  have hop : Applies (insertion uid human_id) Store.empty (.Insert 1 none curated_root)
      inserted_graph := by
    refine .insert (fun parent hparent => nomatch hparent) (Store.get_empty _) ?_
    intro node hnode
    cases Store.mem_values.mp hnode
  have hsame : recompute_node_digests inserted_graph = inserted_graph := by
    refine Store.ext fun key => ?_
    rw [get_recompute, inserted_graph, Store.get_put]
    split
    · rfl
    · rw [Store.get_empty]
      rfl
  refine ⟨_, apply_patch_ok_iff.mpr ⟨Forest.empty, rfl, rfl, rfl, _,
    .single (apply_operation_ok_iff.mpr hop), ?_, rfl⟩⟩
  rw [hsame]
  refine forest_of_committed_roots ?_ (by decide +kernel)
  intro node hnode
  rw [Store.mem_values_singleton.mp hnode]
  exact ⟨_, _, _, _, _, _, rfl⟩

private theorem insertion_takes_uid {uid human_id media_type : String} {graph : SourceGraph}
    {bindings : PatchBindings} {application : PatchApplication}
    (h : apply_patch graph (insertion uid human_id) bindings media_type = .ok application) :
    graph.get curated_root.uid = none ∧ application.graph.get curated_root.uid ≠ none := by
  obtain ⟨-, -, -, -, working, hruns, -, rfl⟩ := apply_patch_ok_iff.mp h
  cases hruns with
  | cons hstep hrest =>
    cases hrest
    cases apply_operation_ok_iff.mp hstep with
    | insert hparent hfresh hfree =>
      refine ⟨hfresh, ?_⟩
      rw [get_recompute, Store.get_put]
      exact Option.some_ne_none _

private theorem insertion_parsed {uid human_id : String} (huid : validate_patch_uid uid = .ok ())
    (hid : is_blank human_id = false) : (insertion uid human_id).Parsed := by
  refine patch_record_parsed (by decide +kernel) huid hid (by decide +kernel)
    (List.cons_ne_nil _ _) ?_ (List.nodup_singleton _) (List.nodup_singleton _) rfl
  intro operation hop
  rw [List.mem_singleton.mp hop]
  exact (by decide +kernel : validate_snode_uid curated_root.uid = .ok ())

def approval (uid id : String) (patch : SourcePatchRecord) : ReviewNode where
  uid := uid
  id := id
  target := .CuratedPatch patch.uid
  content_schema := 1
  reviewed_content_sha256 :=
    ⟨patch.reviewed_content_digest.as_str, patch.reviewed_content_digest.valid⟩
  decision := .Approve
  reviewer := "reviewer@example.com"
  reviewed_at := "2026-07-01T12:00:00Z"
  rationale := none
  edges := [(.Reviews, patch.uid)]

/-- The revision without a parser graph. -/
def empty_revision : SourceRevisionNode :=
  revision_node "src_00000000-0000-4000-8000-000000000001" "DOC-1" []

def CorpusGraph.approve_insertion (graph : CorpusGraph)
    (review_uid review_id uid human_id : String) : CorpusGraph :=
  { graph with
    nodes := graph.nodes.put (.Review (approval review_uid review_id (insertion uid human_id)))
    source_patches := graph.source_patches.put (insertion uid human_id) }

structure ApprovedInsertions (graph : CorpusGraph) : Prop where
  nodes : ∀ node ∈ graph.nodes.values, node = .SourceRevision empty_revision ∨
    ∃ uid id, ∃ patch ∈ graph.source_patches.values, node = .Review (approval uid id patch)
  revision : graph.get empty_revision.uid = some (.SourceRevision empty_revision)
  graphs : graph.source_graphs = Store.empty
  patches : ∀ patch ∈ graph.source_patches.values, ∃ uid human_id, patch = insertion uid human_id
  approved : ∀ patch ∈ graph.source_patches.values, ∃ uid id,
    .Review (approval uid id patch) ∈ graph.nodes.values
  edges : validate_edges graph = .ok ()
  supersession : validate_review_supersession graph = .ok ()
  lineage : validate_source_lineage graph = .ok ()

namespace ApprovedInsertions

variable {graph : CorpusGraph} (h : ApprovedInsertions graph)

include h

theorem mem_revisions : empty_revision ∈ graph.source_revisions :=
  List.mem_filterMap.mpr ⟨_, Store.mem_values_of_get h.revision, rfl⟩

theorem parser_graph_empty (uid : String) : graph.parser_graph uid = Store.empty := by
  rw [CorpusGraph.parser_graph, CorpusGraph.source_graph, h.graphs, Store.get_empty]
  rfl

private theorem mem_reviews {review : ReviewNode} (hreview : review ∈ graph.reviews) :
    ∃ uid id, ∃ patch ∈ graph.source_patches.values, review = approval uid id patch := by
  obtain ⟨node, hnode, hrev⟩ := List.mem_filterMap.mp hreview
  rcases h.nodes node hnode with rfl | ⟨uid, id, patch, hpatch, rfl⟩
  · cases hrev
  · cases hrev
    exact ⟨uid, id, patch, hpatch, rfl⟩

omit h in
private theorem source_patch_of_mem {patch : SourcePatchRecord}
    (hpatch : patch ∈ graph.source_patches.values) : graph.source_patch patch.uid = some patch :=
  Store.mem_values.mp hpatch

theorem validates : graph.validate = .ok () := by
  refine CorpusGraph.validate_ok_iff.mpr
    ⟨h.edges, forM_ok_iff.mpr ?_, h.supersession, h.lineage, ?_, forM_ok_iff.mpr ?_⟩
  · intro review hreview
    obtain ⟨uid, id, patch, hpatch, rfl⟩ := h.mem_reviews hreview
    have hsome : kind_coherent graph (approval uid id patch) patch.uid = true := by
      rw [kind_coherent, source_patch_of_mem hpatch]
      rfl
    have hedge : reviews_edge (approval uid id patch) = .ok patch.uid := rfl
    rw [validate_review_node, hedge, bind_ok_iff]
    refine ⟨patch.uid, rfl, ?_⟩
    rw [seq_ok_iff, seq_ok_iff, failIf_ok_iff, failIf_ok_iff, hsome, failIf_ok_iff]
    exact ⟨fun hne => hne rfl, Bool.false_ne_true, fun hne => hne rfl⟩
  · refine validate_source_graphs_ok_iff.mpr fun committed hmem => ?_
    rw [h.graphs] at hmem
    cases Store.mem_values.mp hmem
  · intro patch hpatch
    obtain ⟨uid, human_id, rfl⟩ := h.patches patch hpatch
    refine validate_source_patch_ok_iff.mpr ⟨⟨_, h.mem_revisions, rfl⟩, ?_, ?_⟩
    · rw [h.parser_graph_empty]
      rfl
    · intro operation hop target htarget
      rw [List.mem_singleton.mp hop] at htarget
      cases htarget

theorem approved_patches_eq :
    approved_patches graph empty_revision.uid = graph.source_patches.values := by
  refine List.filter_eq_self.mpr fun patch hpatch => ?_
  obtain ⟨uid, id, hreview⟩ := h.approved patch hpatch
  have hkept : ∀ review ∈ graph.reviews, review.uid ∉ graph.superseded_review_uids := by
    intro review _ hsuper
    obtain ⟨other, hother, htarget⟩ := List.mem_flatMap.mp hsuper
    obtain ⟨_, _, _, _, rfl⟩ := h.mem_reviews hother
    cases htarget
  have hmem : approval uid id patch ∈ graph.reviews :=
    List.mem_filterMap.mpr ⟨_, hreview, rfl⟩
  have hhead : approval uid id patch ∈ effective_heads graph (.CuratedPatch patch.uid) :=
    List.mem_filter.mpr ⟨List.mem_filter.mpr ⟨hmem, beq_self_eq_true _⟩,
      decide_eq_true (hkept _ hmem)⟩
  have happrove : ∀ head ∈ effective_heads graph (.CuratedPatch patch.uid),
      head.decision = .Approve := by
    intro head hmem
    obtain ⟨_, _, _, _, rfl⟩ :=
      h.mem_reviews (List.mem_of_mem_filter (List.mem_of_mem_filter hmem))
    rfl
  have hstate : (patch_evaluation graph patch).state = .Approved := by
    have hnone : ¬ (effective_heads graph (.CuratedPatch patch.uid)).any (fun head =>
        head.decision == .Reject && binds patch.reviewed_content_digest.as_str head) = true := by
      rw [List.any_eq_true]
      rintro ⟨head, hmem, hreject⟩
      rw [happrove head hmem] at hreject
      cases hreject
    have hsome : (effective_heads graph (.CuratedPatch patch.uid)).any (fun head =>
        head.decision == .Approve && binds patch.reviewed_content_digest.as_str head) = true :=
      List.any_eq_true.mpr ⟨_, hhead, beq_self_eq_true patch.reviewed_content_digest.as_str⟩
    rw [patch_evaluation, derive_state, if_neg hnone, if_pos hsome]
  obtain ⟨_, _, rfl⟩ := h.patches patch hpatch
  rw [hstate]
  exact beq_self_eq_true "src_00000000-0000-4000-8000-000000000001"

theorem boundary : validate_approval_boundary graph .Required = .ok () := by
  have hnone : graph.requirements = [] := by
    refine List.filterMap_eq_nil_iff.mpr fun node hnode => ?_
    rcases h.nodes node hnode with rfl | ⟨_, _, _, _, rfl⟩ <;> rfl
  have hlifecycles : evaluate_all_lifecycles graph = .ok Store.empty := by
    rw [evaluate_all_lifecycles, seq_ok_iff, seq_ok_iff, mapError_ok_iff, forM_ok_iff, hnone]
    refine ⟨h.validates, fun review hreview => ?_, rfl⟩
    obtain ⟨_, _, _, _, rfl⟩ := h.mem_reviews hreview
    rfl
  have hclaims : graph.nodes.values.mapM (node_claims graph Store.empty) =
      .ok (graph.nodes.values.map fun _ => []) := by
    have hnodes : ∀ node ∈ graph.nodes.values, node_claims graph Store.empty node = .ok [] := by
      intro node hnode
      rcases h.nodes node hnode with rfl | ⟨_, _, _, _, rfl⟩ <;> rfl
    generalize graph.nodes.values = nodes at hnodes ⊢
    induction nodes with
    | nil => rfl
    | cons node nodes ih =>
      rw [List.mapM_cons, hnodes node List.mem_cons_self,
        ih fun other hother => hnodes other (List.mem_cons_of_mem node hother)]
      rfl
  have hquiet : sortBy violation_cmp (graph.nodes.values.map fun _ => []).flatten = [] := by
    rw [List.flatten_eq_nil_iff.mpr fun claims hmem => List.eq_of_mem_replicate
      (List.map_const (b := []) ▸ hmem)]
    rfl
  rw [validate_approval_boundary, validate_required, bind_ok_iff]
  refine ⟨Store.empty, mapError_ok_iff.mpr hlifecycles, ?_⟩
  rw [bind_ok_iff]
  refine ⟨_, hclaims, ?_⟩
  rw [seq_ok_iff, failIf_ok_iff, hquiet, validate_effective_curated_content, bind_ok_iff]
  refine ⟨fun hne => hne rfl, patch_evaluations graph,
    mapError_ok_iff.mpr (evaluate_all_patch_lifecycles_ok_iff.mpr ⟨h.validates, rfl⟩),
    forM_ok_iff.mpr fun patch hpatch => ?_⟩
  have hgot : (patch_evaluations graph).get patch.uid = some (patch_evaluation graph patch) := by
    rw [patch_evaluations_get, source_patch_of_mem hpatch, Option.map_some]
  obtain ⟨uid, human_id, rfl⟩ := h.patches patch hpatch
  obtain ⟨application, happly⟩ := insertion_applies uid human_id
  have hrevision : graph.get (insertion uid human_id).source_revision_uid =
      some (.SourceRevision empty_revision) := h.revision
  rw [validate_effective_patch, hgot]
  simp only [hrevision, Option.bind_some, Node.as_source_revision, h.parser_graph_empty]
  split
  · rfl
  · rw [show apply_patch Store.empty (insertion uid human_id)
      ⟨(insertion uid human_id).recipe_digest, (insertion uid human_id).input_digest⟩
      empty_revision.media_type = .ok application from happly]

theorem recorded {patch : SourcePatchRecord} (hpatch : patch ∈ graph.source_patches.values) :
    patch.recipe_digest = .of_bytes [] ∧ patch.input_digest = .of_bytes [] := by
  obtain ⟨_, _, rfl⟩ := h.patches patch hpatch
  exact ⟨rfl, rfl⟩

theorem add {review_uid review_id uid human_id : String}
    (hreview : graph.get review_uid = none) (hpatch : graph.source_patch uid = none)
    (hedges : validate_edges (graph.approve_insertion review_uid review_id uid human_id) = .ok ())
    (hsupersession : validate_review_supersession
      (graph.approve_insertion review_uid review_id uid human_id) = .ok ())
    (hlineage : validate_source_lineage
      (graph.approve_insertion review_uid review_id uid human_id) = .ok ()) :
    ApprovedInsertions (graph.approve_insertion review_uid review_id uid human_id) := by
  have hkept : ∀ patch ∈ graph.source_patches.values,
      patch ∈ (graph.source_patches.put (insertion uid human_id)).values := by
    intro patch hmem
    refine Store.mem_values_put.mpr (.inr ⟨fun huid => ?_, hmem⟩)
    have hget := source_patch_of_mem hmem
    rw [huid] at hget
    exact nomatch hpatch.symm.trans hget
  have hheld : ∀ node ∈ graph.nodes.values, node ∈ (graph.nodes.put
      (.Review (approval review_uid review_id (insertion uid human_id)))).values := by
    intro node hmem
    refine Store.mem_values_put.mpr (.inr ⟨fun huid => ?_, hmem⟩)
    have hget : graph.get node.uid = some node := Store.mem_values.mp hmem
    rw [huid] at hget
    exact nomatch hreview.symm.trans hget
  refine ⟨?_, ?_, h.graphs, ?_, ?_, hedges, hsupersession, hlineage⟩
  · intro node hnode
    rcases Store.mem_values_put.mp hnode with rfl | ⟨-, hold⟩
    · exact .inr ⟨_, _, _, Store.mem_values_put.mpr (.inl rfl), rfl⟩
    · refine (h.nodes node hold).imp_right ?_
      rintro ⟨_, _, patch, hmem, rfl⟩
      exact ⟨_, _, patch, hkept patch hmem, rfl⟩
  · exact Store.mem_values.mp (hheld _ (Store.mem_values_of_get h.revision))
  · intro patch hmem
    rcases Store.mem_values_put.mp hmem with rfl | ⟨-, hold⟩
    · exact ⟨_, _, rfl⟩
    · exact h.patches patch hold
  · intro patch hmem
    rcases Store.mem_values_put.mp hmem with rfl | ⟨-, hold⟩
    · exact ⟨_, _, Store.mem_values_put.mpr (.inl rfl)⟩
    · obtain ⟨_, _, hnode⟩ := h.approved patch hold
      exact ⟨_, _, hheld _ hnode⟩

end ApprovedInsertions

def empty_corpus : CorpusGraph :=
  { CorpusGraph.new with nodes := Store.empty.put (.SourceRevision empty_revision) }

/-- One approved insertion. -/
def one_insertion : CorpusGraph :=
  empty_corpus.approve_insertion "rev_00000000-0000-4000-8000-000000000001" "REV-1"
    "patch_00000000-0000-4000-8000-000000000001" "PATCH-1"

/-- Two approved insertions of one root. -/
def two_insertions : CorpusGraph :=
  one_insertion.approve_insertion "rev_00000000-0000-4000-8000-000000000002" "REV-2"
    "patch_00000000-0000-4000-8000-000000000002" "PATCH-2"

private theorem empty_corpus_approved : ApprovedInsertions empty_corpus where
  nodes := fun _ hnode => .inl (Store.mem_values_singleton.mp hnode)
  revision := Store.mem_values.mp (Store.mem_values_singleton.mpr rfl)
  graphs := rfl
  patches := fun patch hmem => absurd hmem (Store.not_mem_values_empty patch)
  approved := fun patch hmem => absurd hmem (Store.not_mem_values_empty patch)
  edges := by decide +kernel
  supersession := by decide +kernel
  lineage := by decide +kernel

theorem one_insertion_approved : ApprovedInsertions one_insertion :=
  empty_corpus_approved.add (by decide +kernel) rfl (by decide +kernel) (by decide +kernel)
    (by decide +kernel)

private theorem two_insertions_approved : ApprovedInsertions two_insertions :=
  one_insertion_approved.add (by decide +kernel) (by decide +kernel) (by decide +kernel)
    (by decide +kernel) (by decide +kernel)

end Witness

end Evidence.Corpus
