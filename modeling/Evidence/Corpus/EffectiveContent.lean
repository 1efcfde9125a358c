/-
What the effective graph of a revision contains.

Its patches are the approved ones of the revision, in uid order, and its graph is
their run from the committed parser graph. Every patch of the run is bound to the
digest of the committed graph, and it is checked against the graph that the patches
before it have left. So while different renderings have different digests, all
patches but the last have left what the rendering shows, and only the last can have
changed anything (`effective_source_graph_content`).
-/
import Evidence.Corpus.EffectiveGraph

set_option autoImplicit false

namespace Evidence.Corpus

open Check

/-! ## Graphs that are shown alike -/

section Shown

variable [F64Display]

/-- The canonical rendering shows the same of two graphs. -/
def ShownAlike (graph graph' : SourceGraph) : Prop :=
  ∀ uid, (graph.get uid).map SourceNode.rendered = (graph'.get uid).map SourceNode.rendered

theorem ShownAlike.of_rendering {graph graph' : SourceGraph}
    (h : render_sorted_nodes graph.values = render_sorted_nodes graph'.values) :
    ShownAlike graph graph' := by
  have hkey : ∀ node : SourceNode, node.rendered.uid = node.uid := fun _ => rfl
  refine (Store.map_values_eq_iff RenderedNode.uid hkey).mp (render_nodes_eq_iff.mp ?_)
  rw [render_sorted_nodes, render_sorted_nodes, sortBy_values, sortBy_values] at h
  exact List.append_cancel_left (String.ofList_injective (str_bytes_inj h))

omit [F64Display] in
/-- The coordinates of a locator's bounding box. -/
def SourceLocator.coordinates : SourceLocator → List F64
  | .Pdf _ _ bbox => bbox.toList
  | _ => []

/-- The text of a coordinate tells the coordinates of two graphs apart. -/
def TextsFaithful (graph graph' : SourceGraph) : Prop :=
  ∀ node ∈ graph.values, ∀ node' ∈ graph'.values, ∀ x ∈ node.locator.coordinates,
    ∀ y ∈ node'.locator.coordinates, display x = display y → x = y

/-- Locators that are shown alike are equal, if the texts of their coordinates are
faithful. -/
theorem SourceLocator.eq_of_rendered {a b : SourceLocator}
    (htexts : ∀ x ∈ a.coordinates, ∀ y ∈ b.coordinates, display x = display y → x = y)
    (h : a.rendered = b.rendered) : a = b := by
  cases a with
  | Markdown | Html =>
    cases b <;> cases h
    rfl
  | Pdf page label bbox =>
    cases b with
    | Markdown | Html => cases h
    | Pdf page' label' bbox' =>
      simp only [rendered, RenderedLocator.Pdf.injEq, List.cons.injEq, and_true] at h
      obtain ⟨rfl, rfl, h0, h1, h2, h3⟩ := h
      have htext : ∀ i : Fin 4, display (bbox.get i) = display (bbox'.get i) := by
        refine Fin.cases h0 (Fin.cases h1 (Fin.cases h2 (Fin.cases h3 ?_)))
        exact fun i => i.elim0
      have hmem : ∀ (box : Vector F64 4) (i : Fin 4), box.get i ∈ box.toList := fun box i =>
        Vector.mem_toList_iff.mpr (Vector.getElem_mem i.isLt)
      have hbox : bbox = bbox' := Vector.ext fun i hi =>
        htexts _ (hmem bbox ⟨i, hi⟩) _ (hmem bbox' ⟨i, hi⟩) (htext ⟨i, hi⟩)
      rw [hbox]

theorem ShownAlike.eq {graph graph' : SourceGraph} (h : ShownAlike graph graph')
    (htexts : TextsFaithful graph graph') : graph = graph' := by
  refine Store.ext fun uid => ?_
  have huid := h uid
  cases hget : graph.get uid with
  | none =>
    rw [hget] at huid
    exact (Option.map_eq_none_iff.mp huid.symm).symm
  | some node =>
    rw [hget, Option.map_some] at huid
    obtain ⟨node', hget', hshown⟩ := Option.map_eq_some_iff.mp huid.symm
    have hlocator : node.locator = node'.locator :=
      SourceLocator.eq_of_rendered
        (htexts node (Store.mem_values_of_get hget) node' (Store.mem_values_of_get hget'))
        (congrArg RenderedNode.locator hshown).symm
    rw [hget']
    obtain ⟨uid, revision, parent, kind, ordinal, label, text, content, finger, locator⟩ := node
    obtain ⟨uid', revision', parent', kind', ordinal', label', text', content', finger',
      locator'⟩ := node'
    simp only [SourceNode.rendered, RenderedNode.mk.injEq] at hshown hlocator
    obtain ⟨rfl, rfl, rfl, rfl, rfl, rfl, rfl, rfl, rfl, -⟩ := hshown
    rw [hlocator]

end Shown

/-! ## The patches of an effective graph -/

section Content

variable [Sha256] [F64Display]

theorem effective_source_graph_known {graph : CorpusGraph} {source_revision_uid : String}
    {bindings : PatchBindings} {media_type : String} {effective : EffectiveSourceGraph}
    (hok : effective_source_graph graph source_revision_uid bindings media_type = .ok effective) :
    graph.validate = .ok () ∧
      ∃ revision ∈ graph.source_revisions, revision.uid = source_revision_uid := by
  rw [effective_source_graph, bind_ok_iff] at hok
  obtain ⟨evaluations, hevaluations, hok⟩ := hok
  rw [seq_ok_iff, failIf_ok_iff, not_not] at hok
  exact ⟨(evaluate_all_patch_lifecycles_ok_iff.mp (mapError_ok_iff.mp hevaluations)).1, hok.1⟩

omit [Sha256] [F64Display] in
theorem approved_uids_sorted (graph : CorpusGraph) (source_revision_uid : String) :
    ((approved_patches graph source_revision_uid).map SourcePatchRecord.uid).Pairwise
      fun a b => compare a b = .lt := by
  rw [List.pairwise_map]
  exact graph.source_patches.values_sorted.filter _

theorem mem_approved_uids {graph : CorpusGraph} (hvalid : graph.validate = .ok ())
    {source_revision_uid uid : String} :
    uid ∈ (approved_patches graph source_revision_uid).map SourcePatchRecord.uid ↔
      ∃ patch ∈ graph.source_patches.values, patch.uid = uid ∧
        patch.source_revision_uid = source_revision_uid ∧
        ∃ evaluation, evaluate_patch_lifecycle graph uid = .ok evaluation ∧
          evaluation.state = .Approved := by
  have hevaluate : ∀ patch ∈ graph.source_patches.values,
      evaluate_patch_lifecycle graph patch.uid = .ok (patch_evaluation graph patch) := by
    intro patch hpatch
    have hget : graph.source_patch patch.uid = some patch := Store.mem_values.mp hpatch
    rw [evaluate_patch_lifecycle, seq_ok_iff, mapError_ok_iff, evaluate_patch_lifecycle_validated,
      hget]
    exact ⟨hvalid, rfl⟩
  simp only [approved_patches, List.mem_map, List.mem_filter, Bool.and_eq_true, beq_iff_eq]
  constructor
  · rintro ⟨patch, ⟨hpatch, hrevision, hstate⟩, rfl⟩
    exact ⟨patch, hpatch, rfl, hrevision, _, hevaluate patch hpatch, hstate⟩
  · rintro ⟨patch, hpatch, rfl, hrevision, evaluation, hevaluation, hstate⟩
    rw [hevaluate patch hpatch, Except.ok.injEq] at hevaluation
    exact ⟨patch, ⟨hpatch, hrevision, hevaluation ▸ hstate⟩, rfl⟩

theorem digest_kept_before {graph : CorpusGraph} (hvalid : graph.validate = .ok ())
    {source_revision_uid : String} {bindings : PatchBindings} {media_type : String}
    {before after : List SourcePatchRecord} {next : SourcePatchRecord}
    (happroved : approved_patches graph source_revision_uid = before ++ next :: after)
    {working final : SourceGraph}
    (hbefore : Runs (apply_approved bindings media_type) (graph.parser_graph source_revision_uid)
      before working)
    (hrun : Runs (apply_approved bindings media_type) (graph.parser_graph source_revision_uid)
      (approved_patches graph source_revision_uid) final) :
    source_graph_digest working = source_graph_digest (graph.parser_graph source_revision_uid) := by
  rw [happroved, Runs.append_iff] at hrun
  obtain ⟨middle, hfirst, hrest⟩ := hrun
  rw [hfirst.unique hbefore] at hrest
  cases hrest with
  | cons hstep _ =>
    obtain ⟨application, happly, -⟩ := apply_approved_ok_iff.mp hstep
    obtain ⟨-, -, -, hpre, -⟩ := apply_patch_ok_iff.mp happly
    have hmem : next ∈ approved_patches graph source_revision_uid := by
      rw [happroved]
      exact List.mem_append_right _ List.mem_cons_self
    obtain ⟨hpatch, hbound⟩ := List.mem_filter.mp hmem
    rw [Bool.and_eq_true, beq_iff_eq] at hbound
    rw [← hpre, ← (graph.patch_wellBound hvalid hpatch).digest, hbound.1]

/-- **The content of an effective graph.** Its patches are the committed patches of
the revision whose evaluated lifecycle is approved, in strictly increasing uid order,
and its graph is their run from the committed parser graph. If, along the run, graphs
with the committed digest have the committed rendering, then every patch but the last
leaves what is shown of its graph, and, with faithful coordinate texts, its graph. -/
theorem effective_source_graph_content {graph : CorpusGraph} {source_revision_uid : String}
    {bindings : PatchBindings} {media_type : String} {effective : EffectiveSourceGraph}
    (hok : effective_source_graph graph source_revision_uid bindings media_type = .ok effective) :
    effective.applied_patch_uids.Pairwise (fun a b => compare a b = .lt) ∧
    (∀ uid, uid ∈ effective.applied_patch_uids ↔
      ∃ patch ∈ graph.source_patches.values, patch.uid = uid ∧
        patch.source_revision_uid = source_revision_uid ∧
        ∃ evaluation, evaluate_patch_lifecycle graph uid = .ok evaluation ∧
          evaluation.state = .Approved) ∧
    ∃ applied : List SourcePatchRecord,
      applied.map SourcePatchRecord.uid = effective.applied_patch_uids ∧
      (∀ patch ∈ applied, patch ∈ graph.source_patches.values) ∧
      applied.foldlM (apply_approved bindings media_type)
        (graph.parser_graph source_revision_uid) = .ok effective.graph ∧
      ((∀ before working, before <+: applied →
          before.foldlM (apply_approved bindings media_type)
            (graph.parser_graph source_revision_uid) = .ok working →
          source_graph_digest working =
            source_graph_digest (graph.parser_graph source_revision_uid) →
          render_sorted_nodes working.values =
            render_sorted_nodes (graph.parser_graph source_revision_uid).values) →
        ∀ before patch after, applied = before ++ patch :: after → after ≠ [] →
          ∃ working application,
            before.foldlM (apply_approved bindings media_type)
              (graph.parser_graph source_revision_uid) = .ok working ∧
            apply_patch working patch bindings media_type = .ok application ∧
            ShownAlike application.graph working ∧
            (TextsFaithful application.graph working → application.graph = working)) := by
  obtain ⟨hvalid, revision, hrevision, rfl⟩ := effective_source_graph_known hok
  obtain ⟨final, hrun, rfl⟩ := (effective_source_graph_ok_iff hvalid hrevision).mp hok
  refine ⟨approved_uids_sorted graph _, fun uid => mem_approved_uids hvalid,
    approved_patches graph revision.uid, rfl, fun patch hpatch => List.mem_of_mem_filter hpatch,
    foldlM_ok_iff.mpr hrun, fun hdigest before patch after happroved hafter => ?_⟩
  simp only [foldlM_ok_iff] at hdigest ⊢
  -- the graph before the patch and the graph after it both have the committed digest
  have hsplit := hrun
  rw [happroved, Runs.append_iff] at hsplit
  obtain ⟨working, hbefore, hrest⟩ := hsplit
  cases hrest with
  | cons hstep _ =>
    obtain ⟨application, happly, rfl⟩ := apply_approved_ok_iff.mp hstep
    obtain ⟨next, rest, rfl⟩ := List.exists_cons_of_ne_nil hafter
    have happroved' : approved_patches graph revision.uid = (before ++ [patch]) ++ next :: rest := by
      rw [happroved, List.append_assoc, List.singleton_append]
    have hthrough : Runs (apply_approved bindings media_type) (graph.parser_graph revision.uid)
        (before ++ [patch]) application.graph :=
      Runs.append_iff.mpr ⟨working, hbefore, .single hstep⟩
    have hshown := hdigest before working (happroved ▸ List.prefix_append _ _) hbefore
      (digest_kept_before hvalid happroved hbefore hrun)
    have hshown' := hdigest _ _ (happroved' ▸ List.prefix_append _ _) hthrough
      (digest_kept_before hvalid happroved' hthrough hrun)
    have halike := ShownAlike.of_rendering (hshown'.trans hshown.symm)
    exact ⟨working, application, hbefore, happly, halike, halike.eq⟩

end Content

/-! ## One approved insertion -/

section Witness

attribute [local instance] fips180 F64.exact_display canonical_formats

/-- The effective graph of one approved insertion has that patch applied. -/
theorem effective_source_graph_content_insertion :
    ∃ effective, effective_source_graph one_insertion empty_revision.uid
      ⟨.of_bytes [], .of_bytes []⟩ "text/html" = .ok effective ∧
      ∀ uid, uid ∈ effective.applied_patch_uids ↔
        ∃ patch ∈ one_insertion.source_patches.values, patch.uid = uid ∧
          patch.source_revision_uid = empty_revision.uid ∧
          ∃ evaluation, evaluate_patch_lifecycle one_insertion uid = .ok evaluation ∧
            evaluation.state = .Approved := by
  have h := one_insertion_approved
  obtain ⟨application, happly⟩ := insertion_applies
    "patch_00000000-0000-4000-8000-000000000001" "PATCH-1"
  have hvalues : one_insertion.source_patches.values =
      [insertion "patch_00000000-0000-4000-8000-000000000001" "PATCH-1"] :=
    Store.values_singleton
  have hrun : Runs (apply_approved ⟨.of_bytes [], .of_bytes []⟩ "text/html")
      (one_insertion.parser_graph empty_revision.uid)
      (approved_patches one_insertion empty_revision.uid) application.graph := by
    rw [h.approved_patches_eq, h.parser_graph_empty, hvalues]
    exact .single (apply_approved_ok_iff.mpr ⟨application, happly, rfl⟩)
  have hok := (effective_source_graph_ok_iff h.validates h.mem_revisions).mpr
    ⟨application.graph, hrun, rfl⟩
  exact ⟨_, hok, (effective_source_graph_content hok).2.1⟩

end Witness

end Evidence.Corpus
