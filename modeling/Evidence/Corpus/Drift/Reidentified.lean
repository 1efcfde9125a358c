/-
The comparison of a baseline with its own document under new names.

Every ingestion mints uids of its own, so an honest re-ingestion presents the committed
graph renamed. The node plane goes through the structural keys and does not see the
names. The effective plane hashes the canonical rendering, which begins every node with
its uid: it compares names. With distinct keys a renaming that leaves the rendering as
it is renames nothing, since a node and the node of its new name have one key
(`Renames.fixed_of_rendered`).
-/
import Evidence.Corpus.Drift.Identical

set_option autoImplicit false

namespace Evidence.Corpus

open Check Climb Emission

/-! ## Keys of what a rendering shows -/

section Keys

variable [Sha256]

/-- What a key tier reads is shown by the rendering. -/
structure Tier.Alike (t u : Tier) : Prop where
  kind : t.kind = u.kind
  label : t.label = u.label
  ordinal : t.ordinal = u.ordinal
  anchor : t.locator.explicit_anchor = u.locator.explicit_anchor

omit [Sha256] in
theorem Tier.Alike.explicit_identity {t u : Tier} (h : t.Alike u) :
    Corpus.explicit_identity t.label t.locator = Corpus.explicit_identity u.label u.locator := by
  rw [Corpus.explicit_identity, Corpus.explicit_identity, h.label, h.anchor]

theorem fold_tier_congr {t u : Tier} (h : t.Alike u) (key : Option StructuralKey) :
    fold_tier t key = fold_tier u key := by
  unfold fold_tier
  rw [h.explicit_identity, h.kind, h.label, h.ordinal]

/-- **Alike nodes under alike chains have one key.** -/
theorem key_under_congr {t u : Tier} (h : t.Alike u) {chain chain' : List Tier}
    (hchain : List.Forall₂ Tier.Alike chain chain') : key_under t chain = key_under u chain' := by
  have hfold : ∀ key, chain.foldl (fun key ancestor => some (fold_tier ancestor key)) key =
      chain'.foldl (fun key ancestor => some (fold_tier ancestor key)) key := by
    induction hchain with
    | nil => exact fun _ => rfl
    | cons hhead _ ih =>
      intro key
      rw [List.foldl_cons, List.foldl_cons, fold_tier_congr hhead, ih]
  unfold key_under
  rw [hfold, h.explicit_identity, h.kind, h.label, h.ordinal]

omit [Sha256] in
theorem explicit_anchor_congr [F64Display] {a b : SourceLocator} (h : a.rendered = b.rendered) :
    a.explicit_anchor = b.explicit_anchor := by
  cases a with
  | Markdown =>
    cases b with
    | Markdown => cases h; rfl
    | Html | Pdf => cases h
  | Html =>
    cases b with
    | Html => cases h; rfl
    | Markdown | Pdf => cases h
  | Pdf =>
    cases b with
    | Pdf => rfl
    | Markdown | Html => cases h

end Keys

/-! ## Renamings that the rendering does not show -/

section Rendered

variable [F64Display] {f : String → String} {committed candidate : SourceGraph}

theorem tier_alike_of_rendered {a b : SourceNode}
    (h : b.rendered = (rename_node f a).rendered) : b.tier.Alike a.tier := by
  simp only [SourceNode.rendered, rename_node, RenderedNode.mk.injEq] at h
  obtain ⟨-, -, -, hkind, hordinal, hlabel, -, -, -, hlocator⟩ := h
  exact ⟨hkind, hlabel, hordinal, explicit_anchor_congr hlocator⟩

def SameRendering (committed candidate : SourceGraph) : Prop :=
  ∀ uid, (committed.get uid).map SourceNode.rendered = (candidate.get uid).map SourceNode.rendered

theorem Renames.renamed_get (h : Renames f committed candidate)
    (hrendered : SameRendering committed candidate) {node : SourceNode}
    (hnode : node ∈ committed.values) :
    ∃ other, committed.get (f node.uid) = some other ∧
      other.rendered = (rename_node f node).rendered := by
  have hsome := hrendered (f node.uid)
  rw [h.get (Store.mem_values.mp hnode), Option.map_some] at hsome
  exact Option.map_eq_some_iff.mp hsome

/-- The lineage of the new name runs through the new names. -/
theorem Renames.renamed_lineage (h : Renames f committed candidate)
    (hrendered : SameRendering committed candidate) {current : Option String}
    {above : List SourceNode} (habove : committed.Lineage current above) :
    ∃ above', committed.Lineage (current.map f) above' ∧
      List.Forall₂ (fun m m' => m'.tier.Alike m.tier) above above' := by
  induction habove with
  | root => exact ⟨[], .root, .nil⟩
  | @step uid m rest hget _ ih =>
    obtain ⟨rest', hline, halike⟩ := ih
    obtain ⟨other, hother, hshown⟩ := h.renamed_get hrendered (Store.mem_values_of_get hget)
    rw [get_uid uid m hget] at hother
    have hparent : other.parent_uid = m.parent_uid.map f := congrArg RenderedNode.parent_uid hshown
    refine ⟨other :: rest', .step hother ?_, .cons (tier_alike_of_rendered hshown) halike⟩
    rw [hparent]
    exact hline

variable [Sha256]

/-- **With distinct keys a renaming that is not shown renames nothing.** -/
theorem Renames.fixed_of_rendered {media_type : String} (hforest : Forest media_type committed)
    (hkeys : DistinctKeys committed) (h : Renames f committed candidate)
    (hrendered : SameRendering committed candidate) :
    ∀ node ∈ committed.values, f node.uid = node.uid := by
  intro node hnode
  obtain ⟨other, hget, hshown⟩ := h.renamed_get hrendered hnode
  have hother := Store.mem_values_of_get hget
  have hparent : other.parent_uid = node.parent_uid.map f := congrArg RenderedNode.parent_uid hshown
  obtain ⟨above, habove, hclimb⟩ := hforest.climb_eq hnode
  obtain ⟨above', habove', hclimb'⟩ := hforest.climb_eq hother
  obtain ⟨line, hline, halike⟩ := h.renamed_lineage hrendered habove
  rw [hparent] at habove'
  obtain rfl : above' = line := habove'.unique hline
  have hkey : structural_key other committed = structural_key node committed := by
    rw [structural_key, structural_key, hclimb, hclimb']
    refine key_under_congr (tier_alike_of_rendered hshown) ?_
    rw [List.forall₂_map_left_iff, List.forall₂_map_right_iff, List.forall₂_reverse_iff]
    exact halike.flip
  rw [← get_uid _ _ hget, hkeys other hother node hnode hkey]

omit [F64Display] in
theorem Renames.eq_of_fixed {media_type : String} (hforest : Forest media_type committed)
    (h : Renames f committed candidate) (hfixed : ∀ node ∈ committed.values, f node.uid = node.uid) :
    candidate = committed := by
  have hsame : ∀ node ∈ committed.values, rename_node f node = node := by
    intro node hnode
    have hparent : node.parent_uid.map f = node.parent_uid := by
      cases hup : node.parent_uid with
      | none => rfl
      | some uid =>
        obtain ⟨parent, hget⟩ := hforest.parent_get hnode hup
        have hself := hfixed parent (Store.mem_values_of_get hget)
        rw [get_uid uid parent hget] at hself
        rw [Option.map_some, hself]
    rw [rename_node, hfixed node hnode, hparent]
  refine Store.ext_values fun node => ?_
  rw [h.nodes node]
  constructor
  · rintro ⟨m, hm, rfl⟩
    rwa [hsame m hm]
  · intro hnode
    exact ⟨node, hnode, hsame node hnode⟩

end Rendered

/-! ## The report -/

section Report

variable [Sha256] [F64Display]

omit [Sha256] in
theorem sameRendering_of_digest_bytes {committed candidate : SourceGraph}
    (h : graph_digest_bytes committed = graph_digest_bytes candidate) :
    SameRendering committed candidate := by
  have hrender := List.append_cancel_left h
  exact (render_values_eq_iff committed candidate).mp
    ((render_sorted_nodes_values committed candidate).mp hrender)

/-- The effective plane is silent exactly on equal digests. -/
theorem compare_effective_eq_nil_iff {committed candidate : SourceGraph} :
    compare_effective committed candidate = [] ↔
      source_graph_digest committed = source_graph_digest candidate := by
  rw [compare_effective, ite_eq_right_iff]
  constructor
  · intro h
    by_contra hne
    exact nomatch h hne
  · intro h hne
    exact absurd h hne

variable [StrDebug] {mint : ℕ → String} {baseline : DriftBaseline}
  {candidate : ReingestionCandidate} {media_type : String} {f : String → String}

structure Renamed (f : String → String) (baseline : DriftBaseline)
    (candidate : ReingestionCandidate) : Prop where
  identities : SameIdentities baseline candidate
  parser_graph : Renames f (baseline.corpus.parser_graph baseline.source_revision_uid)
    candidate.parser_graph
  committed_patches : baseline.committed_patches.values = []
  candidate_patches : candidate.bound baseline.source_revision_uid = []

theorem Renamed.compare_patch_planes (h : Renamed f baseline candidate) :
    Corpus.compare_patch_planes baseline candidate media_type = ⟨[], candidate.parser_graph⟩ := by
  have hperm : ((candidate.patch_plane baseline.source_revision_uid).patches).Perm
      baseline.committed_patches.values := by
    rw [h.committed_patches]
    exact List.Perm.of_eq h.candidate_patches
  rw [Corpus.compare_patch_planes, compare_patches, group_candidate_uids_of_perm hperm,
    plane_uids_self, h.committed_patches]
  rfl

omit [StrDebug] in
theorem effective_source_graph_of_no_patches (hvalid : baseline.corpus.validate = .ok ())
    (hmedia : revision_media_type baseline.corpus baseline.source_revision_uid = .ok media_type)
    (hnone : baseline.committed_patches.values = []) :
    effective_source_graph baseline.corpus baseline.source_revision_uid baseline.bindings
        media_type =
      .ok
        { source_revision_uid := baseline.source_revision_uid
          graph := baseline.corpus.parser_graph baseline.source_revision_uid
          applied_patch_uids := [] } := by
  obtain ⟨revision, hrevision, huid, rfl⟩ := revision_media_type_ok_iff.mp hmedia
  have happroved : approved_patches baseline.corpus revision.uid = [] := by
    refine List.eq_nil_iff_forall_not_mem.mpr fun patch hpatch => ?_
    obtain ⟨hmem, hbound⟩ := List.mem_filter.mp hpatch
    rw [Bool.and_eq_true, beq_iff_eq] at hbound
    have hcommitted := DriftBaseline.mem_committed_patches.mpr ⟨hmem, hbound.1.trans huid⟩
    rw [hnone] at hcommitted
    exact nomatch hcommitted
  rw [← huid]
  refine (effective_source_graph_ok_iff hvalid hrevision).mpr
    ⟨baseline.corpus.parser_graph revision.uid, ?_, ?_⟩
  · rw [happroved]
    exact .nil _
  · rw [happroved]
    rfl

/-- A renamed document has a report. Beyond its names it differs in nothing but
locators that do not equal themselves. -/
theorem Renamed.report (h : Renamed f baseline candidate)
    (hvalid : baseline.corpus.validate = .ok ())
    (hmedia : revision_media_type baseline.corpus baseline.source_revision_uid = .ok media_type)
    (hkeys : DistinctKeys (baseline.corpus.parser_graph baseline.source_revision_uid)) :
    ∃ report, compare_reingestion mint baseline candidate = .ok report ∧
      (report.findings = [] ↔
        source_graph_digest (baseline.corpus.parser_graph baseline.source_revision_uid) =
            source_graph_digest candidate.parser_graph ∧
          ∀ node ∈ (baseline.corpus.parser_graph baseline.source_revision_uid).values,
            node.locator.Agrees node.locator) := by
  have hforest := baseline.parser_graph_forest hvalid hmedia
  have hpre := check_prerequisites_renamed hvalid hmedia
    (by rw [h.committed_patches]; exact fun patch hpatch => nomatch hpatch) h.parser_graph
  have hevaluated : ∀ patch ∈ candidate.bound baseline.source_revision_uid,
      candidate.patch_evaluations.get patch.uid ≠ none := by
    rw [h.candidate_patches]
    exact fun patch hpatch => nomatch hpatch
  have heffective := effective_source_graph_of_no_patches hvalid hmedia h.committed_patches
  refine ⟨_, compare_reingestion_eq_ok hpre hevaluated heffective, ?_⟩
  rw [sorted_findings_eq_nil_iff]
  simp only [drift_findings, List.append_eq_nil_iff, h.identities.silent, h.compare_patch_planes,
    compare_nodes_renamed mint hforest h.parser_graph, compare_effective_eq_nil_iff, true_and,
    and_true]
  constructor
  · rintro ⟨⟨-, hlocators⟩, hdigest⟩
    exact ⟨hdigest, hlocators⟩
  · rintro ⟨hdigest, hlocators⟩
    exact ⟨⟨hkeys, hlocators⟩, hdigest⟩

/-- **A re-ingestion under new names** compares equal exactly when the names are not new.
Equal digests are taken for equal bytes, of the two parser graphs. -/
theorem compare_reingestion_renamed (hvalid : baseline.corpus.validate = .ok ())
    (hmedia : revision_media_type baseline.corpus baseline.source_revision_uid = .ok media_type)
    (hkeys : DistinctKeys (baseline.corpus.parser_graph baseline.source_revision_uid))
    (hdigest : source_graph_digest (baseline.corpus.parser_graph baseline.source_revision_uid) =
        source_graph_digest candidate.parser_graph →
      graph_digest_bytes (baseline.corpus.parser_graph baseline.source_revision_uid) =
        graph_digest_bytes candidate.parser_graph)
    (h : Renamed f baseline candidate) :
    ∃ report, compare_reingestion mint baseline candidate = .ok report ∧
      (report.outcome = .Equal ∧ report.findings = [] ↔
        ∀ node ∈ (baseline.corpus.parser_graph baseline.source_revision_uid).values,
          f node.uid = node.uid ∧ node.locator.Agrees node.locator) := by
  have hforest := baseline.parser_graph_forest hvalid hmedia
  obtain ⟨report, hreport, hnone⟩ := h.report hvalid hmedia hkeys
  refine ⟨report, hreport, ?_⟩
  rw [DriftReport.outcome_eq_equal_iff, and_self, hnone]
  constructor
  · rintro ⟨hequal, hlocators⟩ node hnode
    have hrendered := sameRendering_of_digest_bytes (hdigest hequal)
    exact ⟨h.parser_graph.fixed_of_rendered hforest hkeys hrendered node hnode,
      hlocators node hnode⟩
  · intro hfixed
    have hsame := h.parser_graph.eq_of_fixed hforest fun node hnode => (hfixed node hnode).1
    exact ⟨by rw [hsame], fun node hnode => (hfixed node hnode).2⟩

end Report

/-! ## One paragraph under a new name -/

section Witness

attribute [local instance] fips180 F64.exact_display plain_debug

/-- The paragraph as the next ingestion names it. -/
def renamed_paragraph : SourceGraph :=
  Store.empty.put (committed_root "snode_00000000-0000-4000-8000-000000000002" empty_revision.uid
    .Paragraph 0 none "Text.")

/-- The new name. -/
private def next_name (_ : String) : String := "snode_00000000-0000-4000-8000-000000000002"

private theorem lone_paragraph_renamed :
    Renamed next_name (parsed_baseline lone_paragraph) (reingested renamed_paragraph) where
  identities := reingested_identities _
  parser_graph := by
    have hgraph : (parsed_baseline lone_paragraph).corpus.parser_graph
        (parsed_baseline lone_paragraph).source_revision_uid = lone_paragraph.graph :=
      parsed_corpus_parser_graph rfl
    rw [hgraph]
    refine ⟨fun a ha b hb _ => ?_, fun node => ?_⟩
    · rw [Store.mem_values_singleton.mp ha, Store.mem_values_singleton.mp hb]
    · constructor
      · intro hnode
        exact ⟨_, Store.mem_values_singleton.mpr rfl, (Store.mem_values_singleton.mp hnode).symm⟩
      · rintro ⟨m, hm, rfl⟩
        rw [Store.mem_values_singleton.mp hm]
        exact Store.mem_values_singleton.mpr rfl
  committed_patches := parsed_baseline_patches
  candidate_patches := rfl

private theorem lone_paragraph_distinct :
    DistinctKeys ((parsed_baseline lone_paragraph).corpus.parser_graph
      (parsed_baseline lone_paragraph).source_revision_uid) := by
  have hgraph : (parsed_baseline lone_paragraph).corpus.parser_graph
      (parsed_baseline lone_paragraph).source_revision_uid = lone_paragraph.graph :=
    parsed_corpus_parser_graph rfl
  rw [hgraph]
  intro a ha b hb _
  rw [Store.mem_values_singleton.mp ha, Store.mem_values_singleton.mp hb]

/-- The digests tell the names apart. -/
private theorem lone_paragraph_digest_ne :
    source_graph_digest ((parsed_baseline lone_paragraph).corpus.parser_graph
      (parsed_baseline lone_paragraph).source_revision_uid) ≠
      source_graph_digest renamed_paragraph := by
  have hgraph : (parsed_baseline lone_paragraph).corpus.parser_graph
      (parsed_baseline lone_paragraph).source_revision_uid = lone_paragraph.graph :=
    parsed_corpus_parser_graph rfl
  rw [hgraph, lone_paragraph, renamed_paragraph, RevisionGraph.of_node, committed_root,
    committed_root, source_graph_digest, source_graph_digest, graph_digest_bytes_eq_flatMap,
    graph_digest_bytes_eq_flatMap, fips180_eq_eval]
  decide +kernel

/-- The paragraph under its new name. -/
theorem compare_reingestion_renamed_lone :
    ∃ report, compare_reingestion (fun _ => "") (parsed_baseline lone_paragraph)
        (reingested renamed_paragraph) = .ok report ∧
      (report.outcome = .Equal ∧ report.findings = [] ↔
        ∀ node ∈ ((parsed_baseline lone_paragraph).corpus.parser_graph
          (parsed_baseline lone_paragraph).source_revision_uid).values,
          next_name node.uid = node.uid ∧ node.locator.Agrees node.locator) :=
  compare_reingestion_renamed (parsed_corpus_valid rfl lone_paragraph_forest) parsed_corpus_media
    lone_paragraph_distinct (fun hequal => absurd hequal lone_paragraph_digest_ne)
    lone_paragraph_renamed

/-- **An honest re-ingestion reports drift**: the paragraph is the same under its new name,
and the effective graphs have different digests. -/
theorem compare_reingestion_reads_names :
    ¬ ∀ (mint : ℕ → String) (baseline : DriftBaseline) (candidate : ReingestionCandidate)
      (media_type : String) (f : String → String),
      baseline.corpus.validate = .ok () →
      revision_media_type baseline.corpus baseline.source_revision_uid = .ok media_type →
      DistinctKeys (baseline.corpus.parser_graph baseline.source_revision_uid) →
      Renamed f baseline candidate →
      ∃ report, compare_reingestion mint baseline candidate = .ok report ∧
        report.outcome = .Equal ∧ report.findings = [] := by
  intro hclaim
  have hvalid : (parsed_baseline lone_paragraph).corpus.validate = .ok () :=
    parsed_corpus_valid rfl lone_paragraph_forest
  obtain ⟨report, hreport, -, hnone⟩ := hclaim (fun _ => "") _ _ "text/html" _ hvalid
    parsed_corpus_media lone_paragraph_distinct lone_paragraph_renamed
  obtain ⟨report', hreport', hfindings⟩ := @Renamed.report _ _ _ (fun _ => "") _ _ _ _
    lone_paragraph_renamed hvalid parsed_corpus_media lone_paragraph_distinct
  rw [hreport, Except.ok.injEq] at hreport'
  subst hreport'
  exact lone_paragraph_digest_ne (hfindings.mp hnone).1

end Witness

end Evidence.Corpus
