/-
`corpus/source_patch/validate.rs` -- the committed curated patches against the
committed source revisions and parser graphs.

A patch is **well bound** when its revision is committed, its pre-patch digest is
that of the revision's parser graph, and every uid it targets or parents under is
in that graph or inserted by the patch itself. The pass looks a target up in all
revision graphs at once and takes the lowest revision that holds it, although node
uids recur across the revisions of a document. `validate_source_patch_iff` says
when it accepts the well-bound patches all the same.
-/
import Evidence.Corpus.SourceGraph.Committed
import Evidence.Corpus.SourcePatch.Records

set_option autoImplicit false

namespace Evidence.Corpus

open Check

/-! ## Targets -/

def inserted_uids (patch : SourcePatchRecord) : List String :=
  patch.operations.filterMap fun operation =>
    match operation with
    | .Insert _ _ node => some node.uid
    | _ => none

/-- Another patch that inserts `uid`: of several, the last in uid order. -/
def other_inserted (graph : CorpusGraph) (patch : SourcePatchRecord) (uid : String) :
    Option String :=
  ((graph.source_patches.values.filter fun other => other.uid != patch.uid).reverse.find?
    fun other => uid ∈ inserted_uids other).map SourcePatchRecord.uid

def operation_targets : PatchOperation → List String
  | .ReplaceContent _ target_uid .. => [target_uid]
  | .Reclassify _ target_uid .. => [target_uid]
  | .Remove _ target_uid .. => [target_uid]
  | .Reparent _ target_uid expected_parent_uid _ new_parent_uid _ =>
    target_uid :: (expected_parent_uid.toList ++ new_parent_uid.toList)
  | .Insert _ expected_parent_uid _ => expected_parent_uid.toList

/-- The revision a node uid belongs to: on a collision the lowest revision uid
wins. -/
def locate (graph : CorpusGraph) (uid : String) : Option String :=
  (first_holder graph uid).map RevisionGraph.revision_uid

/-- One target resolves inside the bound revision or among the patch's own
inserted nodes. -/
def validate_target (graph : CorpusGraph) (patch : SourcePatchRecord) (target : String) :
    Except SourcePatchError Unit :=
  if target ∈ inserted_uids patch then .ok ()
  else
    match locate graph target with
    | some revision =>
      failIf (revision ≠ patch.source_revision_uid)
        (.CrossRevisionTarget patch.uid target revision)
    | none =>
      match other_inserted graph patch target with
      | some other_patch => .error (.CrossPatchTarget patch.uid target other_patch)
      | none => .error (.DanglingTarget patch.uid target)

/-- Every operation target and parent context of a patch. -/
def validate_targets (graph : CorpusGraph) (patch : SourcePatchRecord) :
    Except SourcePatchError Unit :=
  patch.operations.forM fun operation =>
    (operation_targets operation).forM (validate_target graph patch)

/-! ## Patches -/

section Patches

variable [Sha256] [F64Display]

/-- The revision binding and the pre-patch graph digest. -/
def validate_binding (graph : CorpusGraph) (patch : SourcePatchRecord) :
    Except SourcePatchError Unit := do
  failIf (¬ ∃ revision ∈ graph.source_revisions, revision.uid = patch.source_revision_uid)
    (.UnknownSourceRevision patch.uid patch.source_revision_uid)
  let recomputed := source_graph_digest (graph.parser_graph patch.source_revision_uid)
  failIf (recomputed ≠ patch.pre_patch_graph_digest)
    (.PrePatchGraphDigestMismatch patch.uid recomputed.as_str patch.pre_patch_graph_digest.as_str)

/-- The two checks of one patch. -/
def validate_source_patch (graph : CorpusGraph) (patch : SourcePatchRecord) :
    Except SourcePatchError Unit := do
  validate_binding graph patch
  validate_targets graph patch

/-- Every committed curated patch, in uid order. -/
def validate_source_patches (graph : CorpusGraph) : Except SourcePatchError Unit :=
  graph.source_patches.values.forM (validate_source_patch graph)

/-! ## What the pass accepts -/

/-- **A well-bound patch.** -/
structure WellBound (graph : CorpusGraph) (patch : SourcePatchRecord) : Prop where
  revision : ∃ revision ∈ graph.source_revisions, revision.uid = patch.source_revision_uid
  digest : source_graph_digest (graph.parser_graph patch.source_revision_uid) =
    patch.pre_patch_graph_digest
  targets : ∀ operation ∈ patch.operations, ∀ target ∈ operation_targets operation,
    target ∈ inserted_uids patch ∨
      ((graph.parser_graph patch.source_revision_uid).get target).isSome = true

/-- A lower revision's graph holds a target of the patch that the patch does not
insert. -/
def ShadowedTarget (graph : CorpusGraph) (patch : SourcePatchRecord) : Prop :=
  ∃ operation ∈ patch.operations, ∃ target ∈ operation_targets operation,
    target ∉ inserted_uids patch ∧
      ∃ other ∈ graph.source_graphs.values, (other.graph.get target).isSome = true ∧
        compare other.revision_uid patch.source_revision_uid = .lt

omit [Sha256] [F64Display] in
theorem locate_eq_some_iff {graph : CorpusGraph} {uid revision_uid : String} :
    locate graph uid = some revision_uid ↔
      ((graph.parser_graph revision_uid).get uid).isSome = true ∧
      ∀ other ∈ graph.source_graphs.values, (other.graph.get uid).isSome = true →
        compare other.revision_uid revision_uid ≠ .lt := by
  rw [locate, Option.map_eq_some_iff]
  constructor
  · rintro ⟨committed, hfirst, rfl⟩
    obtain ⟨hmem, hholds, hlowest⟩ := first_holder_eq_some_iff.mp hfirst
    refine ⟨?_, hlowest⟩
    rw [CorpusGraph.parser_graph, CorpusGraph.source_graph, Store.mem_values.mp hmem]
    exact hholds
  · rintro ⟨hholds, hlowest⟩
    rw [CorpusGraph.parser_graph, CorpusGraph.source_graph] at hholds
    cases hget : graph.source_graphs.get revision_uid with
    | none =>
      rw [hget, Option.map_none, Option.getD_none, Store.get_empty] at hholds
      cases hholds
    | some committed =>
      have hkey : committed.revision_uid = revision_uid := Store.key_of_get hget
      rw [hget, Option.map_some, Option.getD_some] at hholds
      refine ⟨committed, first_holder_eq_some_iff.mpr
        ⟨Store.mem_values_of_get hget, hholds, ?_⟩, hkey⟩
      rw [hkey]
      exact hlowest

omit [Sha256] [F64Display] in
theorem validate_target_ok_iff {graph : CorpusGraph} {patch : SourcePatchRecord}
    {target : String} :
    validate_target graph patch target = .ok () ↔
      target ∈ inserted_uids patch ∨ locate graph target = some patch.source_revision_uid := by
  rw [validate_target]
  by_cases hins : target ∈ inserted_uids patch
  · simp [hins]
  · rw [if_neg hins, or_iff_right hins]
    cases locate graph target with
    | some revision => simp [failIf_ok_iff]
    | none => cases other_inserted graph patch target <;> simp

theorem validate_source_patch_ok_iff {graph : CorpusGraph} {patch : SourcePatchRecord} :
    validate_source_patch graph patch = .ok () ↔
      (∃ revision ∈ graph.source_revisions, revision.uid = patch.source_revision_uid) ∧
      source_graph_digest (graph.parser_graph patch.source_revision_uid) =
        patch.pre_patch_graph_digest ∧
      ∀ operation ∈ patch.operations, ∀ target ∈ operation_targets operation,
        target ∈ inserted_uids patch ∨
          locate graph target = some patch.source_revision_uid := by
  rw [validate_source_patch, seq_ok_iff, validate_binding, validate_targets, seq_ok_iff,
    failIf_ok_iff, failIf_ok_iff, not_not, not_not, forM_ok_iff, and_assoc]
  simp only [forM_ok_iff, validate_target_ok_iff]

theorem wellBound_of_accepted {graph : CorpusGraph} {patch : SourcePatchRecord}
    (h : validate_source_patch graph patch = .ok ()) : WellBound graph patch := by
  obtain ⟨hrevision, hdigest, htargets⟩ := validate_source_patch_ok_iff.mp h
  refine ⟨hrevision, hdigest, fun operation hop target htarget => ?_⟩
  exact (htargets operation hop target htarget).imp_right fun hloc =>
    (locate_eq_some_iff.mp hloc).1

/-- **When the pass accepts exactly the well-bound patches**: it does so for a patch
unless the patch is well bound and a lower revision's graph holds one of its
targets too. -/
theorem validate_source_patch_iff {graph : CorpusGraph} {patch : SourcePatchRecord} :
    (validate_source_patch graph patch = .ok () ↔ WellBound graph patch) ↔
      ¬ (WellBound graph patch ∧ ShadowedTarget graph patch) := by
  constructor
  · rintro hiff ⟨hbound, operation, hop, target, htarget, hins, other, hother, hholds, hlt⟩
    obtain ⟨-, -, htargets⟩ := validate_source_patch_ok_iff.mp (hiff.mpr hbound)
    have hloc := (htargets operation hop target htarget).resolve_left hins
    exact (locate_eq_some_iff.mp hloc).2 other hother hholds hlt
  · intro hnot
    refine ⟨wellBound_of_accepted, fun hbound => ?_⟩
    refine validate_source_patch_ok_iff.mpr ⟨hbound.revision, hbound.digest, ?_⟩
    intro operation hop target htarget
    by_cases hins : target ∈ inserted_uids patch
    · exact .inl hins
    · refine .inr (locate_eq_some_iff.mpr
        ⟨(hbound.targets operation hop target htarget).resolve_left hins, ?_⟩)
      intro other hother hholds hlt
      exact hnot ⟨hbound, operation, hop, target, htarget, hins, other, hother, hholds, hlt⟩

end Patches

/-! ## Two revisions with one node uid -/

section Witness

attribute [local instance] fips180 F64.exact_display canonical_formats

/-- The same paragraph in a revision's graph. -/
def shared_paragraph (revision_uid : String) : SourceNode :=
  committed_root "snode_00000000-0000-4000-8000-000000000001" revision_uid .Paragraph 0 none "Old."

/-- A patch of the later revision's paragraph. -/
def later_patch : SourcePatchRecord :=
  patch_record "patch_00000000-0000-4000-8000-000000000001" "PATCH-1"
    "src_00000000-0000-4000-8000-000000000002"
    (Store.empty.put (shared_paragraph "src_00000000-0000-4000-8000-000000000002"))
    [.ReplaceContent 1 "snode_00000000-0000-4000-8000-000000000001"
      (content_digest .Paragraph "Old.") (some "New.") none]

/-- Two revisions of one document that both hold the paragraph, and the patch. -/
def two_revisions : CorpusGraph where
  nodes :=
    (Store.empty.put (.SourceRevision
      (revision_node "src_00000000-0000-4000-8000-000000000001" "DOC-1" []))).put
      (.SourceRevision (revision_node "src_00000000-0000-4000-8000-000000000002" "DOC-2"
        [(.Supersedes, "src_00000000-0000-4000-8000-000000000001")]))
  trace_metadata := Store.empty
  source_graphs :=
    (Store.empty.put (.of_node (shared_paragraph "src_00000000-0000-4000-8000-000000000001"))).put
      (.of_node (shared_paragraph "src_00000000-0000-4000-8000-000000000002"))
  source_patches := Store.empty.put later_patch

private theorem two_revisions_later_graph :
    two_revisions.parser_graph "src_00000000-0000-4000-8000-000000000002" =
      Store.empty.put (shared_paragraph "src_00000000-0000-4000-8000-000000000002") := by
  have hget : two_revisions.source_graphs.get "src_00000000-0000-4000-8000-000000000002" =
      some (.of_node (shared_paragraph "src_00000000-0000-4000-8000-000000000002")) :=
    (Store.get_put _ _ _).trans (if_pos rfl)
  rw [CorpusGraph.parser_graph, CorpusGraph.source_graph, hget]
  rfl

private theorem later_patch_parsed : later_patch.Parsed := by
  refine patch_record_parsed (by decide +kernel) (by decide +kernel) (by decide +kernel)
    (by decide +kernel) (List.cons_ne_nil _ _) ?_ (List.nodup_singleton _) (List.nodup_singleton _) rfl
  intro operation hop
  rw [List.mem_singleton.mp hop, validate_operation, seq_ok_iff, seq_ok_iff, failIf_ok_iff]
  exact ⟨by decide +kernel, fun h => (nomatch h.1), rfl⟩

private theorem later_patch_wellBound : WellBound two_revisions later_patch where
  revision := by
    refine ⟨revision_node "src_00000000-0000-4000-8000-000000000002" "DOC-2"
      [(.Supersedes, "src_00000000-0000-4000-8000-000000000001")], ?_, rfl⟩
    refine List.mem_filterMap.mpr ⟨.SourceRevision _, Store.mem_values.mpr ?_, rfl⟩
    exact (Store.get_put _ _ _).trans (if_pos rfl)
  digest := congrArg source_graph_digest two_revisions_later_graph
  targets := by
    intro operation hop target htarget
    rw [List.mem_singleton.mp hop] at htarget
    rw [List.mem_singleton.mp htarget]
    have hgraph : two_revisions.parser_graph later_patch.source_revision_uid =
        Store.empty.put (shared_paragraph "src_00000000-0000-4000-8000-000000000002") :=
      two_revisions_later_graph
    have hget : (Store.empty.put
        (shared_paragraph "src_00000000-0000-4000-8000-000000000002") : SourceGraph).get
          "snode_00000000-0000-4000-8000-000000000001" =
        some (shared_paragraph "src_00000000-0000-4000-8000-000000000002") :=
      Store.mem_values.mp (Store.mem_values_singleton.mpr rfl)
    rw [hgraph, hget]
    exact .inr rfl

/-- **A target of the bound revision is refused when a lower revision's graph holds
the same uid.** -/
theorem validate_source_patch_refuses_shared :
    ¬ ∀ (graph : CorpusGraph) (patch : SourcePatchRecord),
      graph.source_patch patch.uid = some patch → patch.Parsed →
      (validate_source_patch graph patch = .ok () ↔ WellBound graph patch) := by
  intro h
  have hloaded : two_revisions.source_patch later_patch.uid = some later_patch :=
    (Store.get_put _ _ _).trans (if_pos rfl)
  have haccepted := (h two_revisions later_patch hloaded later_patch_parsed).mpr
    later_patch_wellBound
  obtain ⟨-, -, htargets⟩ := validate_source_patch_ok_iff.mp haccepted
  have hlocated := (htargets _ List.mem_cons_self
    "snode_00000000-0000-4000-8000-000000000001" List.mem_cons_self).resolve_left List.not_mem_nil
  have hlower : locate two_revisions "snode_00000000-0000-4000-8000-000000000001" =
      some "src_00000000-0000-4000-8000-000000000001" := by
    decide +kernel
  rw [hlower] at hlocated
  revert hlocated
  decide +kernel

end Witness

end Evidence.Corpus
