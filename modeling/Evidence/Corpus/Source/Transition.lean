/-
`corpus/source/lineage/transition.rs` -- the immutable-superset source transition.

A proposed graph may replace a prior one when every prior revision is still there with
an equal projection, and a new revision of a prior document supersedes its prior
effective head. Both graphs are valid, so each document is one linear chain in each of
them, and the prior chain is the end of the proposed one (`Retained.chain`). What is
new stands in front of it.

The check takes a revision for new when the prior graph has no node of its uid, of
whatever kind. A revision that takes over the uid of another kind of node escapes the
check (`Concealed`), and a document can then gain several revisions at once.
-/
import Evidence.Corpus.Graph.Validate
import Evidence.Corpus.Source.Lineage

set_option autoImplicit false

namespace Evidence.Corpus

open Check Climb Succession

/-! ## Projections -/

structure SourceRevisionProjection where
  uid : String
  id : String
  document_key : String
  title : String
  media_type : String
  canonical_location : String
  material : SourceMaterial
  supersedes : Option String
deriving DecidableEq

/-- The comparison form of a source-revision node. -/
def SourceRevisionNode.project (node : SourceRevisionNode) : SourceRevisionProjection where
  uid := node.uid
  id := node.id
  document_key := node.document_key
  title := node.title
  media_type := node.media_type
  canonical_location := node.canonical_location
  material := node.material
  supersedes := supersedes_target node

/-- The comparison forms of a chain. -/
abbrev projections (chain : List SourceRevisionNode) : List SourceRevisionProjection :=
  chain.map SourceRevisionNode.project

def material_diff : SourceMaterial → SourceMaterial → Option String
  | .Available prior_at prior_sha256 prior_capture,
      .Available proposed_at proposed_sha256 proposed_capture =>
    if prior_at ≠ proposed_at then some "retrieved_at"
    else if prior_sha256 ≠ proposed_sha256 then some "sha256"
    else if prior_capture ≠ proposed_capture then some "capture"
    else none
  | .Unavailable prior_reason, .Unavailable proposed_reason =>
    if prior_reason ≠ proposed_reason then some "reason" else none
  | _, _ => some "material"

/-- The first differing projection field between two revisions of one uid. -/
def projection_diff (prior proposed : SourceRevisionProjection) : Option String :=
  if prior.id ≠ proposed.id then some "id"
  else if prior.document_key ≠ proposed.document_key then some "document_key"
  else if prior.title ≠ proposed.title then some "title"
  else if prior.media_type ≠ proposed.media_type then some "media_type"
  else if prior.canonical_location ≠ proposed.canonical_location then some "canonical_location"
  else match material_diff prior.material proposed.material with
    | some field => some field
    | none => if prior.supersedes ≠ proposed.supersedes then some "supersedes" else none

theorem material_diff_eq_none {prior proposed : SourceMaterial} :
    material_diff prior proposed = none ↔ prior = proposed := by
  cases prior with
  | Available prior_at prior_sha256 prior_capture =>
    cases proposed with
    | Available proposed_at proposed_sha256 proposed_capture =>
      simp only [material_diff, ne_eq, ite_not, SourceMaterial.Available.injEq]
      split_ifs <;> simp [*]
    | Unavailable reason => simp [material_diff]
  | Unavailable prior_reason =>
    cases proposed with
    | Available proposed_at proposed_sha256 proposed_capture => simp [material_diff]
    | Unavailable reason =>
      simp only [material_diff, ne_eq, ite_not, SourceMaterial.Unavailable.injEq]
      split_ifs <;> simp [*]

theorem projection_diff_eq_none {prior proposed : SourceRevisionProjection}
    (huid : prior.uid = proposed.uid) :
    projection_diff prior proposed = none ↔ prior = proposed := by
  obtain ⟨uid, id, document_key, title, media_type, location, material, supersedes⟩ := prior
  obtain ⟨uid', id', document_key', title', media_type', location', material', supersedes'⟩ :=
    proposed
  obtain rfl : uid = uid' := huid
  have hmaterial : material_diff material material' = none ↔ material = material' :=
    material_diff_eq_none
  simp only [projection_diff, ne_eq, ite_not, SourceRevisionProjection.mk.injEq, true_and]
  cases hdiff : material_diff material material' with
  | none =>
    obtain rfl := hmaterial.mp hdiff
    split_ifs <;> simp [*]
  | some field =>
    have hne : material ≠ material' := fun heq => by rw [hmaterial.mpr heq] at hdiff; cases hdiff
    split_ifs <;> simp [*]

/-! ## The transition -/

/-- The failures of a source baseline transition. -/
inductive SourceTransitionError where
  | SourceTransitionInvalidGraph (graph : String) (source : CorpusError)
  | SourceTransitionRemoval (uid : String)
  | SourceTransitionMutation (uid field : String)
  | SourceTransitionCompetingHead (uid document_key prior_head_uid : String)
deriving DecidableEq

/-- A prior revision is still present with an equal projection. -/
def check_retained (proposed : CorpusGraph) (prior_revision : SourceRevisionNode) :
    Except SourceTransitionError Unit :=
  match proposed.get prior_revision.uid with
  | none => .error (.SourceTransitionRemoval prior_revision.uid)
  | some proposed_node =>
    match proposed_node.as_source_revision with
    | none => .error (.SourceTransitionMutation prior_revision.uid "kind")
    | some proposed_revision =>
      match projection_diff prior_revision.project proposed_revision.project with
      | some field => .error (.SourceTransitionMutation prior_revision.uid field)
      | none => .ok ()

/-- A new revision of a prior document supersedes its prior effective head. -/
def check_extends (prior : CorpusGraph) (new_revision : SourceRevisionNode) :
    Except SourceTransitionError Unit :=
  if (prior.get new_revision.uid).isSome then .ok ()
  else
    match (effective_source_heads prior).get new_revision.document_key with
    | none => .ok ()
    | some (_, prior_head_uid) =>
      failIf (supersedes_target new_revision ≠ some prior_head_uid)
        (.SourceTransitionCompetingHead new_revision.uid new_revision.document_key prior_head_uid)

/-- Compare a prior source baseline with a proposed one. -/
def validate_source_transition [Sha256] [F64Display] (prior proposed : CorpusGraph) :
    Except SourceTransitionError Unit := do
  prior.validate.mapError (.SourceTransitionInvalidGraph "prior")
  prior.source_revisions.forM (check_retained proposed)
  proposed.source_revisions.forM (check_extends prior)
  proposed.validate.mapError (.SourceTransitionInvalidGraph "proposed")

/-! ## What is kept -/

/-- Every prior revision is present in the proposed graph with an equal projection. -/
def Retained (prior proposed : CorpusGraph) : Prop :=
  ∀ revision ∈ prior.source_revisions,
    ∃ kept ∈ proposed.source_revisions, kept.project = revision.project

variable {prior proposed : CorpusGraph}

theorem check_retained_ok_iff {revision : SourceRevisionNode} :
    check_retained proposed revision = .ok () ↔
      ∃ kept ∈ proposed.source_revisions, kept.project = revision.project := by
  have hkept : (∃ kept ∈ proposed.source_revisions, kept.project = revision.project) ↔
      ∃ kept, proposed.revision revision.uid = some kept ∧ kept.project = revision.project := by
    refine exists_congr fun kept => and_congr_left fun hproject => ?_
    have huid : kept.uid = revision.uid := congrArg SourceRevisionProjection.uid hproject
    rw [CorpusGraph.revision_iff, and_iff_left huid]
  rw [hkept]
  unfold check_retained CorpusGraph.revision
  cases hget : proposed.get revision.uid with
  | none => simp
  | some node =>
    rw [Option.bind_some]
    cases hrevision : node.as_source_revision with
    | none => simp [hrevision]
    | some found =>
      have hfound : proposed.revision revision.uid = some found := by
        rw [CorpusGraph.revision, hget]
        exact hrevision
      have huid : revision.uid = found.uid := (CorpusGraph.revision_iff.mp hfound).2.symm
      have hdiff : projection_diff revision.project found.project = none ↔
          revision.project = found.project := projection_diff_eq_none huid
      simp only [hrevision, Option.some.injEq, exists_eq_left']
      cases hfields : projection_diff revision.project found.project with
      | none => simp [(hdiff.mp hfields).symm]
      | some field =>
        have hne : found.project ≠ revision.project := fun heq => by
          rw [hdiff.mpr heq.symm] at hfields
          cases hfields
        simp [hne]

theorem Retained.document_keys (h : Retained prior proposed) {document_key : String}
    (hkey : document_key ∈ document_keys prior) : document_key ∈ document_keys proposed := by
  obtain ⟨revision, hrevision, rfl⟩ := mem_document_keys.mp hkey
  obtain ⟨kept, hkept, hproject⟩ := h revision hrevision
  exact mem_document_keys.mpr
    ⟨kept, hkept, congrArg SourceRevisionProjection.document_key hproject⟩

def projected (graph : CorpusGraph) (uid : String) : Option SourceRevisionProjection :=
  (graph.revision uid).map SourceRevisionNode.project

theorem project_lineage {graph : CorpusGraph}
    (hshows : ∀ uid revision, graph.revision uid = some revision →
      projected proposed uid = some revision.project) {o : Option String}
    {line : List SourceRevisionNode} (hline : Lineage graph.revision supersedes_target o line) :
    Lineage (projected proposed) SourceRevisionProjection.supersedes o
      (projections line) := by
  have hmap : Lineage (projected proposed)
      SourceRevisionProjection.supersedes (o.map id) (projections line) :=
    hline.map id SourceRevisionNode.project hshows fun _ revision _ =>
      (congrFun Option.map_id (supersedes_target revision)).symm
  rwa [Option.map_id] at hmap

theorem Retained.shows (h : Retained prior proposed) (uid : String) (revision : SourceRevisionNode)
    (hget : prior.revision uid = some revision) :
    projected proposed uid = some revision.project := by
  obtain ⟨hmem, rfl⟩ := CorpusGraph.revision_iff.mp hget
  obtain ⟨kept, hkept, hproject⟩ := h revision hmem
  have huid : kept.uid = revision.uid := congrArg SourceRevisionProjection.uid hproject
  exact Option.map_eq_some_iff.mpr ⟨kept, CorpusGraph.revision_iff.mpr ⟨hkept, huid⟩, hproject⟩

/-- **The prior chain is the end of the proposed chain.** The prior head is on the
proposed chain, and from there on both follow the same projections; what stands in
front of it was no revision of the prior graph. -/
theorem Retained.chain (h : Retained prior proposed) {document_key : String}
    {head : SourceRevisionNode} {chain chain' : List SourceRevisionNode}
    (hchain : LinearChain prior document_key (head :: chain))
    (hchain' : LinearChain proposed document_key chain') :
    ∃ added kept, chain' = added ++ kept ∧ projections kept = projections (head :: chain) ∧
      ∀ revision ∈ added, prior.revision revision.uid = none := by
  obtain ⟨hmem, hkey⟩ := hchain.mem_iff.mp List.mem_cons_self
  obtain ⟨kept, hkept, hproject⟩ := h head hmem
  have huid : kept.uid = head.uid := congrArg SourceRevisionProjection.uid hproject
  have hkeptkey : kept.document_key = document_key :=
    (congrArg SourceRevisionProjection.document_key hproject).trans hkey
  obtain ⟨added, older, rfl⟩ := List.append_of_mem (hchain'.mem_iff.mpr ⟨hkept, hkeptkey⟩)
  have hline' : Lineage proposed.revision supersedes_target (some kept.uid) (kept :: older) :=
    hchain'.linked.of_append.lineage fun w hw => CorpusGraph.revision_iff.mpr
      ⟨(hchain'.mem_iff.mp (List.mem_append_right added hw)).1, rfl⟩
  have hsame : projections (kept :: older) = projections (head :: chain) := by
    have hshows : ∀ uid revision, proposed.revision uid = some revision →
        projected proposed uid = some revision.project := fun _ _ hget =>
      congrArg (Option.map SourceRevisionNode.project) hget
    refine (project_lineage hshows hline').unique ?_
    rw [huid]
    exact project_lineage h.shows hchain.lineage
  refine ⟨added, kept :: older, rfl, hsame, fun revision hrevision => ?_⟩
  -- a prior revision of the document shows up again behind the prior head
  refine Option.eq_none_iff_forall_ne_some.mpr fun found hfound => ?_
  obtain ⟨hfoundmem, hfounduid⟩ := CorpusGraph.revision_iff.mp hfound
  obtain ⟨hrmem, hrkey⟩ := hchain'.mem_iff.mp (List.mem_append_left _ hrevision)
  have hfoundkey : found.document_key = document_key := by
    obtain ⟨again, hagain, heq⟩ := h found hfoundmem
    have hagainuid : again.uid = revision.uid :=
      (congrArg SourceRevisionProjection.uid heq).trans hfounduid
    rw [← hrkey, ← CorpusGraph.revision_inj hagain hrmem hagainuid]
    exact (congrArg SourceRevisionProjection.document_key heq).symm
  have hold : revision.uid ∈ (kept :: older).map SourceRevisionNode.uid := by
    have huids : (kept :: older).map SourceRevisionNode.uid =
        (head :: chain).map SourceRevisionNode.uid := by
      have hmap := congrArg (List.map SourceRevisionProjection.uid) hsame
      rwa [List.map_map, List.map_map] at hmap
    rw [huids, ← hfounduid]
    exact List.mem_map_of_mem (hchain.mem_iff.mpr ⟨hfoundmem, hfoundkey⟩)
  have hnodup := hchain'.uids_nodup
  rw [List.map_append, List.nodup_append] at hnodup
  exact hnodup.2.2 _ (List.mem_map_of_mem hrevision) _ hold rfl

/-! ## New revisions -/

/-- A revision of a prior document that does not supersede its prior effective head, and
that the check passes over, since a prior node of another kind carries its uid. -/
structure Concealed (prior : CorpusGraph) (revision : SourceRevisionNode) : Prop where
  occupied : (prior.get revision.uid).isSome = true
  new : prior.revision revision.uid = none
  competes : ∃ head, (effective_source_heads prior).get revision.document_key =
    some (revision.document_key, head) ∧ supersedes_target revision ≠ some head

/-- A revision supersedes the prior effective head of its document, if there is one. -/
def ExtendsHead (prior : CorpusGraph) (revision : SourceRevisionNode) : Prop :=
  ∀ head, (effective_source_heads prior).get revision.document_key =
    some (revision.document_key, head) → supersedes_target revision = some head

theorem check_extends_ok_iff {revision : SourceRevisionNode} :
    check_extends prior revision = .ok () ↔
      (prior.get revision.uid).isSome = true ∨ ExtendsHead prior revision := by
  unfold check_extends ExtendsHead
  by_cases hget : (prior.get revision.uid).isSome = true
  · simp [hget]
  · rw [if_neg hget, or_iff_right hget]
    cases hhead : (effective_source_heads prior).get revision.document_key with
    | none => simp
    | some entry =>
      obtain ⟨document_key, head⟩ := entry
      obtain rfl : document_key = revision.document_key := Store.key_of_get hhead
      simp [failIf_ok_iff]

/-- **Unless a revision is concealed, a checked document gains at most one revision**:
each new one supersedes the prior head, and nothing is superseded twice. -/
theorem added_length_le_one (hprior : SupersedesResolve prior) (hplane : LineagePlane prior)
    {document_key : String} {head : SourceRevisionNode}
    {chain added kept : List SourceRevisionNode}
    (hchain : LinearChain prior document_key (head :: chain))
    (hchain' : LinearChain proposed document_key (added ++ kept))
    (hnew : ∀ revision ∈ added, ExtendsHead prior revision) : added.length ≤ 1 := by
  have hhead := hchain.effective_head hprior hplane
  have hsupersedes : ∀ revision ∈ added, head.uid ∈ supersedes revision := by
    intro revision hrevision
    have hmem : revision ∈ added ++ kept := List.mem_append_left kept hrevision
    refine (mem_supersedes_iff (hchain'.linked.length_outs revision hmem)).mpr ?_
    have hkey := (hchain'.mem_iff.mp hmem).2
    exact hnew revision hrevision head.uid (by rw [hkey]; exact hhead)
  have hnodup : added.Nodup :=
    (hchain'.uids_nodup.of_map _).sublist (List.sublist_append_left added kept)
  refine (length_le_one_iff_of_nodup hnodup).mpr fun v hv w hw => ?_
  exact hchain'.linked.forkless hchain'.uids_nodup (List.mem_append_left kept hv)
    (List.mem_append_left kept hw) (hsupersedes v hv) (hsupersedes w hw)

def last_graph (first : CorpusGraph) (run : List CorpusGraph) : CorpusGraph := run.getLastD first

/-! ## Accepted transitions -/

section Accepted

variable [Sha256] [F64Display]

theorem validate_source_transition_ok_iff :
    validate_source_transition prior proposed = .ok () ↔
      prior.validate = .ok () ∧ Retained prior proposed ∧
      (∀ revision ∈ proposed.source_revisions,
        (prior.get revision.uid).isSome = true ∨ ExtendsHead prior revision) ∧
      proposed.validate = .ok () := by
  simp only [validate_source_transition, seq_ok_iff, mapError_ok_iff, forM_ok_iff,
    check_retained_ok_iff, check_extends_ok_iff, Retained]

theorem lineage_of_validate {graph : CorpusGraph} (h : graph.validate = .ok ()) :
    SupersedesResolve graph ∧ LineagePlane graph := by
  obtain ⟨hedges, -, -, hlineage, -⟩ := CorpusGraph.validate_ok_iff.mp h
  have hresolve := SupersedesResolve.of_validate_edges hedges
  exact ⟨hresolve, (validate_source_lineage_ok_iff hresolve).mp hlineage⟩

/-- Both graphs are valid, every prior revision is kept with an equal projection, and
the chain of every prior document is unchanged, or prolonged by one new head that
supersedes the prior head. -/
structure AppendOnly (prior proposed : CorpusGraph) : Prop where
  prior_valid : prior.validate = .ok ()
  proposed_valid : proposed.validate = .ok ()
  retained : Retained prior proposed
  appended : ∀ document_key ∈ document_keys prior, ∃ head chain chain',
    LinearChain prior document_key (head :: chain) ∧ LinearChain proposed document_key chain' ∧
      (projections chain' = projections (head :: chain) ∨
        ∃ new kept, chain' = new :: kept ∧ projections kept = projections (head :: chain) ∧
          supersedes_target new = some head.uid)

/-- The rest of a transition is in order, but a proposed revision is concealed. -/
structure Concealment (prior proposed : CorpusGraph) : Prop where
  prior_valid : prior.validate = .ok ()
  proposed_valid : proposed.validate = .ok ()
  retained : Retained prior proposed
  concealed : ∃ revision ∈ proposed.source_revisions, Concealed prior revision
  others : ∀ revision ∈ proposed.source_revisions, prior.revision revision.uid = none →
    ¬ Concealed prior revision → ExtendsHead prior revision

theorem AppendOnly.extendsHead (h : AppendOnly prior proposed) {revision : SourceRevisionNode}
    (hrevision : revision ∈ proposed.source_revisions)
    (hnew : prior.revision revision.uid = none) : ExtendsHead prior revision := by
  intro uid huid
  obtain ⟨hprior, hplane⟩ := lineage_of_validate h.prior_valid
  obtain ⟨old, hold, -, holdkey, -⟩ := (effective_source_heads_get hprior hplane).mp huid
  obtain ⟨head, chain, chain', hchain, hchain', hor⟩ :=
    h.appended revision.document_key (mem_document_keys.mpr ⟨old, hold, holdkey⟩)
  have huidhead : uid = head.uid := by
    rw [hchain.effective_head hprior hplane] at huid
    exact (congrArg Prod.snd (Option.some.inj huid)).symm
  have hmem : revision ∈ chain' := hchain'.mem_iff.mpr ⟨hrevision, rfl⟩
  -- a revision that shows a prior projection has a prior uid
  have hnotold : ∀ kept : List SourceRevisionNode,
      projections kept = projections (head :: chain) → revision ∉ kept := by
    intro kept hkept hrevkept
    have hproject : revision.project ∈ projections (head :: chain) :=
      hkept ▸ List.mem_map_of_mem hrevkept
    obtain ⟨found, hfound, heq⟩ := List.mem_map.mp hproject
    have hfounduid : found.uid = revision.uid := congrArg SourceRevisionProjection.uid heq
    have hget := CorpusGraph.revision_iff.mpr ⟨(hchain.mem_iff.mp hfound).1, hfounduid⟩
    rw [hnew] at hget
    exact nomatch hget
  rcases hor with hkept | ⟨newer, kept, rfl, hkept, hsupersedes⟩
  · exact absurd hmem (hnotold chain' hkept)
  · rcases List.mem_cons.mp hmem with rfl | hmem
    · rw [huidhead]
      exact hsupersedes
    · exact absurd hmem (hnotold kept hkept)

theorem accepted_of_new (hvalid : prior.validate = .ok ()) (hvalid' : proposed.validate = .ok ())
    (hretained : Retained prior proposed)
    (hnew : ∀ revision ∈ proposed.source_revisions, prior.revision revision.uid = none →
      (prior.get revision.uid).isSome = true ∨ ExtendsHead prior revision) :
    validate_source_transition prior proposed = .ok () := by
  refine validate_source_transition_ok_iff.mpr
    ⟨hvalid, hretained, fun revision hrevision => ?_, hvalid'⟩
  cases hold : prior.revision revision.uid with
  | none => exact hnew revision hrevision hold
  | some found =>
    obtain ⟨hfound, huid⟩ := CorpusGraph.revision_iff.mp hold
    rw [← huid, CorpusGraph.get_revision hfound]
    exact .inl rfl

theorem AppendOnly.accepted (h : AppendOnly prior proposed) :
    validate_source_transition prior proposed = .ok () :=
  accepted_of_new h.prior_valid h.proposed_valid h.retained fun _ hrevision hnew =>
    .inr (h.extendsHead hrevision hnew)

theorem Concealment.accepted (h : Concealment prior proposed) :
    validate_source_transition prior proposed = .ok () ∧ ¬ AppendOnly prior proposed := by
  constructor
  · refine accepted_of_new h.prior_valid h.proposed_valid h.retained
      fun revision hrevision hnew => ?_
    by_cases hconcealed : Concealed prior revision
    · exact .inl hconcealed.occupied
    · exact .inr (h.others revision hrevision hnew hconcealed)
  · intro happend
    obtain ⟨revision, hrevision, hconcealed⟩ := h.concealed
    obtain ⟨uid, huid, hne⟩ := hconcealed.competes
    exact hne (happend.extendsHead hrevision hconcealed.new uid huid)

theorem extendsHead_or_concealed (h : validate_source_transition prior proposed = .ok ())
    {revision : SourceRevisionNode} (hrevision : revision ∈ proposed.source_revisions)
    (hnew : prior.revision revision.uid = none) :
    ExtendsHead prior revision ∨ Concealed prior revision := by
  obtain ⟨-, -, hchecks, -⟩ := validate_source_transition_ok_iff.mp h
  rcases hchecks revision hrevision with hoccupied | hextends
  · by_cases hextends : ExtendsHead prior revision
    · exact .inl hextends
    · refine .inr ⟨hoccupied, hnew, ?_⟩
      simpa only [ExtendsHead, not_forall, exists_prop] using hextends
  · exact .inl hextends

/-- **What an accepted transition does to a document.** The prior chain is the end of
the proposed one, with one revision in front of it at most, unless one is concealed. -/
theorem accepted_chain (h : validate_source_transition prior proposed = .ok ())
    {document_key : String} {head : SourceRevisionNode} {chain : List SourceRevisionNode}
    (hchain : LinearChain prior document_key (head :: chain)) :
    ∃ added kept, LinearChain proposed document_key (added ++ kept) ∧
      projections kept = projections (head :: chain) ∧
      ((∀ revision ∈ proposed.source_revisions, ¬ Concealed prior revision) →
        added.length ≤ 1 ∧ ∀ revision ∈ added, supersedes_target revision = some head.uid) := by
  obtain ⟨hvalid, hretained, -, hvalid'⟩ := validate_source_transition_ok_iff.mp h
  obtain ⟨hprior, hplane⟩ := lineage_of_validate hvalid
  obtain ⟨hproposed, hplane'⟩ := lineage_of_validate hvalid'
  obtain ⟨hmem, hkey⟩ := hchain.mem_iff.mp List.mem_cons_self
  obtain ⟨head', chain', hchain', -⟩ := hplane'.exists_chain hproposed
    (hretained.document_keys (mem_document_keys.mpr ⟨head, hmem, hkey⟩))
  obtain ⟨added, kept, heq, hkept, hnew⟩ := hretained.chain hchain hchain'
  rw [heq] at hchain'
  refine ⟨added, kept, hchain', hkept, fun hopen => ?_⟩
  have hextends : ∀ revision ∈ added, ExtendsHead prior revision := by
    intro revision hrevision
    obtain ⟨hrmem, -⟩ := hchain'.mem_iff.mp (List.mem_append_left kept hrevision)
    exact (extendsHead_or_concealed h hrmem (hnew revision hrevision)).resolve_right
      (hopen revision hrmem)
  refine ⟨added_length_le_one hprior hplane hchain hchain' hextends, fun revision hrevision => ?_⟩
  have hrkey := (hchain'.mem_iff.mp (List.mem_append_left kept hrevision)).2
  refine hextends revision hrevision head.uid ?_
  rw [hrkey]
  exact hchain.effective_head hprior hplane

theorem append_only_of_accepted (h : validate_source_transition prior proposed = .ok ())
    (hopen : ∀ revision ∈ proposed.source_revisions, ¬ Concealed prior revision) :
    AppendOnly prior proposed := by
  obtain ⟨hvalid, hretained, -, hvalid'⟩ := validate_source_transition_ok_iff.mp h
  obtain ⟨hprior, hplane⟩ := lineage_of_validate hvalid
  refine ⟨hvalid, hvalid', hretained, fun document_key hkey => ?_⟩
  obtain ⟨head, chain, hchain, -⟩ := hplane.exists_chain hprior hkey
  obtain ⟨added, kept, hchain', hkept, hgrowth⟩ := accepted_chain h hchain
  obtain ⟨hlen, hsupersedes⟩ := hgrowth hopen
  refine ⟨head, chain, added ++ kept, hchain, hchain', ?_⟩
  match added, hlen with
  | [], _ => exact .inl hkept
  | [new], _ => exact .inr ⟨new, kept, rfl, hkept, hsupersedes new List.mem_cons_self⟩

theorem concealment_iff_of_accepted (h : validate_source_transition prior proposed = .ok ()) :
    Concealment prior proposed ↔
      ∃ revision ∈ proposed.source_revisions, Concealed prior revision := by
  obtain ⟨hvalid, hretained, -, hvalid'⟩ := validate_source_transition_ok_iff.mp h
  refine ⟨fun hconcealment => hconcealment.concealed, fun hconcealed =>
    ⟨hvalid, hvalid', hretained, hconcealed, fun revision hrevision hnew hopen => ?_⟩⟩
  exact (extendsHead_or_concealed h hrevision hnew).resolve_right hopen

/-! ## Runs of transitions -/

def Accepted (first : CorpusGraph) (run : List CorpusGraph) : Prop :=
  (first :: run).IsChain fun prior proposed => validate_source_transition prior proposed = .ok ()

/-- No transition of a run conceals a revision. -/
def Unconcealed (first : CorpusGraph) (run : List CorpusGraph) : Prop :=
  (first :: run).IsChain fun prior proposed => ¬ Concealment prior proposed

/-- A run keeps every revision. -/
theorem Accepted.retained {first : CorpusGraph} {run : List CorpusGraph}
    (h : Accepted first run) : Retained first (last_graph first run) := by
  induction run generalizing first with
  | nil => exact fun revision hrevision => ⟨revision, hrevision, rfl⟩
  | cons next rest ih =>
    obtain ⟨hstep, hrest⟩ := List.isChain_cons_cons.mp h
    obtain ⟨-, hretained, -⟩ := validate_source_transition_ok_iff.mp hstep
    intro revision hrevision
    obtain ⟨kept, hkept, hproject⟩ := hretained revision hrevision
    obtain ⟨kept', hkept', hproject'⟩ := ih hrest kept hkept
    rw [last_graph, List.getLastD_cons]
    exact ⟨kept', hkept', hproject'.trans hproject⟩

/-- **A run prolongs chains at their heads.** -/
theorem Accepted.chain {first : CorpusGraph} {run : List CorpusGraph} (h : Accepted first run)
    {document_key : String} {head : SourceRevisionNode} {chain : List SourceRevisionNode}
    (hchain : LinearChain first document_key (head :: chain)) :
    ∃ added kept, LinearChain (last_graph first run) document_key (added ++ kept) ∧
      projections kept = projections (head :: chain) ∧
      (Unconcealed first run → added.length ≤ run.length) := by
  induction run generalizing first head chain with
  | nil => exact ⟨[], head :: chain, hchain, rfl, fun _ => Nat.le_refl 0⟩
  | cons next rest ih =>
    obtain ⟨hstep, hrest⟩ := List.isChain_cons_cons.mp h
    obtain ⟨added, kept, hchain', hkept, hgrowth⟩ := accepted_chain hstep hchain
    obtain ⟨newest, older, heq⟩ := List.exists_cons_of_ne_nil hchain'.linked.ne_nil
    rw [heq] at hchain'
    obtain ⟨later, kept', hlast, hkept', hgrowth'⟩ := ih hrest hchain'
    rw [← heq, projections, projections, List.map_append] at hkept'
    obtain ⟨between, oldest, rfl, hbetween, holdest⟩ := List.map_eq_append_iff.mp hkept'
    have hlen : between.length = added.length := by
      rw [← List.length_map SourceRevisionNode.project, hbetween, List.length_map]
    refine ⟨later ++ between, oldest, ?_, holdest.trans hkept, fun hopen => ?_⟩
    · rw [last_graph, List.getLastD_cons, List.append_assoc]
      exact hlast
    · obtain ⟨hopenstep, hopenrest⟩ := List.isChain_cons_cons.mp hopen
      rw [concealment_iff_of_accepted hstep] at hopenstep
      have hone := (hgrowth fun revision hrevision hconcealed =>
        hopenstep ⟨revision, hrevision, hconcealed⟩).1
      have hrestlen := hgrowth' hopenrest
      rw [List.length_append, List.length_cons]
      omega

/-- **Source history is append-only.** Accepting a transition is the same as its being
append-only, exactly unless it conceals a revision under the uid of another kind of
prior node while the rest of it is in order. Along accepted transitions no revision is
lost or edited, and the chain of a document stays the end of its later chains; where no
transition conceals a revision, a document gains at most one revision in each. -/
theorem validate_source_transition_append_only :
    (∀ prior proposed : CorpusGraph,
      (validate_source_transition prior proposed = .ok () ↔ AppendOnly prior proposed) ↔
        ¬ Concealment prior proposed) ∧
    ∀ (first : CorpusGraph) (run : List CorpusGraph), first.validate = .ok () →
      Accepted first run →
        Retained first (last_graph first run) ∧
        ∀ document_key ∈ document_keys first, ∃ head chain added kept,
          LinearChain first document_key (head :: chain) ∧
          LinearChain (last_graph first run) document_key (added ++ kept) ∧
          projections kept = projections (head :: chain) ∧
          (Unconcealed first run → added.length ≤ run.length) := by
  constructor
  · intro prior proposed
    constructor
    · intro h hconcealment
      obtain ⟨haccepted, hnot⟩ := hconcealment.accepted
      exact hnot (h.mp haccepted)
    · intro hopen
      refine ⟨fun haccepted => append_only_of_accepted haccepted ?_, AppendOnly.accepted⟩
      intro revision hrevision hconcealed
      exact hopen ((concealment_iff_of_accepted haccepted).mpr ⟨revision, hrevision, hconcealed⟩)
  · intro first run hvalid hrun
    obtain ⟨hresolve, hplane⟩ := lineage_of_validate hvalid
    refine ⟨hrun.retained, fun document_key hkey => ?_⟩
    obtain ⟨head, chain, hchain, -⟩ := hplane.exists_chain hresolve hkey
    obtain ⟨added, kept, hlast, hkept, hgrowth⟩ := hrun.chain hchain
    exact ⟨head, chain, added, kept, hchain, hlast, hkept, hgrowth⟩

end Accepted

/-! ## A revision under the uid of a requirement -/

section Witness

attribute [local instance] fips180 F64.exact_display canonical_formats

/-- A requirement with the uid of a source revision. -/
def borrowed_requirement : RequirementNode where
  uid := "src_00000000-0000-4000-8000-000000000003"
  id := "REQ-1"
  title := "requirement"
  layer := .Hlr
  edges := []
  description := none
  rationale := none
  scope := none
  category := none
  source := none
  verification_methods := []
  safety_impact := none

/-- One revision of a document, and the requirement. -/
def borrowed_prior : CorpusGraph :=
  { CorpusGraph.new with
    nodes :=
      (Store.empty.put (.SourceRevision
        (revision_node "src_00000000-0000-4000-8000-000000000001" "DOC-1" []))).put
        (.Requirement borrowed_requirement) }

/-- The first revision of a document. -/
def first_baseline : CorpusGraph :=
  { CorpusGraph.new with
    nodes := Store.empty.put (.SourceRevision (revision_node "src_a" "A" [])) }

/-- Two further revisions of the document at once, the last under the requirement's
uid. -/
def borrowed_proposed : CorpusGraph :=
  { CorpusGraph.new with
    nodes :=
      ((Store.empty.put (.SourceRevision
        (revision_node "src_00000000-0000-4000-8000-000000000001" "DOC-1" []))).put
        (.SourceRevision (revision_node "src_00000000-0000-4000-8000-000000000002" "DOC-2"
          [(.Supersedes, "src_00000000-0000-4000-8000-000000000001")]))).put
        (.SourceRevision (revision_node "src_00000000-0000-4000-8000-000000000003" "DOC-3"
          [(.Supersedes, "src_00000000-0000-4000-8000-000000000002")])) }

/-- **Two revisions in one transition.** The transition is accepted, and the document
gains two revisions. -/
theorem validate_source_transition_conceals :
    validate_source_transition borrowed_prior borrowed_proposed = .ok () ∧
      ¬ AppendOnly borrowed_prior borrowed_proposed := by
  refine ⟨by decide +kernel, fun h => ?_⟩
  obtain ⟨head, chain, chain', hchain, hchain', hor⟩ := h.appended "doc" (by decide +kernel)
  have hone : (head :: chain).length = 1 :=
    hchain.covers.length_eq.trans (by decide +kernel)
  have hthree : chain'.length = 3 := hchain'.covers.length_eq.trans (by decide +kernel)
  rcases hor with heq | ⟨new, kept, rfl, heq, -⟩
  · have hlen := congrArg List.length heq
    simp only [List.length_map] at hlen
    omega
  · have hlen := congrArg List.length heq
    simp only [List.length_map] at hlen
    rw [List.length_cons] at hthree
    omega

/-- Superseding the only revision of a document keeps it. -/
theorem validate_source_transition_append_only_extended :
    Retained first_baseline (last_graph first_baseline [superseded_revision]) :=
  (validate_source_transition_append_only.2 first_baseline [superseded_revision]
    (by decide +kernel)
    (List.isChain_cons_cons.mpr ⟨by decide +kernel, List.isChain_singleton _⟩)).1

end Witness

end Evidence.Corpus
