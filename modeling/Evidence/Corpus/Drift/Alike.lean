/-
When two records of one uid are compared alike.

A candidate record stands for a committed patch through four questions: whether it
recomputes, whether its digest is the committed one, how the two planes evaluate the
patch, and, if it is approved, what applying it gives. Only the first and the last
depend on the record once its stored digest is known, and `ComparedAlike` asks for
them. `compare_both_congr` says that records compared alike give one result, and
`ComparedAlike.of_perm` that the result tells them apart otherwise.
-/
import Evidence.Corpus.SourcePatch.Records
import Evidence.Corpus.Drift.Patches

set_option autoImplicit false

namespace Evidence.Corpus

/-! ## Records that are compared alike -/

section Choice

variable [Sha256] [F64Display] [StrDebug]

/-- The outcome of an approved patch: the graph it leaves, or the text of its failure. -/
def application_outcome (media_type : String) (candidate : CandidatePatchPlane)
    (working : SourceGraph) (patch : SourcePatchRecord) : Except String SourceGraph :=
  match candidate.recipe_digest, candidate.input_digest with
  | some recipe_digest, some input_digest =>
    match apply_patch working patch ⟨recipe_digest, input_digest⟩ media_type with
    | .ok application => .ok application.graph
    | .error source => .error source.to_string
  | _, _ => .error UNVERIFIABLE_MESSAGE

omit [StrDebug] in
/-- The stored digest of a record is that of its content. -/
def SourcePatchRecord.Recomputes (patch : SourcePatchRecord) : Prop :=
  patch.reviewed_content_digest = Corpus.reviewed_content_digest patch

omit [StrDebug] in
instance (patch : SourcePatchRecord) : Decidable patch.Recomputes :=
  inferInstanceAs (Decidable (_ = _))

omit [StrDebug] in
theorem patch_record_recomputes (uid human_id revision_uid : String) (graph : SourceGraph)
    (operations : List PatchOperation) :
    (patch_record uid human_id revision_uid graph operations).Recomputes :=
  rfl

/-- Two records that may stand for a committed patch are compared alike: they
recompute alike, and if they carry the committed digest and are approved, applying
them has one outcome. -/
structure ComparedAlike (media_type : String) (candidate : CandidatePatchPlane)
    (working : SourceGraph) (committed_patch p q : SourcePatchRecord) : Prop where
  recomputes : p.Recomputes ↔ q.Recomputes
  applies : p.Recomputes → p.reviewed_content_digest = committed_patch.reviewed_content_digest →
    (candidate.evaluations.get committed_patch.uid).map (fun entry => entry.2.state) =
      some .Approved →
    application_outcome media_type candidate working p =
      application_outcome media_type candidate working q

/-! ## What an application says -/

variable {media_type : String} {candidate : CandidatePatchPlane} {working : SourceGraph}
  {patch : SourcePatchRecord}

theorem apply_approved_of_ok {graph : SourceGraph}
    (h : application_outcome media_type candidate working patch = .ok graph) :
    candidate.apply_approved media_type working patch = ([], graph) := by
  unfold application_outcome at h
  split at h
  · next recipe_digest input_digest hrecipe hinput =>
    split at h
    · next application happly =>
      simp only [CandidatePatchPlane.apply_approved, hrecipe, hinput, happly, Except.ok.inj h]
    · exact nomatch h
  · exact nomatch h

theorem apply_approved_of_error {text : String}
    (h : application_outcome media_type candidate working patch = .error text) :
    candidate.apply_approved media_type working patch =
      ([patch_finding .PatchUnappliable patch.uid (.Failure text)], working) := by
  unfold application_outcome at h
  split at h
  · next recipe_digest input_digest hrecipe hinput =>
    split at h
    · exact nomatch h
    · next source happly =>
      simp only [CandidatePatchPlane.apply_approved, hrecipe, hinput, happly, Except.error.inj h]
  · next hnone =>
    unfold CandidatePatchPlane.apply_approved
    split
    · next recipe_digest input_digest hrecipe hinput =>
      exact absurd hinput (hnone recipe_digest input_digest hrecipe)
    · rw [Except.error.inj h]

theorem digest_of_application {graph : SourceGraph}
    (h : application_outcome media_type candidate working patch = .ok graph) :
    source_graph_digest working = patch.pre_patch_graph_digest := by
  unfold application_outcome at h
  split at h
  · split at h
    · next application happly =>
      obtain ⟨-, -, -, hpre, -⟩ := apply_patch_ok_iff.mp happly
      exact hpre.symm
    · exact nomatch h
  · exact nomatch h

theorem error_ne_recompute {text : String}
    (h : application_outcome media_type candidate working patch = .error text) :
    text ≠ RECOMPUTE_MESSAGE := by
  have hmessage : RECOMPUTE_MESSAGE = "candidate " ++
      ("patch record's reviewed-content digest does not recompute from its bindings and " ++
        "operations") := by decide +kernel
  have hother : UNVERIFIABLE_MESSAGE ≠ RECOMPUTE_MESSAGE := by decide +kernel
  unfold application_outcome at h
  split at h
  · split at h
    · exact nomatch h
    · next source happly =>
      rw [← Except.error.inj h, hmessage]
      exact source.to_string_ne _
  · rw [← Except.error.inj h]
    exact hother

/-! ## One uid -/

variable {evaluations : EvaluationPlane} {committed_patch : SourcePatchRecord} {uid : String}

omit [StrDebug] in
structure ReachesApplication (evaluations : EvaluationPlane) (candidate : CandidatePatchPlane)
    (uid : String) (committed_patch patch : SourcePatchRecord) : Prop where
  recomputes : patch.Recomputes
  unchanged : patch.reviewed_content_digest = committed_patch.reviewed_content_digest
  evaluated : evaluations.get uid ≠ none
  approved : (candidate.evaluations.get uid).map (fun entry => entry.2.state) = some .Approved

theorem compare_both_of_reaches
    (h : ReachesApplication evaluations candidate uid committed_patch patch) :
    ∃ state, evaluations.get uid = some state ∧ ∀ media_type working,
      compare_both media_type evaluations candidate uid committed_patch patch working =
        (review_findings uid state.2.state .Approved ++
            (candidate.apply_approved media_type working patch).1,
          (candidate.apply_approved media_type working patch).2) := by
  have hrecomputes : patch.reviewed_content_digest = reviewed_content_digest patch := h.recomputes
  obtain ⟨committed_eval, hcommitted⟩ := Option.ne_none_iff_exists'.mp h.evaluated
  obtain ⟨candidate_eval, hcandidate, hstate⟩ := Option.map_eq_some_iff.mp h.approved
  refine ⟨committed_eval, hcommitted, fun media_type working => ?_⟩
  unfold compare_both
  rw [if_neg (not_not.mpr hrecomputes), if_neg (not_not.mpr h.unchanged), hcommitted, hcandidate]
  simp only [hstate, if_true]

theorem compare_both_of_not_reaches
    (h : ¬ ReachesApplication evaluations candidate uid committed_patch patch) :
    ∃ findings, ∀ other : SourcePatchRecord, (other.Recomputes ↔ patch.Recomputes) →
      other.reviewed_content_digest = patch.reviewed_content_digest → ∀ media_type working,
      compare_both media_type evaluations candidate uid committed_patch other working =
        (findings, working) := by
  unfold compare_both
  by_cases hrecomputes : patch.Recomputes
  · by_cases hunchanged :
        patch.reviewed_content_digest = committed_patch.reviewed_content_digest
    · have hothers : ∀ other : SourcePatchRecord, (other.Recomputes ↔ patch.Recomputes) →
          other.reviewed_content_digest = patch.reviewed_content_digest →
          other.reviewed_content_digest = reviewed_content_digest other ∧
            other.reviewed_content_digest = committed_patch.reviewed_content_digest :=
        fun other hsame hstored => ⟨hsame.mpr hrecomputes, hstored.trans hunchanged⟩
      cases hcommitted : evaluations.get uid with
      | none =>
        refine ⟨[], fun other hsame hstored media_type working => ?_⟩
        obtain ⟨hother, hother'⟩ := hothers other hsame hstored
        rw [if_neg (not_not.mpr hother), if_neg (not_not.mpr hother')]
      | some committed_eval =>
        cases hcandidate : candidate.evaluations.get uid with
        | none =>
          refine ⟨[], fun other hsame hstored media_type working => ?_⟩
          obtain ⟨hother, hother'⟩ := hothers other hsame hstored
          rw [if_neg (not_not.mpr hother), if_neg (not_not.mpr hother')]
        | some candidate_eval =>
          have hstate : candidate_eval.2.state ≠ .Approved := by
            intro hstate
            refine h ⟨hrecomputes, hunchanged, ?_, ?_⟩
            · rw [hcommitted]
              exact Option.some_ne_none _
            · rw [hcandidate, Option.map_some, hstate]
          refine ⟨review_findings uid committed_eval.2.state candidate_eval.2.state,
            fun other hsame hstored media_type working => ?_⟩
          obtain ⟨hother, hother'⟩ := hothers other hsame hstored
          rw [if_neg (not_not.mpr hother), if_neg (not_not.mpr hother')]
          simp only [hstate, if_false]
    · refine ⟨[patch_finding .PatchChanged uid
        (.PatchDigest committed_patch.reviewed_content_digest.as_str
          patch.reviewed_content_digest.as_str)],
        fun other hsame hstored media_type working => ?_⟩
      have hother : other.reviewed_content_digest = reviewed_content_digest other :=
        hsame.mpr hrecomputes
      rw [if_neg (not_not.mpr hother), hstored, if_pos hunchanged]
  · refine ⟨[patch_finding .PatchUnappliable uid (.Failure RECOMPUTE_MESSAGE)],
      fun other hsame hstored media_type working => ?_⟩
    have hother : other.reviewed_content_digest ≠ reviewed_content_digest other :=
      mt hsame.mp hrecomputes
    rw [if_pos hother]

omit [Sha256] [F64Display] [StrDebug] in
theorem review_findings_categories {committed candidate : PatchLifecycle} :
    ∀ finding ∈ review_findings uid committed candidate,
      finding.patch_uid = some uid ∧ finding.category ≠ .PatchUnappliable ∧
        finding.category ≠ .EffectiveGraphChanged := by
  intro finding hfinding
  simp only [review_findings, List.mem_append, List.mem_ite_nil_right, List.mem_singleton] at hfinding
  rcases hfinding with (⟨-, rfl⟩ | ⟨-, rfl⟩) | ⟨-, rfl⟩ <;> simp [patch_finding]

theorem compare_both_source (huid : patch.uid = uid) (working : SourceGraph) :
    ∀ finding ∈
      (compare_both media_type evaluations candidate uid committed_patch patch working).1,
      finding.patch_uid = some uid ∧ finding.category ≠ .EffectiveGraphChanged := by
  have happlied : ∀ finding ∈ (candidate.apply_approved media_type working patch).1,
      finding.patch_uid = some uid ∧ finding.category ≠ .EffectiveGraphChanged := by
    intro finding hfinding
    cases houtcome : application_outcome media_type candidate working patch with
    | ok graph =>
      rw [apply_approved_of_ok houtcome] at hfinding
      exact nomatch hfinding
    | error text =>
      rw [apply_approved_of_error houtcome, huid] at hfinding
      rw [List.mem_singleton.mp hfinding]
      exact ⟨rfl, nofun⟩
  intro finding hfinding
  unfold compare_both at hfinding
  split at hfinding
  · rw [List.mem_singleton.mp hfinding]
    exact ⟨rfl, nofun⟩
  · split at hfinding
    · rw [List.mem_singleton.mp hfinding]
      exact ⟨rfl, nofun⟩
    · split at hfinding
      · dsimp only at hfinding
        split at hfinding
        · rcases List.mem_append.mp hfinding with hreview | hleft
          · exact ⟨(review_findings_categories finding hreview).1,
              (review_findings_categories finding hreview).2.2⟩
          · exact happlied finding hleft
        · exact ⟨(review_findings_categories finding hfinding).1,
            (review_findings_categories finding hfinding).2.2⟩
      · exact nomatch hfinding

/-- **Records that are compared alike are compared the same.** -/
theorem compare_both_congr {p q : SourcePatchRecord}
    (hdigest : p.reviewed_content_digest = q.reviewed_content_digest) (huid : p.uid = q.uid)
    (hcommitted : committed_patch.uid = uid)
    (h : ComparedAlike media_type candidate working committed_patch p q) :
    compare_both media_type evaluations candidate uid committed_patch p working =
      compare_both media_type evaluations candidate uid committed_patch q working := by
  by_cases hreaches : ReachesApplication evaluations candidate uid committed_patch p
  · have hreaches' : ReachesApplication evaluations candidate uid committed_patch q :=
      ⟨h.recomputes.mp hreaches.recomputes, hdigest ▸ hreaches.unchanged, hreaches.evaluated,
        hreaches.approved⟩
    have houtcome := h.applies hreaches.recomputes hreaches.unchanged
      (hcommitted ▸ hreaches.approved)
    have happlied : candidate.apply_approved media_type working p =
        candidate.apply_approved media_type working q := by
      cases hq : application_outcome media_type candidate working q with
      | ok graph => rw [apply_approved_of_ok (houtcome.trans hq), apply_approved_of_ok hq]
      | error text =>
        rw [apply_approved_of_error (houtcome.trans hq), apply_approved_of_error hq, huid]
    obtain ⟨state, hstate, hp⟩ := compare_both_of_reaches hreaches
    obtain ⟨state', hstate', hq⟩ := compare_both_of_reaches hreaches'
    rw [hstate, Option.some.injEq] at hstate'
    rw [hp, hq, happlied, hstate']
  · obtain ⟨findings, hfindings⟩ := compare_both_of_not_reaches hreaches
    rw [hfindings p Iff.rfl rfl, hfindings q h.recomputes.symm hdigest.symm]

theorem recompute_finding_mem_iff :
    patch_finding .PatchUnappliable uid (.Failure RECOMPUTE_MESSAGE) ∈
        (compare_both media_type evaluations candidate uid committed_patch patch working).1 ↔
      ¬ patch.Recomputes := by
  constructor
  · intro hmem hrecomputes
    by_cases hreaches : ReachesApplication evaluations candidate uid committed_patch patch
    · obtain ⟨state, -, hboth⟩ := compare_both_of_reaches hreaches
      rw [hboth] at hmem
      rcases List.mem_append.mp hmem with hreview | happlied
      · exact (review_findings_categories _ hreview).2.1 rfl
      · cases houtcome : application_outcome media_type candidate working patch with
        | ok graph =>
          rw [apply_approved_of_ok houtcome] at happlied
          exact nomatch happlied
        | error text =>
          rw [apply_approved_of_error houtcome, List.mem_singleton] at happlied
          injection happlied with _ _ _ _ hdetail
          injection hdetail with htext
          exact error_ne_recompute houtcome htext.symm
    · unfold compare_both at hmem
      have hstored : patch.reviewed_content_digest = reviewed_content_digest patch := hrecomputes
      rw [if_neg (not_not.mpr hstored)] at hmem
      split at hmem
      · injection List.mem_singleton.mp hmem with hcategory
        exact nomatch hcategory
      · next hunchanged =>
        split at hmem
        · next heval heval' =>
          dsimp only at hmem
          split at hmem
          · next hstate =>
            refine hreaches ⟨hrecomputes, not_not.mp hunchanged, ?_, ?_⟩
            · rw [heval]
              exact Option.some_ne_none _
            · rw [heval', Option.map_some, hstate]
          · exact (review_findings_categories _ hmem).2.1 rfl
        · exact nomatch hmem
  · intro hrecomputes
    have hstored : patch.reviewed_content_digest ≠ reviewed_content_digest patch := hrecomputes
    unfold compare_both
    rw [if_pos hstored]
    exact List.mem_singleton_self _

/-- **Records of equal findings and equal digests are compared alike.** Equal digests
are taken for equal graphs, where the two records leave them. -/
theorem ComparedAlike.of_perm {p q : SourcePatchRecord}
    (hdigest : p.reviewed_content_digest = q.reviewed_content_digest)
    (hcommitted : committed_patch.uid = uid) (hevaluated : evaluations.get uid ≠ none)
    (hgraphs : ∀ graph graph',
      application_outcome media_type candidate working p = .ok graph →
      application_outcome media_type candidate working q = .ok graph' →
      source_graph_digest graph = source_graph_digest graph' → graph = graph')
    (hperm : (compare_both media_type evaluations candidate uid committed_patch p working).1.Perm
      (compare_both media_type evaluations candidate uid committed_patch q working).1)
    (hsame : source_graph_digest
        (compare_both media_type evaluations candidate uid committed_patch p working).2 =
      source_graph_digest
        (compare_both media_type evaluations candidate uid committed_patch q working).2) :
    ComparedAlike media_type candidate working committed_patch p q := by
  have hrecomputes : p.Recomputes ↔ q.Recomputes := by
    rw [← not_iff_not, ← recompute_finding_mem_iff, ← recompute_finding_mem_iff]
    exact hperm.mem_iff
  refine ⟨hrecomputes, fun hp hunchanged happroved => ?_⟩
  rw [hcommitted] at happroved
  obtain ⟨state, hstate, hboth⟩ := compare_both_of_reaches ⟨hp, hunchanged, hevaluated, happroved⟩
  obtain ⟨state', hstate', hboth'⟩ := compare_both_of_reaches
    ⟨hrecomputes.mp hp, hdigest.symm.trans hunchanged, hevaluated, happroved⟩
  rw [hstate, Option.some.injEq] at hstate'
  rw [hboth, hboth', ← hstate', List.perm_append_left_iff] at hperm
  rw [hboth, hboth'] at hsame
  cases hone : application_outcome media_type candidate working p with
  | ok graph =>
    rw [apply_approved_of_ok hone] at hperm hsame
    cases htwo : application_outcome media_type candidate working q with
    | ok graph' =>
      rw [apply_approved_of_ok htwo] at hsame
      rw [hgraphs graph graph' hone htwo hsame]
    | error text' =>
      rw [apply_approved_of_error htwo] at hperm
      exact nomatch hperm.length_eq
  | error text =>
    rw [apply_approved_of_error hone] at hperm
    cases htwo : application_outcome media_type candidate working q with
    | ok graph' =>
      rw [apply_approved_of_ok htwo] at hperm
      exact nomatch hperm.length_eq
    | error text' =>
      rw [apply_approved_of_error htwo, List.perm_singleton] at hperm
      injection List.singleton_inj.mp hperm with _ _ _ _ hdetail
      injection hdetail with htext
      rw [htext]

/-! ## The working graphs of two runs -/

/-- Two graphs that the digest tells apart. -/
def ToldApart (graph graph' : SourceGraph) : Prop :=
  source_graph_digest graph ≠ source_graph_digest graph'

/-- **Graphs told apart stay told apart** under one record whose findings are equal on
both: it cannot apply to both, and where it fails the graph is kept. -/
theorem compare_both_told_apart {working' : SourceGraph} (h : ToldApart working working')
    (hperm : (compare_both media_type evaluations candidate uid committed_patch patch working).1.Perm
      (compare_both media_type evaluations candidate uid committed_patch patch working').1) :
    ToldApart (compare_both media_type evaluations candidate uid committed_patch patch working).2
      (compare_both media_type evaluations candidate uid committed_patch patch working').2 := by
  by_cases hreaches : ReachesApplication evaluations candidate uid committed_patch patch
  · obtain ⟨state, -, hboth⟩ := compare_both_of_reaches hreaches
    rw [hboth, hboth] at hperm ⊢
    rw [List.perm_append_left_iff] at hperm
    cases hone : application_outcome media_type candidate working patch with
    | ok graph =>
      rw [apply_approved_of_ok hone] at hperm
      cases htwo : application_outcome media_type candidate working' patch with
      | ok graph' =>
        exact absurd ((digest_of_application hone).trans (digest_of_application htwo).symm) h
      | error text' =>
        rw [apply_approved_of_error htwo] at hperm
        exact nomatch hperm.length_eq
    | error text =>
      rw [apply_approved_of_error hone] at hperm ⊢
      cases htwo : application_outcome media_type candidate working' patch with
      | ok graph' =>
        rw [apply_approved_of_ok htwo] at hperm
        exact nomatch hperm.length_eq
      | error text' =>
        rw [apply_approved_of_error htwo]
        exact h
  · obtain ⟨findings, hfindings⟩ := compare_both_of_not_reaches hreaches
    rw [hfindings patch Iff.rfl rfl, hfindings patch Iff.rfl rfl]
    exact h

end Choice

end Evidence.Corpus
