/-
Whether the drift report depends on the order of the candidate's patches.

The patches are presented as a list, and two things read its order. The evaluation
check names the first record without an evaluation. And of a group of records of one
uid and one stored digest the first stands for the uid, although stored digests are
not verified before the choice: the others may fail to recompute, or apply
differently. `PresentationMatters` says when a reordering reaches either, and
`compare_reingestion_presentation` that the report depends on the order exactly then.

The argument about one uid compares two runs that differ in the record of that uid
alone. Their states agree until then, and after it the digests of their effective
graphs can only be told apart further: a patch that applies is bound to the digest of
the graph it applies to, so it applies in one of the runs at most, and a failure is a
finding.
-/
import Evidence.Corpus.Drift.Alike
import Evidence.Corpus.Drift.Compare

set_option autoImplicit false

namespace Evidence.Corpus

open Check Emission Sorting

def ReingestionCandidate.presenting (candidate : ReingestionCandidate)
    (patches : List SourcePatchRecord) : ReingestionCandidate :=
  { candidate with patches := patches }

/-! ## What a reordering keeps -/

section Reordered

variable {patches patches' : List SourcePatchRecord} (h : patches.Perm patches')

include h

theorem presented_perm (uid : String) : (presented patches uid).Perm (presented patches' uid) :=
  h.filter _

theorem uniform_group_perm {uid : String} : UniformGroup patches uid ↔ UniformGroup patches' uid := by
  simp only [UniformGroup, (presented_perm h uid).mem_iff]

theorem group_uids_perm : group_uids patches = group_uids patches' :=
  sortBy_congr (h.map SourcePatchRecord.uid).dedup fun _ _ _ _ => Std.LawfulEqCmp.compare_eq_iff_eq.mp

theorem group_finding_perm (uid : String) : group_finding patches uid = group_finding patches' uid := by
  have hdistinct : carries_distinct (candidate_group patches uid) =
      carries_distinct (candidate_group patches' uid) := by
    rw [Bool.eq_iff_iff, ← not_iff_not, Bool.not_eq_true, Bool.not_eq_true,
      carries_distinct_eq_false_iff, carries_distinct_eq_false_iff, uniform_group_perm h]
  have hlength : (candidate_group patches uid).length = (candidate_group patches' uid).length := by
    have hgroup : ∀ l : List SourcePatchRecord,
        (candidate_group l uid).length = (presented l uid).length := fun l => (sortBy_perm _).length_eq
    rw [hgroup, hgroup, (presented_perm h uid).length_eq]
  simp only [group_finding, hdistinct, hlength]

theorem group_record_isSome_perm (uid : String) :
    (group_record patches uid).isSome = (group_record patches' uid).isSome := by
  have hsome : ∀ l : List SourcePatchRecord, (group_record l uid).isSome = true ↔
      UniformGroup l uid ∧ presented l uid ≠ [] := by
    intro l
    constructor
    · intro hrecord
      obtain ⟨patch, hpatch⟩ := Option.isSome_iff_exists.mp hrecord
      obtain ⟨huniform, hmem⟩ := group_record_mem hpatch
      exact ⟨huniform, List.ne_nil_of_mem hmem⟩
    · rintro ⟨huniform, hne⟩
      rw [group_record_eq_head huniform, List.isSome_head?]
      simpa using hne
  rw [Bool.eq_iff_iff, hsome, hsome, uniform_group_perm h, ne_eq, ne_eq,
    ← List.length_eq_zero_iff, ← List.length_eq_zero_iff, (presented_perm h uid).length_eq]

/-- **A reordering compares the same uids.** -/
theorem plane_uids_perm (committed : Store SourcePatchRecord.uid) :
    plane_uids committed (group_candidate_uids patches).2 =
      plane_uids committed (group_candidate_uids patches').2 := by
  have hmem : ∀ (l : List SourcePatchRecord) (uid : String),
      uid ∈ (group_candidate_uids l).2.values.map SourcePatchRecord.uid ↔
        (group_record l uid).isSome = true := by
    intro l uid
    rw [← group_candidate_uids_get, Option.isSome_iff_exists, List.mem_map]
    constructor
    · rintro ⟨patch, hpatch, rfl⟩
      exact ⟨patch, Store.mem_values.mp hpatch⟩
    · rintro ⟨patch, hget⟩
      exact ⟨patch, Store.mem_values_of_get hget, Store.key_of_get hget⟩
  refine sortBy_congr ?_ fun _ _ _ _ => Std.LawfulEqCmp.compare_eq_iff_eq.mp
  rw [List.perm_ext_iff_of_nodup (List.nodup_dedup _) (List.nodup_dedup _)]
  intro uid
  rw [List.mem_dedup, List.mem_dedup, List.mem_append, List.mem_append, hmem, hmem,
    group_record_isSome_perm h]

end Reordered

/-! ## Runs over the uids -/

section Runs

variable [Sha256] [F64Display] [StrDebug]

omit [Sha256] [F64Display] [StrDebug] in
theorem group_candidate_uids_lookup (patches : List SourcePatchRecord) :
    (group_candidate_uids patches).2.get = group_record patches :=
  funext (group_candidate_uids_get patches)

variable (baseline : DriftBaseline) (candidate : ReingestionCandidate) (media_type : String)

/-- One uid of the patch planes, the patches presented as the given list. -/
def patch_step (patches : List SourcePatchRecord) :
    SourceGraph → String → List DriftFinding × SourceGraph :=
  compare_patch media_type baseline.committed_patches baseline.patch_evaluations
    (candidate.patch_plane baseline.source_revision_uid)
    (group_record (bound_patches baseline.source_revision_uid patches))

omit [Sha256] [F64Display] [StrDebug] in
/-- The uids of the patch planes, in order. -/
def reported_uids : List String :=
  plane_uids baseline.committed_patches
    (group_candidate_uids (candidate.bound baseline.source_revision_uid)).2

/-- The candidate effective graph before the patch planes reach a uid. -/
def working_before (uid : String) : SourceGraph :=
  (emit (compare_patch media_type baseline.committed_patches baseline.patch_evaluations
      (candidate.patch_plane baseline.source_revision_uid)
      (group_candidate_uids (candidate.bound baseline.source_revision_uid)).2.get)
    candidate.parser_graph
    ((reported_uids baseline candidate).takeWhile fun other => other ≠ uid)).2

omit [Sha256] [F64Display] [StrDebug] in
theorem reported_uids_nodup : (reported_uids baseline candidate).Nodup :=
  (sortBy_perm _).nodup_iff.mpr (List.nodup_dedup _)

theorem working_before_eq {done rest : List String} {uid : String}
    (hsplit : reported_uids baseline candidate = done ++ uid :: rest) :
    working_before baseline candidate media_type uid =
      (emit (patch_step baseline candidate media_type candidate.patches) candidate.parser_graph
        done).2 := by
  have hnodup := reported_uids_nodup baseline candidate
  rw [hsplit, List.nodup_append'] at hnodup
  have hfront : ∀ other ∈ done, decide (other ≠ uid) = true := by
    intro other hother
    refine decide_eq_true fun heq => ?_
    exact hnodup.2.2 hother (heq ▸ List.mem_cons_self)
  have htake : (done ++ uid :: rest).takeWhile (fun other => other ≠ uid) = done := by
    rw [List.takeWhile_append_of_pos hfront, List.takeWhile_cons_of_neg (by simp), List.append_nil]
  rw [working_before, hsplit, htake, group_candidate_uids_lookup]
  rfl

/-- **The patch planes of a reordering**: the findings about the groups stay, and the
loop takes the records that the new order puts first. -/
theorem compare_patch_planes_presenting {patches : List SourcePatchRecord}
    (hperm : patches.Perm candidate.patches) :
    compare_patch_planes baseline (candidate.presenting patches) media_type =
      { findings :=
          (group_candidate_uids (candidate.bound baseline.source_revision_uid)).1 ++
            (emit (patch_step baseline candidate media_type patches) candidate.parser_graph
              (reported_uids baseline candidate)).1
        effective :=
          (emit (patch_step baseline candidate media_type patches) candidate.parser_graph
            (reported_uids baseline candidate)).2 } := by
  have hbound : (bound_patches baseline.source_revision_uid patches).Perm
      (candidate.bound baseline.source_revision_uid) := hperm.filter _
  have hgroups : (group_candidate_uids (bound_patches baseline.source_revision_uid patches)).1 =
      (group_candidate_uids (candidate.bound baseline.source_revision_uid)).1 := by
    simp only [group_candidate_uids, group_uids_perm hbound]
    rw [funext (group_finding_perm hbound)]
  rw [compare_patch_planes, compare_patches]
  simp only [ReingestionCandidate.patch_plane, ReingestionCandidate.bound,
    ReingestionCandidate.presenting]
  rw [group_candidate_uids_lookup, plane_uids_perm hbound, hgroups]
  rfl

variable {baseline candidate media_type}

theorem patch_step_congr {patches patches' : List SourcePatchRecord} {uid : String}
    (h : group_record (bound_patches baseline.source_revision_uid patches) uid =
      group_record (bound_patches baseline.source_revision_uid patches') uid)
    (working : SourceGraph) :
    patch_step baseline candidate media_type patches working uid =
      patch_step baseline candidate media_type patches' working uid := by
  rw [patch_step, patch_step, compare_patch, compare_patch, h]

theorem patch_step_source {patches : List SourcePatchRecord} (working : SourceGraph)
    (uid : String) : ∀ finding ∈ (patch_step baseline candidate media_type patches working uid).1,
      finding.patch_uid = some uid ∧ finding.category ≠ .EffectiveGraphChanged := by
  intro finding hfinding
  unfold patch_step compare_patch at hfinding
  split at hfinding
  · rw [List.mem_singleton.mp hfinding]
    exact ⟨rfl, nofun⟩
  · rw [List.mem_singleton.mp hfinding]
    exact ⟨rfl, nofun⟩
  · next hrecord =>
    exact compare_both_source (mem_presented.mp (group_record_mem hrecord).2).2 working finding
      hfinding
  · exact nomatch hfinding

theorem patch_step_told_apart {patches : List SourcePatchRecord} {working working' : SourceGraph}
    {uid : String} (h : ToldApart working working')
    (hperm : (patch_step baseline candidate media_type patches working uid).1.Perm
      (patch_step baseline candidate media_type patches working' uid).1) :
    ToldApart (patch_step baseline candidate media_type patches working uid).2
      (patch_step baseline candidate media_type patches working' uid).2 := by
  unfold patch_step compare_patch at hperm ⊢
  split
  · exact h
  · exact h
  · next hcommitted hrecord =>
    rw [hcommitted, hrecord] at hperm
    exact compare_both_told_apart h hperm
  · exact h

end Runs

/-! ## When the order matters -/

section Matters

variable [Sha256] [F64Display] [StrDebug] (baseline : DriftBaseline)
  (candidate : ReingestionCandidate)

omit [Sha256] [F64Display] [StrDebug] in
/-- Every candidate patch of the revision carries an evaluation. -/
def ReingestionCandidate.Evaluated (revision_uid : String) : Prop :=
  ∀ patch ∈ candidate.bound revision_uid, candidate.patch_evaluations.get patch.uid ≠ none

/-- A reordering of the candidate's patches reaches the result: it changes which patch
is the first without an evaluation, or it puts another record of a uid first and the
two are not compared alike. -/
inductive PresentationMatters : Prop where
  | unevaluated {media_type : String} {p q : SourcePatchRecord}
      (hpre : check_prerequisites baseline candidate = .ok media_type)
      (hp : p ∈ candidate.bound baseline.source_revision_uid)
      (hq : q ∈ candidate.bound baseline.source_revision_uid) (hne : p.uid ≠ q.uid)
      (hmissing : candidate.patch_evaluations.get p.uid = none)
      (hmissing' : candidate.patch_evaluations.get q.uid = none)
  | records {media_type : String} {effective : EffectiveSourceGraph}
      {committed_patch p q : SourcePatchRecord}
      (hpre : check_prerequisites baseline candidate = .ok media_type)
      (hevaluated : candidate.Evaluated baseline.source_revision_uid)
      (heffective : effective_source_graph baseline.corpus baseline.source_revision_uid
        baseline.bindings media_type = .ok effective)
      (hcommitted : committed_patch ∈ baseline.committed_patches.values)
      (huniform : UniformGroup (candidate.bound baseline.source_revision_uid) committed_patch.uid)
      (hp : p ∈ presented (candidate.bound baseline.source_revision_uid) committed_patch.uid)
      (hq : q ∈ presented (candidate.bound baseline.source_revision_uid) committed_patch.uid)
      (hdiffer : ¬ ComparedAlike media_type (candidate.patch_plane baseline.source_revision_uid)
        (working_before baseline candidate media_type committed_patch.uid) committed_patch p q)

variable {baseline candidate}

/-- **Where the order does not matter, the loop runs the same.** -/
theorem emit_presenting {media_type : String} {patches : List SourcePatchRecord}
    (hperm : patches.Perm candidate.patches)
    (halike : ∀ committed_patch ∈ baseline.committed_patches.values,
      UniformGroup (candidate.bound baseline.source_revision_uid) committed_patch.uid →
      ∀ p ∈ presented (candidate.bound baseline.source_revision_uid) committed_patch.uid,
      ∀ q ∈ presented (candidate.bound baseline.source_revision_uid) committed_patch.uid,
      ComparedAlike media_type (candidate.patch_plane baseline.source_revision_uid)
        (working_before baseline candidate media_type committed_patch.uid) committed_patch p q) :
    emit (patch_step baseline candidate media_type candidate.patches) candidate.parser_graph
        (reported_uids baseline candidate) =
      emit (patch_step baseline candidate media_type patches) candidate.parser_graph
        (reported_uids baseline candidate) := by
  have hbound : (bound_patches baseline.source_revision_uid patches).Perm
      (candidate.bound baseline.source_revision_uid) := hperm.filter _
  refine emit_congr fun done uid rest hsplit => ?_
  rw [← working_before_eq baseline candidate media_type hsplit]
  have hsome := group_record_isSome_perm hbound uid
  rw [patch_step, patch_step, compare_patch, compare_patch]
  cases hrecord : group_record (bound_patches baseline.source_revision_uid candidate.patches) uid with
  | none =>
    rw [show candidate.bound baseline.source_revision_uid =
      bound_patches baseline.source_revision_uid candidate.patches from rfl, hrecord,
      Option.isSome_none, Option.isSome_eq_false_iff, Option.isNone_iff_eq_none] at hsome
    rw [hsome]
  | some p =>
    rw [show candidate.bound baseline.source_revision_uid =
      bound_patches baseline.source_revision_uid candidate.patches from rfl, hrecord,
      Option.isSome_some] at hsome
    obtain ⟨q, hrecord'⟩ := Option.isSome_iff_exists.mp hsome
    rw [hrecord']
    cases hcommitted : baseline.committed_patches.get uid with
    | none => rfl
    | some committed_patch =>
      have hkey : committed_patch.uid = uid := Store.key_of_get hcommitted
      obtain ⟨huniform, hp⟩ := group_record_mem hrecord
      obtain ⟨-, hq⟩ := group_record_mem hrecord'
      have hq' := (presented_perm hbound uid).mem_iff.mp hq
      have huids : p.uid = q.uid := (mem_presented.mp hp).2.trans (mem_presented.mp hq).2.symm
      have hboth := halike committed_patch (Store.mem_values_of_get hcommitted)
      rw [hkey] at hboth
      exact compare_both_congr (huniform p hp q hq') huids hkey (hboth huniform p hp q hq')

omit [Sha256] [F64Display] [StrDebug] in
/-- Moving an element to the front does not show to a filter that drops it. -/
private theorem filter_cons_erase {keep : SourcePatchRecord → Bool} {p : SourcePatchRecord}
    (hp : keep p = false) (l : List SourcePatchRecord) :
    (p :: l.erase p).filter keep = l.filter keep := by
  rw [List.filter_cons_of_neg (by rw [hp]; exact Bool.false_ne_true)]
  induction l with
  | nil => rfl
  | cons a l ih =>
    by_cases ha : a = p
    · rw [ha, List.erase_cons_head, List.filter_cons_of_neg (by rw [hp]; exact Bool.false_ne_true)]
    · rw [List.erase_cons_tail (by simpa using ha), List.filter_cons, List.filter_cons, ih]

omit [Sha256] [F64Display] [StrDebug] in
/-- **The record presented first stands for its uid**, and the other uids keep
theirs. -/
theorem group_record_first {revision_uid uid : String} {patches : List SourcePatchRecord}
    (huniform : UniformGroup (bound_patches revision_uid patches) uid) {p : SourcePatchRecord}
    (hp : p ∈ presented (bound_patches revision_uid patches) uid) :
    group_record (bound_patches revision_uid (p :: patches.erase p)) uid = some p ∧
      ∀ other, other ≠ uid →
        group_record (bound_patches revision_uid (p :: patches.erase p)) other =
          group_record (bound_patches revision_uid patches) other := by
  obtain ⟨hmem, huid⟩ := mem_presented.mp hp
  obtain ⟨hpatch, hrevision⟩ := mem_bound_patches.mp hmem
  have hfront : (p :: patches.erase p).Perm patches := (List.perm_cons_erase hpatch).symm
  have hbound : (bound_patches revision_uid (p :: patches.erase p)).Perm
      (bound_patches revision_uid patches) := hfront.filter _
  constructor
  · rw [group_record_eq_head ((uniform_group_perm hbound).mpr huniform), presented, bound_patches,
      List.filter_cons_of_pos (by simpa using hrevision),
      List.filter_cons_of_pos (by simpa using huid), List.head?_cons]
  · intro other hne
    have hdrop : (decide (p.uid = other) && p.source_revision_uid == revision_uid) = false := by
      rw [huid, decide_eq_false hne.symm, Bool.false_and]
    have hsame : presented (bound_patches revision_uid (p :: patches.erase p)) other =
        presented (bound_patches revision_uid patches) other := by
      rw [presented, presented, bound_patches, bound_patches, List.filter_filter,
        List.filter_filter]
      exact filter_cons_erase hdrop patches
    have hgroup : candidate_group (bound_patches revision_uid (p :: patches.erase p)) other =
        candidate_group (bound_patches revision_uid patches) other :=
      congrArg (sortBy _) hsame
    simp only [group_record, hgroup]

omit [StrDebug] in
/-- The effective plane's finding can be told from the others, and names the
candidate's digest. -/
private theorem split_effective {l l' : List DriftFinding} {committed graph graph' : SourceGraph}
    (hl : ∀ finding ∈ l, finding.category ≠ .EffectiveGraphChanged)
    (hl' : ∀ finding ∈ l', finding.category ≠ .EffectiveGraphChanged)
    (hperm : (l ++ compare_effective committed graph).Perm
      (l' ++ compare_effective committed graph')) :
    l.Perm l' ∧ source_graph_digest graph = source_graph_digest graph' := by
  have hplane : ∀ graph, ∀ finding ∈ compare_effective committed graph,
      finding.category = .EffectiveGraphChanged := by
    intro graph finding hfinding
    unfold compare_effective at hfinding
    split at hfinding
    · rw [List.mem_singleton.mp hfinding]
    · exact nomatch hfinding
  have hsplit : ∀ (l : List DriftFinding) (graph : SourceGraph),
      (∀ finding ∈ l, finding.category ≠ .EffectiveGraphChanged) →
      (l ++ compare_effective committed graph).filter
          (fun finding => finding.category = .EffectiveGraphChanged) =
        compare_effective committed graph ∧
      (l ++ compare_effective committed graph).filter
          (fun finding => finding.category ≠ .EffectiveGraphChanged) = l := by
    intro l graph hl
    rw [List.filter_append, List.filter_append]
    constructor
    · rw [List.filter_eq_nil_iff.mpr fun finding hmem => by simpa using hl finding hmem,
        List.filter_eq_self.mpr fun finding hmem => decide_eq_true (hplane graph finding hmem),
        List.nil_append]
    · rw [List.filter_eq_self.mpr fun finding hmem => decide_eq_true (hl finding hmem),
        List.filter_eq_nil_iff.mpr fun finding hmem => by simpa using hplane graph finding hmem,
        List.append_nil]
  have hothers := hperm.filter fun finding => finding.category ≠ .EffectiveGraphChanged
  have heffective := hperm.filter fun finding => finding.category = .EffectiveGraphChanged
  rw [(hsplit l graph hl).2, (hsplit l' graph' hl').2] at hothers
  rw [(hsplit l graph hl).1, (hsplit l' graph' hl').1] at heffective
  refine ⟨hothers, ?_⟩
  unfold compare_effective at heffective
  split at heffective
  · split at heffective
    · injection List.singleton_inj.mp (List.perm_singleton.mp heffective) with _ _ _ _ hdetail
      injection hdetail with _ hdigest
      exact StructuralContentDigest.ext_iff.mpr hdigest
    · exact nomatch heffective.length_eq
  · next hsame =>
    split at heffective
    · exact nomatch heffective.length_eq
    · next hsame' => exact (not_not.mp hsame).symm.trans (not_not.mp hsame')

theorem compare_reingestion_presenting {mint : ℕ → String} {media_type : String}
    {effective : EffectiveSourceGraph} {patches : List SourcePatchRecord}
    (hpre : check_prerequisites baseline candidate = .ok media_type)
    (hevaluated : candidate.Evaluated baseline.source_revision_uid)
    (heffective : effective_source_graph baseline.corpus baseline.source_revision_uid
      baseline.bindings media_type = .ok effective)
    (hperm : patches.Perm candidate.patches) :
    compare_reingestion mint baseline (candidate.presenting patches) =
      .ok
        { source_document := candidate.source_document
          source_revision_uid := baseline.source_revision_uid
          findings := sorted_findings
            (compare_identities baseline candidate ++
              compare_nodes mint (baseline.corpus.parser_graph baseline.source_revision_uid)
                candidate.parser_graph ++
              ((group_candidate_uids (candidate.bound baseline.source_revision_uid)).1 ++
                (emit (patch_step baseline candidate media_type patches) candidate.parser_graph
                  (reported_uids baseline candidate)).1) ++
              compare_effective effective.graph
                (emit (patch_step baseline candidate media_type patches) candidate.parser_graph
                  (reported_uids baseline candidate)).2) } := by
  have hpresented : ∀ patch ∈ (candidate.presenting patches).bound baseline.source_revision_uid,
      (candidate.presenting patches).patch_evaluations.get patch.uid ≠ none := by
    intro patch hpatch
    exact hevaluated patch ((hperm.filter _).mem_iff.mp hpatch)
  have hpre' : check_prerequisites baseline (candidate.presenting patches) = .ok media_type := hpre
  rw [compare_reingestion_eq_ok hpre' hpresented heffective, drift_findings]
  simp only [compare_patch_planes_presenting baseline candidate media_type hperm]
  rfl

/-- **Equal reports come from equal runs**: the loops over the uids emit the same
findings, and leave effective graphs of one digest. -/
theorem runs_of_same_report {mint : ℕ → String} {media_type : String}
    {effective : EffectiveSourceGraph} {patches patches' : List SourcePatchRecord}
    (hpre : check_prerequisites baseline candidate = .ok media_type)
    (hevaluated : candidate.Evaluated baseline.source_revision_uid)
    (heffective : effective_source_graph baseline.corpus baseline.source_revision_uid
      baseline.bindings media_type = .ok effective)
    (hperm : patches.Perm candidate.patches) (hperm' : patches'.Perm candidate.patches)
    (hsame : compare_reingestion mint baseline (candidate.presenting patches) =
      compare_reingestion mint baseline (candidate.presenting patches')) :
    (emit (patch_step baseline candidate media_type patches) candidate.parser_graph
        (reported_uids baseline candidate)).1.Perm
      (emit (patch_step baseline candidate media_type patches') candidate.parser_graph
        (reported_uids baseline candidate)).1 ∧
    source_graph_digest (emit (patch_step baseline candidate media_type patches)
        candidate.parser_graph (reported_uids baseline candidate)).2 =
      source_graph_digest (emit (patch_step baseline candidate media_type patches')
        candidate.parser_graph (reported_uids baseline candidate)).2 := by
  have hsource : ∀ patches, ∀ finding ∈ (emit (patch_step baseline candidate media_type patches)
      candidate.parser_graph (reported_uids baseline candidate)).1,
      finding.category ≠ .EffectiveGraphChanged := by
    intro patches finding hfinding
    obtain ⟨working, uid, -, hstep⟩ := mem_emit hfinding
    exact (patch_step_source working uid finding hstep).2
  rw [compare_reingestion_presenting hpre hevaluated heffective hperm,
    compare_reingestion_presenting hpre hevaluated heffective hperm'] at hsame
  injection hsame with hreport
  injection hreport with _ _ hfindings
  have hall := perm_of_sorted_findings_eq hfindings
  rw [List.append_assoc, List.append_assoc, List.append_assoc, List.append_assoc,
    List.append_assoc, List.append_assoc, List.perm_append_left_iff, List.perm_append_left_iff,
    List.perm_append_left_iff] at hall
  exact split_effective (hsource patches) (hsource patches') hall

/-- **Two records that give equal reports when either is presented first are compared
alike.** The runs agree until the uid, their findings about it are equal, and so are
the digests of the graphs they leave it with: told apart there, the graphs would be
told apart at the end. -/
theorem ComparedAlike.of_presentations {mint : ℕ → String} {media_type : String}
    {effective : EffectiveSourceGraph} {committed_patch p q : SourcePatchRecord}
    (hpre : check_prerequisites baseline candidate = .ok media_type)
    (hevaluated : candidate.Evaluated baseline.source_revision_uid)
    (heffective : effective_source_graph baseline.corpus baseline.source_revision_uid
      baseline.bindings media_type = .ok effective)
    (hcommitted : committed_patch ∈ baseline.committed_patches.values)
    (hcommitted' : baseline.patch_evaluations.get committed_patch.uid ≠ none)
    (huniform : UniformGroup (candidate.bound baseline.source_revision_uid) committed_patch.uid)
    (hp : p ∈ presented (candidate.bound baseline.source_revision_uid) committed_patch.uid)
    (hq : q ∈ presented (candidate.bound baseline.source_revision_uid) committed_patch.uid)
    (hgraphs : ∀ graph graph',
      application_outcome media_type (candidate.patch_plane baseline.source_revision_uid)
          (working_before baseline candidate media_type committed_patch.uid) p = .ok graph →
      application_outcome media_type (candidate.patch_plane baseline.source_revision_uid)
          (working_before baseline candidate media_type committed_patch.uid) q = .ok graph' →
      source_graph_digest graph = source_graph_digest graph' → graph = graph')
    (hsame : compare_reingestion mint baseline
        (candidate.presenting (p :: candidate.patches.erase p)) =
      compare_reingestion mint baseline
        (candidate.presenting (q :: candidate.patches.erase q))) :
    ComparedAlike media_type (candidate.patch_plane baseline.source_revision_uid)
      (working_before baseline candidate media_type committed_patch.uid) committed_patch p q := by
  have hfront : ∀ {r},
      r ∈ presented (candidate.bound baseline.source_revision_uid) committed_patch.uid →
      (r :: candidate.patches.erase r).Perm candidate.patches := fun hr =>
    (List.perm_cons_erase (mem_bound_patches.mp (mem_presented.mp hr).1).1).symm
  obtain ⟨hrecord, hothers⟩ := group_record_first huniform hp
  obtain ⟨hrecord', hothers'⟩ := group_record_first huniform hq
  obtain ⟨hemitted, hdigest⟩ := runs_of_same_report hpre hevaluated heffective (hfront hp)
    (hfront hq) hsame
  -- the committed uid is one of those reported on; the runs are cut there
  have hreported : committed_patch.uid ∈ reported_uids baseline candidate :=
    mem_sortBy.mpr (List.mem_dedup.mpr (List.mem_append_left _ (List.mem_map_of_mem hcommitted)))
  obtain ⟨done, rest, hsplit⟩ := List.append_of_mem hreported
  have hnodup := reported_uids_nodup baseline candidate
  rw [hsplit, List.nodup_append', List.nodup_cons] at hnodup
  obtain ⟨-, ⟨hlater, hrest⟩, hdisjoint⟩ := hnodup
  have hworking := working_before_eq baseline candidate media_type hsplit
  have hearlier : ∀ r, (∀ other, other ≠ committed_patch.uid →
      group_record (bound_patches baseline.source_revision_uid (r :: candidate.patches.erase r))
          other =
        group_record (bound_patches baseline.source_revision_uid candidate.patches) other) →
      emit (patch_step baseline candidate media_type candidate.patches) candidate.parser_graph done =
        emit (patch_step baseline candidate media_type (r :: candidate.patches.erase r))
          candidate.parser_graph done := by
    intro r hr
    refine emit_congr fun before other after hdone => patch_step_congr (hr other ?_).symm _
    rintro rfl
    exact hdisjoint (hdone ▸ List.mem_append_right _ List.mem_cons_self) List.mem_cons_self
  have hrest' : ∀ working,
      emit (patch_step baseline candidate media_type (q :: candidate.patches.erase q)) working rest =
        emit (patch_step baseline candidate media_type (p :: candidate.patches.erase p)) working
          rest := by
    intro working
    refine emit_congr fun before other after hafter => ?_
    have hne : other ≠ committed_patch.uid := by
      rintro rfl
      exact hlater (hafter ▸ List.mem_append_right _ List.mem_cons_self)
    exact patch_step_congr ((hothers' other hne).trans (hothers other hne).symm) _
  rw [hsplit, emit_append, emit_append, ← hearlier p hothers, ← hearlier q hothers'] at hemitted hdigest
  rw [← hworking] at hemitted hdigest
  simp only [emit_cons, List.perm_append_left_iff] at hemitted hdigest
  obtain ⟨hfirst, hafter⟩ := emit_cons_perm
    (fun working uid finding hfinding => (patch_step_source working uid finding hfinding).1)
    (fun working uid finding hfinding => (patch_step_source working uid finding hfinding).1)
    hlater hemitted
  -- the graphs that the two records leave have one digest, or the runs would end apart
  rw [hrest'] at hafter hdigest
  have hleft : source_graph_digest (patch_step baseline candidate media_type
        (p :: candidate.patches.erase p)
        (working_before baseline candidate media_type committed_patch.uid) committed_patch.uid).2 =
      source_graph_digest (patch_step baseline candidate media_type
        (q :: candidate.patches.erase q)
        (working_before baseline candidate media_type committed_patch.uid)
        committed_patch.uid).2 := by
    by_contra hapart
    exact emit_diverge
      (fun working uid finding hfinding => (patch_step_source working uid finding hfinding).1)
      (fun working working' uid => patch_step_told_apart) hrest hapart hafter hdigest
  have hcommitted_get : baseline.committed_patches.get committed_patch.uid =
      some committed_patch := Store.mem_values.mp hcommitted
  rw [patch_step, patch_step, compare_patch, compare_patch, hcommitted_get, hrecord,
    hrecord'] at hfirst hleft
  exact .of_perm (huniform p hp q hq) rfl hcommitted' hgraphs hfirst hleft

omit [Sha256] [F64Display] [StrDebug] in
theorem check_evaluated_error {plane : String} {evaluations : EvaluationPlane}
    {uids : List String} {uid : String} (huid : uid ∈ uids) (hmissing : evaluations.get uid = none)
    (honly : ∀ other ∈ uids, evaluations.get other = none → other = uid) :
    uids.forM (check_evaluated plane evaluations) = .error (.MissingPatchEvaluation plane uid) := by
  cases hloop : uids.forM (check_evaluated plane evaluations) with
  | ok _ => exact absurd hmissing (check_evaluated_ok_iff.mp hloop uid huid)
  | error error =>
    obtain ⟨other, hother, hcheck⟩ := forM_error hloop
    have hnone : evaluations.get other = none := by
      by_contra hsome
      have hok : check_evaluated plane evaluations other = .ok () :=
        failIf_ok_iff.mpr (by simpa using hsome)
      rw [hok] at hcheck
      exact nomatch hcheck
    rw [← failIf_error hcheck, honly other hother hnone]

omit [Sha256] [F64Display] [StrDebug] in
private theorem mem_presenting_uids {patches : List SourcePatchRecord}
    (hperm : patches.Perm candidate.patches) {uid : String} :
    uid ∈ ((candidate.presenting patches).bound baseline.source_revision_uid).map
        SourcePatchRecord.uid ↔
      uid ∈ (candidate.bound baseline.source_revision_uid).map SourcePatchRecord.uid :=
  ((hperm.filter _).map SourcePatchRecord.uid).mem_iff

theorem compare_reingestion_first_missing {mint : ℕ → String} {media_type : String}
    (hpre : check_prerequisites baseline candidate = .ok media_type) {p : SourcePatchRecord}
    (hp : p ∈ candidate.bound baseline.source_revision_uid)
    (hmissing : candidate.patch_evaluations.get p.uid = none) :
    compare_reingestion mint baseline (candidate.presenting (p :: candidate.patches.erase p)) =
      .error (.MissingPatchEvaluation "candidate" p.uid) := by
  have hrevision := (mem_bound_patches.mp hp).2
  have hfront : (candidate.presenting (p :: candidate.patches.erase p)).bound
      baseline.source_revision_uid =
      p :: bound_patches baseline.source_revision_uid (candidate.patches.erase p) := by
    rw [ReingestionCandidate.bound, ReingestionCandidate.presenting, bound_patches,
      List.filter_cons_of_pos (by simpa using hrevision)]
    rfl
  have hpre' : check_prerequisites baseline
      (candidate.presenting (p :: candidate.patches.erase p)) = .ok media_type := hpre
  refine compare_reingestion_of_missing hpre' ?_
  have hcheck : check_evaluated "candidate" candidate.patch_evaluations p.uid =
      .error (.MissingPatchEvaluation "candidate" p.uid) := by
    rw [check_evaluated, failIf, if_pos (by rw [hmissing, Option.isNone_none])]
  rw [hfront, List.map_cons, List.forM]
  show (check_evaluated "candidate" candidate.patch_evaluations p.uid >>= _) = _
  rw [hcheck]
  rfl

/-- **The report and the order of the candidate's patches.** Every reordering of the
patches gives the same result exactly when the presentation does not matter. Equal
digests are taken for equal graphs, where two records of one uid leave them. -/
theorem compare_reingestion_presentation {mint : ℕ → String}
    (hgraphs : ∀ media_type committed_patch, committed_patch ∈ baseline.committed_patches.values →
      ∀ p ∈ presented (candidate.bound baseline.source_revision_uid) committed_patch.uid,
      ∀ q ∈ presented (candidate.bound baseline.source_revision_uid) committed_patch.uid,
      ∀ graph graph',
      application_outcome media_type (candidate.patch_plane baseline.source_revision_uid)
          (working_before baseline candidate media_type committed_patch.uid) p = .ok graph →
      application_outcome media_type (candidate.patch_plane baseline.source_revision_uid)
          (working_before baseline candidate media_type committed_patch.uid) q = .ok graph' →
      source_graph_digest graph = source_graph_digest graph' → graph = graph') :
    (∀ patches : List SourcePatchRecord, patches.Perm candidate.patches →
      compare_reingestion mint baseline (candidate.presenting patches) =
        compare_reingestion mint baseline candidate) ↔
      ¬ PresentationMatters baseline candidate := by
  constructor
  · intro hsame hmatters
    have hfront : ∀ r ∈ candidate.bound baseline.source_revision_uid,
        compare_reingestion mint baseline (candidate.presenting (r :: candidate.patches.erase r)) =
          compare_reingestion mint baseline candidate := by
      intro r hr
      exact hsame _ (List.perm_cons_erase (mem_bound_patches.mp hr).1).symm
    cases hmatters with
    | @unevaluated media_type p q hpre hp hq hne hmissing hmissing' =>
      have heq := (hfront p hp).trans (hfront q hq).symm
      rw [compare_reingestion_first_missing hpre hp hmissing,
        compare_reingestion_first_missing hpre hq hmissing'] at heq
      injection heq with herror
      injection herror with _ huid
      exact hne huid
    | @records media_type effective committed_patch p q hpre hevaluated heffective hcommitted
        huniform hp hq hdiffer =>
      obtain ⟨-, -, -, -, hcommitted'⟩ := check_prerequisites_ok_iff.mp hpre
      exact hdiffer (.of_presentations hpre hevaluated heffective hcommitted
        (hcommitted' committed_patch hcommitted) huniform hp hq
        (hgraphs media_type committed_patch hcommitted p hp q hq)
        ((hfront p (mem_presented.mp hp).1).trans (hfront q (mem_presented.mp hq).1).symm))
  · intro hfree patches hperm
    cases hpre : check_prerequisites baseline candidate with
    | error error =>
      have hpre' : check_prerequisites baseline (candidate.presenting patches) = .error error := hpre
      rw [compare_reingestion_of_unmet hpre, compare_reingestion_of_unmet hpre']
    | ok media_type =>
      have hpre' : check_prerequisites baseline (candidate.presenting patches) = .ok media_type :=
        hpre
      by_cases hevaluated : candidate.Evaluated baseline.source_revision_uid
      · cases heffective : effective_source_graph baseline.corpus baseline.source_revision_uid
            baseline.bindings media_type with
        | error error =>
          have hloop : ((candidate.bound baseline.source_revision_uid).map
              SourcePatchRecord.uid).forM
              (check_evaluated "candidate" candidate.patch_evaluations) = .ok () :=
            check_evaluated_ok_iff.mpr (List.forall_mem_map.mpr hevaluated)
          have hloop' : (((candidate.presenting patches).bound baseline.source_revision_uid).map
              SourcePatchRecord.uid).forM
              (check_evaluated "candidate" candidate.patch_evaluations) = .ok () :=
            check_evaluated_ok_iff.mpr fun uid huid =>
              check_evaluated_ok_iff.mp hloop uid ((mem_presenting_uids hperm).mp huid)
          rw [compare_reingestion_of_unproducible hpre hloop heffective,
            compare_reingestion_of_unproducible hpre' hloop' heffective]
        | ok effective =>
          have hown : compare_reingestion mint baseline candidate =
              compare_reingestion mint baseline (candidate.presenting candidate.patches) := rfl
          rw [hown, compare_reingestion_presenting hpre hevaluated heffective hperm,
            compare_reingestion_presenting hpre hevaluated heffective (List.Perm.refl _)]
          rw [emit_presenting hperm fun committed_patch hcommitted huniform p hp q hq => ?_]
          by_contra hdiffer
          exact hfree (.records hpre hevaluated heffective hcommitted huniform hp hq hdiffer)
      · -- the patches without an evaluation share a uid, which every order reports
        rw [ReingestionCandidate.Evaluated] at hevaluated
        push Not at hevaluated
        obtain ⟨p, hp, hmissing⟩ := hevaluated
        have huid := List.mem_map_of_mem (f := SourcePatchRecord.uid) hp
        have honly : ∀ other ∈ (candidate.bound baseline.source_revision_uid).map
            SourcePatchRecord.uid, candidate.patch_evaluations.get other = none → other = p.uid := by
          intro other hother hnone
          obtain ⟨q, hq, rfl⟩ := List.mem_map.mp hother
          by_contra hne
          exact hfree (.unevaluated hpre hq hp hne hnone hmissing)
        rw [compare_reingestion_of_missing hpre (check_evaluated_error huid hmissing honly),
          compare_reingestion_of_missing hpre'
            (check_evaluated_error ((mem_presenting_uids hperm).mpr huid) hmissing
              fun other hother => honly other ((mem_presenting_uids hperm).mp hother))]

end Matters

/-! ## A tampered duplicate -/

section Witness

attribute [local instance] fips180 F64.exact_display plain_debug

/-- A committed insertion that nobody has reviewed. -/
def committed_insertion : SourcePatchRecord :=
  insertion "patch_00000000-0000-4000-8000-000000000001" "PATCH-1"

/-- The record with its operations taken out, under the stored digest of the
original. -/
def tampered_insertion : SourcePatchRecord := { committed_insertion with operations := [] }

/-- The corpus of the empty revision and the insertion. -/
def unreviewed_corpus : CorpusGraph :=
  { empty_corpus with source_patches := Store.empty.put committed_insertion }

/-- Both planes evaluate the insertion as a candidate. -/
def unreviewed_evaluations : EvaluationPlane :=
  Store.empty.put (committed_insertion.uid,
    patch_evaluation unreviewed_corpus committed_insertion)

/-- The committed side. -/
def unreviewed_baseline : DriftBaseline where
  corpus := unreviewed_corpus
  source_revision_uid := empty_revision.uid
  recipe_digest := .of_bytes []
  input_digest := .of_bytes []
  extractor_output_digest := none
  patch_evaluations := unreviewed_evaluations

/-- A re-ingestion that presents the given patches and no identities. -/
def unidentified_candidate (patches : List SourcePatchRecord) : ReingestionCandidate where
  source_document := "https://example.org/a"
  recipe := none
  verified_input_digest := none
  extractor_output_digest := none
  parser_graph := Store.empty
  patches := patches
  patch_evaluations := unreviewed_evaluations

private theorem unreviewed_corpus_valid : unreviewed_corpus.validate = .ok () := by
  refine CorpusGraph.validate_ok_iff.mpr ⟨by decide +kernel, by decide +kernel, by decide +kernel,
    by decide +kernel, by decide +kernel, forM_ok_iff.mpr ?_⟩
  intro patch hpatch
  rw [Store.mem_values_singleton.mp hpatch]
  refine validate_source_patch_ok_iff.mpr
    ⟨⟨empty_revision, List.mem_singleton_self _, rfl⟩, rfl, ?_⟩
  intro operation hop target htarget
  rw [List.mem_singleton.mp hop] at htarget
  exact nomatch htarget

private theorem unreviewed_prerequisites (patches : List SourcePatchRecord) :
    check_prerequisites unreviewed_baseline (unidentified_candidate patches) =
      .ok "text/html" := by
  refine check_prerequisites_ok_iff.mpr ⟨unreviewed_corpus_valid,
    ⟨empty_revision, List.mem_singleton_self _, rfl, rfl⟩,
    fun node hnode => absurd hnode (Store.not_mem_values_empty node), Forest.empty, ?_⟩
  intro patch hpatch
  have hcommitted := (DriftBaseline.mem_committed_patches.mp hpatch).1
  rw [Store.mem_values_singleton.mp hcommitted]
  decide +kernel

private theorem unidentified_outcome (patches : List SourcePatchRecord) (media_type : String)
    (working : SourceGraph) (patch : SourcePatchRecord) :
    application_outcome media_type
        ((unidentified_candidate patches).patch_plane unreviewed_baseline.source_revision_uid)
        working patch = .error UNVERIFIABLE_MESSAGE :=
  rfl

/-- For the insertion and its duplicate the report depends on the order exactly when
the two are told apart. -/
theorem compare_reingestion_presentation_tampered :
    (∀ patches : List SourcePatchRecord, patches.Perm [committed_insertion, tampered_insertion] →
      compare_reingestion (fun _ => "") unreviewed_baseline (unidentified_candidate patches) =
        compare_reingestion (fun _ => "") unreviewed_baseline
          (unidentified_candidate [committed_insertion, tampered_insertion])) ↔
      ¬ PresentationMatters unreviewed_baseline
        (unidentified_candidate [committed_insertion, tampered_insertion]) :=
  compare_reingestion_presentation fun media_type _ _ p _ _ _ _ _ hone _ _ =>
    nomatch (unidentified_outcome _ media_type _ p).symm.trans hone

/-- **The order of one patch and its tampered duplicate reaches the report.** Under an
equal stored digest the first of them stands for the uid; the original recomputes and
the duplicate does not. -/
theorem compare_reingestion_reads_order :
    ¬ ∀ (mint : ℕ → String) (baseline : DriftBaseline) (candidate : ReingestionCandidate)
      (patches : List SourcePatchRecord), patches.Perm candidate.patches →
      compare_reingestion mint baseline (candidate.presenting patches) =
        compare_reingestion mint baseline candidate := by
  intro hclaim
  let candidate := unidentified_candidate [committed_insertion, tampered_insertion]
  have hpatches : candidate.bound unreviewed_baseline.source_revision_uid =
      [committed_insertion, tampered_insertion] := by
    refine List.filter_eq_self.mpr fun patch hpatch => beq_iff_eq.mpr ?_
    rcases List.mem_pair.mp hpatch with rfl | rfl <;> rfl
  have hrevision : empty_revision ∈ unreviewed_corpus.source_revisions := List.mem_singleton_self _
  have hnone : approved_patches unreviewed_corpus empty_revision.uid = [] := by decide +kernel
  have heffective : effective_source_graph unreviewed_corpus empty_revision.uid
      unreviewed_baseline.bindings "text/html" = .ok _ :=
    (effective_source_graph_ok_iff unreviewed_corpus_valid hrevision).mpr
      ⟨_, by rw [hnone]; exact .nil _, rfl⟩
  have hgroup : presented (candidate.bound unreviewed_baseline.source_revision_uid)
      committed_insertion.uid = [committed_insertion, tampered_insertion] := by
    rw [hpatches]
    refine List.filter_eq_self.mpr fun patch hpatch => decide_eq_true ?_
    rcases List.mem_pair.mp hpatch with rfl | rfl <;> rfl
  have hevaluated : candidate.Evaluated unreviewed_baseline.source_revision_uid := by
    intro patch hpatch
    rw [hpatches] at hpatch
    rcases List.mem_pair.mp hpatch with rfl | rfl <;> decide +kernel
  have huniform : UniformGroup (candidate.bound unreviewed_baseline.source_revision_uid)
      committed_insertion.uid := by
    intro p hp q hq
    rw [hgroup] at hp hq
    rcases List.mem_pair.mp hp with rfl | rfl <;> rcases List.mem_pair.mp hq with rfl | rfl <;> rfl
  have halike := ComparedAlike.of_presentations
    (unreviewed_prerequisites _) hevaluated heffective
    (DriftBaseline.mem_committed_patches.mpr ⟨Store.mem_values_singleton.mpr rfl, rfl⟩)
    (by decide +kernel) huniform
    (by rw [hgroup]; exact List.mem_cons_self)
    (by rw [hgroup]; exact List.mem_cons_of_mem _ List.mem_cons_self)
    (fun graph graph' hone _ _ => nomatch (unidentified_outcome _ _ _ _).symm.trans hone)
    ((hclaim (fun _ => "") unreviewed_baseline candidate _
        (List.perm_cons_erase List.mem_cons_self).symm).trans
      (hclaim _ unreviewed_baseline candidate _ (List.perm_cons_erase
        (List.mem_cons_of_mem _ List.mem_cons_self)).symm).symm)
  have hrecomputes : committed_insertion.Recomputes := patch_record_recomputes _ _ _ _ _
  have htampered : ¬ tampered_insertion.Recomputes := by decide +kernel
  exact htampered (halike.recomputes.mp hrecomputes)

end Witness

end Evidence.Corpus
