/-
`corpus/drift/patches.rs` -- the patch, review, and candidate-effective planes of the
drift comparison.

The two patch planes are compared by patch uid, in uid order, and the loop threads
the candidate effective graph: a candidate-approved patch present in both planes is
applied to it, and a failure is a finding and leaves it as it is. A patch record that
is malformed is one finding and never hides another.

The candidate presents its patches as a list. `group_candidate_uids` groups them by
uid; a uid with two stored digests is excluded, and of any other group the first
record stands for the uid.
-/
import Evidence.Lib.Emission
import Evidence.Corpus.Lifecycle
import Evidence.Corpus.SourcePatch.Apply
import Evidence.Corpus.SourcePatch.Message
import Evidence.Corpus.Drift.Findings

set_option autoImplicit false

namespace Evidence.Corpus

open Emission Sorting

/-! ## Planes -/

/-- One plane's patch lifecycle evaluations, by patch uid. -/
abbrev EvaluationPlane := Store (Prod.fst : String × PatchLifecycleEvaluation → String)

structure PatchPlaneOutcome where
  findings : List DriftFinding
  effective : SourceGraph

structure CandidatePatchPlane where
  graph : SourceGraph
  patches : List SourcePatchRecord
  evaluations : EvaluationPlane
  recipe_digest : Option StructuralContentDigest
  input_digest : Option StructuralContentDigest

def patch_finding (category : DriftCategory) (patch_uid : String) (detail : DriftDetail) :
    DriftFinding where
  category := category
  structural_path := none
  node_uid := none
  patch_uid := some patch_uid
  detail := detail

def state_name : PatchLifecycle → String
  | .Candidate => "candidate"
  | .Approved => "approved"
  | .Rejected => "rejected"
  | .Stale => "stale"

/-! ## Grouping -/

/-- The candidate records of one uid, in the order they are presented, sorted by their
stored digest. -/
def candidate_group (candidate : List SourcePatchRecord) (uid : String) :
    List SourcePatchRecord :=
  sortBy (compareOn fun patch => patch.reviewed_content_digest.as_str)
    (candidate.filter fun patch => patch.uid = uid)

/-- Two neighbours of a group have different stored digests. -/
def carries_distinct (group : List SourcePatchRecord) : Bool :=
  (group.zip group.tail).any fun pair =>
    pair.1.reviewed_content_digest ≠ pair.2.reviewed_content_digest

/-- The message about a uid that distinct records carry. -/
def distinct_message (count : ℕ) (uid : String) : String :=
  "candidate plane carries " ++ decimal count ++ " distinct patch records with uid " ++ uid

def group_finding (candidate : List SourcePatchRecord) (uid : String) : List DriftFinding :=
  let group := candidate_group candidate uid
  if carries_distinct group then
    [patch_finding .PatchUnappliable uid (.Failure (distinct_message group.length uid))]
  else []

/-- The record that stands for a uid, unless its group is excluded. -/
def group_record (candidate : List SourcePatchRecord) (uid : String) : Option SourcePatchRecord :=
  let group := candidate_group candidate uid
  if carries_distinct group then none else group.head?

def group_uids (candidate : List SourcePatchRecord) : List String :=
  sortBy compare (candidate.map SourcePatchRecord.uid).dedup

def group_candidate_uids (candidate : List SourcePatchRecord) :
    List DriftFinding × Store SourcePatchRecord.uid :=
  ((group_uids candidate).flatMap (group_finding candidate),
    Store.ofList ((group_uids candidate).filterMap (group_record candidate)))

/-! ## What grouping depends on -/

def presented (candidate : List SourcePatchRecord) (uid : String) : List SourcePatchRecord :=
  candidate.filter fun patch => patch.uid = uid

theorem mem_presented {candidate : List SourcePatchRecord} {uid : String}
    {patch : SourcePatchRecord} :
    patch ∈ presented candidate uid ↔ patch ∈ candidate ∧ patch.uid = uid := by
  rw [presented, List.mem_filter, decide_eq_true_iff]

/-- The stored digests of a group agree. -/
def UniformGroup (candidate : List SourcePatchRecord) (uid : String) : Prop :=
  ∀ p ∈ presented candidate uid, ∀ q ∈ presented candidate uid,
    p.reviewed_content_digest = q.reviewed_content_digest

/-- The order of a group does not decide between equal digests. -/
private theorem isLE_of_eq {p q : SourcePatchRecord}
    (h : p.reviewed_content_digest = q.reviewed_content_digest) :
    (compareOn (fun patch : SourcePatchRecord => patch.reviewed_content_digest.as_str)
      p q).isLE = true := by
  have hself : compareOn (fun patch : SourcePatchRecord => patch.reviewed_content_digest.as_str)
      p q = .eq := by
    rw [compareOn, h]
    exact Std.ReflCmp.compare_self
  rw [hself]
  rfl

/-- A list whose neighbours agree agrees throughout. -/
private theorem eq_of_not_distinct {group : List SourcePatchRecord}
    (h : carries_distinct group = false) : ∀ p ∈ group, ∀ q ∈ group,
      p.reviewed_content_digest = q.reviewed_content_digest := by
  have hall : ∀ (first : SourcePatchRecord) (rest : List SourcePatchRecord),
      carries_distinct (first :: rest) = false →
      ∀ p ∈ first :: rest, p.reviewed_content_digest = first.reviewed_content_digest := by
    intro first rest
    induction rest generalizing first with
    | nil =>
      intro _ p hp
      rw [List.mem_singleton.mp hp]
    | cons second rest ih =>
      intro hdistinct p hp
      simp only [carries_distinct, List.tail_cons, List.zip_cons_cons, List.any_cons,
        Bool.or_eq_false_iff, decide_eq_false_iff_not, ne_eq, not_not] at hdistinct
      rcases List.mem_cons.mp hp with rfl | hrest
      · rfl
      · exact (ih second hdistinct.2 p hrest).trans hdistinct.1.symm
  cases group with
  | nil => exact fun p hp => (nomatch hp)
  | cons first rest =>
    intro p hp q hq
    rw [hall first rest h p hp, hall first rest h q hq]

/-- **A uid is excluded exactly when two of its records differ in their stored
digest.** -/
theorem carries_distinct_eq_false_iff {candidate : List SourcePatchRecord} {uid : String} :
    carries_distinct (candidate_group candidate uid) = false ↔ UniformGroup candidate uid := by
  have hmem : ∀ patch, patch ∈ candidate_group candidate uid ↔ patch ∈ presented candidate uid :=
    fun patch => mem_sortBy
  constructor
  · intro h p hp q hq
    exact eq_of_not_distinct h p ((hmem p).mpr hp) q ((hmem q).mpr hq)
  · intro h
    refine Bool.eq_false_iff.mpr fun hany => ?_
    obtain ⟨pair, hpair, hne⟩ := List.any_eq_true.mp hany
    obtain ⟨hfirst, hsecond⟩ := List.of_mem_zip hpair
    exact of_decide_eq_true hne (h pair.1 ((hmem _).mp hfirst) pair.2
      ((hmem _).mp (List.mem_of_mem_tail hsecond)))

theorem group_record_eq_head {candidate : List SourcePatchRecord} {uid : String}
    (h : UniformGroup candidate uid) :
    group_record candidate uid = (presented candidate uid).head? := by
  have hsorted : candidate_group candidate uid = presented candidate uid :=
    sortBy_eq_self (List.Pairwise.imp_of_mem (fun hp hq _ => isLE_of_eq (h _ hp _ hq))
      (List.pairwise_of_forall fun _ _ => trivial : List.Pairwise (fun _ _ => True) _))
  have hdistinct := carries_distinct_eq_false_iff.mpr h
  rw [hsorted] at hdistinct
  simp only [group_record, hsorted, hdistinct, Bool.false_eq_true, if_false]

theorem group_record_mem {candidate : List SourcePatchRecord} {uid : String}
    {patch : SourcePatchRecord} (h : group_record candidate uid = some patch) :
    UniformGroup candidate uid ∧ patch ∈ presented candidate uid := by
  by_cases hdistinct : carries_distinct (candidate_group candidate uid) = true
  · rw [group_record] at h
    simp only [hdistinct, if_true] at h
    exact nomatch h
  · have huniform := carries_distinct_eq_false_iff.mp (Bool.eq_false_iff.mpr hdistinct)
    rw [group_record_eq_head huniform] at h
    exact ⟨huniform, List.mem_of_head? h⟩

theorem group_candidate_uids_get (candidate : List SourcePatchRecord) (uid : String) :
    (group_candidate_uids candidate).2.get uid = group_record candidate uid := by
  have hown : ∀ {uid patch}, group_record candidate uid = some patch → patch.uid = uid :=
    fun h => (mem_presented.mp (group_record_mem h).2).2
  have huids : (((group_uids candidate).filterMap (group_record candidate)).map
      SourcePatchRecord.uid).Nodup := by
    have hsorted : (group_uids candidate).Nodup :=
      (sortBy_perm _).nodup_iff.mpr (List.nodup_dedup _)
    have hfilter : ((group_uids candidate).filterMap (group_record candidate)).map
        SourcePatchRecord.uid =
        (group_uids candidate).filter fun uid => (group_record candidate uid).isSome := by
      rw [List.map_filterMap, ← List.filterMap_eq_filter]
      refine List.filterMap_congr fun uid _ => ?_
      cases hrecord : group_record candidate uid with
      | none => simp [Option.guard, hrecord]
      | some patch => simp [Option.guard, hrecord, hown hrecord]
    rw [hfilter]
    exact hsorted.filter _
  rw [group_candidate_uids, Store.get_ofList huids]
  cases hrecord : group_record candidate uid with
  | none =>
    rw [List.find?_eq_none]
    intro patch hpatch heq
    obtain ⟨other, -, hother⟩ := List.mem_filterMap.mp hpatch
    rw [← hown hother, of_decide_eq_true heq, hrecord] at hother
    exact nomatch hother
  | some patch =>
    obtain ⟨hpresented, hkey⟩ := mem_presented.mp (group_record_mem hrecord).2
    have huid : uid ∈ group_uids candidate :=
      mem_sortBy.mpr (List.mem_dedup.mpr (hkey ▸ List.mem_map_of_mem hpresented))
    have hmem : patch ∈ (group_uids candidate).filterMap (group_record candidate) :=
      List.mem_filterMap.mpr ⟨uid, huid, hrecord⟩
    have hget := (Store.mem_values_ofList huids).mpr hmem
    rw [Store.mem_values, Store.get_ofList huids, hkey] at hget
    exact hget

/-! ## Comparison -/

/-- The message about a record whose stored digest is not that of its content. -/
def RECOMPUTE_MESSAGE : String :=
  "candidate patch record's reviewed-content digest does not recompute from its bindings and " ++
    "operations"

/-- The message about an approved patch without candidate identities. -/
def UNVERIFIABLE_MESSAGE : String :=
  "candidate recipe or input identity is unavailable; the patch's bindings are unverifiable"

section Comparison

variable [Sha256] [F64Display] [StrDebug]

def CandidatePatchPlane.apply_approved (candidate : CandidatePatchPlane) (media_type : String)
    (working : SourceGraph) (patch : SourcePatchRecord) : List DriftFinding × SourceGraph :=
  match candidate.recipe_digest, candidate.input_digest with
  | some recipe_digest, some input_digest =>
    match apply_patch working patch ⟨recipe_digest, input_digest⟩ media_type with
    | .ok application => ([], application.graph)
    | .error source =>
      ([patch_finding .PatchUnappliable patch.uid (.Failure source.to_string)], working)
  | _, _ => ([patch_finding .PatchUnappliable patch.uid (.Failure UNVERIFIABLE_MESSAGE)], working)

/-- The review findings of a patch whose digest has not moved. -/
def review_findings (uid : String) (committed candidate : PatchLifecycle) : List DriftFinding :=
  let states := DriftDetail.LifecycleStates (state_name committed) (state_name candidate)
  (if candidate ≠ committed then [patch_finding .ReviewStateChanged uid states] else []) ++
    (if candidate = .Stale then [patch_finding .PatchStale uid states] else []) ++
    (if candidate = .Rejected then [patch_finding .PatchRejected uid states] else [])

def compare_both (media_type : String) (committed_evaluations : EvaluationPlane)
    (candidate : CandidatePatchPlane) (uid : String)
    (committed_patch candidate_patch : SourcePatchRecord) (working : SourceGraph) :
    List DriftFinding × SourceGraph :=
  if candidate_patch.reviewed_content_digest ≠ reviewed_content_digest candidate_patch then
    ([patch_finding .PatchUnappliable uid (.Failure RECOMPUTE_MESSAGE)], working)
  else if candidate_patch.reviewed_content_digest ≠ committed_patch.reviewed_content_digest then
    ([patch_finding .PatchChanged uid
        (.PatchDigest committed_patch.reviewed_content_digest.as_str
          candidate_patch.reviewed_content_digest.as_str)], working)
  else
    match committed_evaluations.get uid, candidate.evaluations.get uid with
    | some (_, committed_eval), some (_, candidate_eval) =>
      let reviews := review_findings uid committed_eval.state candidate_eval.state
      if candidate_eval.state = .Approved then
        let applied := candidate.apply_approved media_type working candidate_patch
        (reviews ++ applied.1, applied.2)
      else (reviews, working)
    | _, _ => ([], working)

/-- One uid of the two planes, for the records that stand for the candidate's uids. -/
def compare_patch (media_type : String) (committed : Store SourcePatchRecord.uid)
    (committed_evaluations : EvaluationPlane) (candidate : CandidatePatchPlane)
    (candidate_record : String → Option SourcePatchRecord) (working : SourceGraph)
    (uid : String) : List DriftFinding × SourceGraph :=
  match committed.get uid, candidate_record uid with
  | some _, none => ([patch_finding .PatchRemoved uid .CommittedOnly], working)
  | none, some _ => ([patch_finding .PatchAdded uid .CandidateOnly], working)
  | some committed_patch, some candidate_patch =>
    compare_both media_type committed_evaluations candidate uid committed_patch candidate_patch
      working
  | none, none => ([], working)

/-- The uids of two patch planes, in order. -/
def plane_uids (committed candidate_by_uid : Store SourcePatchRecord.uid) : List String :=
  sortBy compare
    (committed.values.map SourcePatchRecord.uid ++
      candidate_by_uid.values.map SourcePatchRecord.uid).dedup

/-- Compare the patch and review planes of both sides, and build the candidate
effective graph. -/
def compare_patches (media_type : String) (committed : Store SourcePatchRecord.uid)
    (committed_evaluations : EvaluationPlane) (candidate : CandidatePatchPlane) :
    PatchPlaneOutcome :=
  let grouped := group_candidate_uids candidate.patches
  let compared := emit
    (compare_patch media_type committed committed_evaluations candidate grouped.2.get)
    candidate.graph (plane_uids committed grouped.2)
  { findings := grouped.1 ++ compared.1
    effective := compared.2 }

end Comparison

end Evidence.Corpus
