/-
What reconciliation guarantees for every list of candidates.

The pools hand out each committed uid once, and only under the key of its node, and a key is
served as long as its pool lasts. The keys are computed from a few fields of the
candidates, their `skeleton`: where they stand, their kinds, numbers, labels and anchors. Their
texts and positions in the document enter nowhere, so that a change of these alone moves no identity.
-/
import Evidence.Corpus.SourceGraph.Identity

set_option autoImplicit false

namespace Evidence.Corpus

open Climb Queues

/-! ## Skeletons -/

/-- The fields of a candidate that its key depends on. -/
structure Skeleton where
  provisional_id : String
  parent_id : Option String
  kind : SourceNodeKind
  ordinal : UInt32
  label : Option String
  anchor : Option String
deriving DecidableEq

def CandidateNode.skeleton (candidate : CandidateNode) : Skeleton where
  provisional_id := candidate.provisional_id
  parent_id := candidate.parent_id
  kind := candidate.kind
  ordinal := candidate.ordinal
  label := candidate.label
  anchor := candidate.locator.explicit_anchor

/-- A tier with the skeleton's fields; only the anchor of the locator matters. -/
def Skeleton.tier (skeleton : Skeleton) : Tier where
  kind := skeleton.kind
  label := skeleton.label
  locator := .Html "" none skeleton.anchor [] []
  ordinal := skeleton.ordinal

theorem by_id_skeleton (candidates : List CandidateNode) (id : String) :
    ((candidates.map CandidateNode.skeleton).findRev? fun skeleton =>
        skeleton.provisional_id == id) = (by_id candidates id).map CandidateNode.skeleton := by
  rw [by_id, List.findRev?_eq_find?_reverse, List.findRev?_eq_find?_reverse, ← List.map_reverse,
    List.find?_map]
  rfl

section Keys

variable [Sha256]

/-- The key computed from the skeletons alone. -/
def skeleton_key (skeleton : Skeleton) (skeletons : List Skeleton) : StructuralKey :=
  let walk := climb (fun id => skeletons.findRev? fun other => other.provisional_id == id)
    Skeleton.parent_id (skeletons.length + 1) [skeleton.provisional_id] skeleton.parent_id
  key_under skeleton.tier (walk.1.reverse.map Skeleton.tier)

/-- **A candidate's key depends on the skeletons alone.** -/
theorem candidate_key_eq_skeleton_key (candidate : CandidateNode)
    (candidates : List CandidateNode) :
    candidate_key candidate candidates =
      skeleton_key candidate.skeleton (candidates.map CandidateNode.skeleton) := by
  have hfold : ∀ (chain : List CandidateNode) (key : Option StructuralKey),
      (chain.map (Skeleton.tier ∘ CandidateNode.skeleton)).foldl
          (fun key ancestor => some (fold_tier ancestor key)) key =
        (chain.map CandidateNode.tier).foldl
          (fun key ancestor => some (fold_tier ancestor key)) key := by
    intro chain
    induction chain with
    | nil => exact fun _ => rfl
    | cons ancestor chain ih =>
      intro key
      rw [List.map_cons, List.map_cons, List.foldl_cons, List.foldl_cons, ih]
      rfl
  rw [skeleton_key, climb_view CandidateNode.skeleton (by_id_skeleton candidates) fun _ => rfl,
    List.length_map, candidate_key]
  dsimp only
  rw [← List.map_reverse, List.map_map, key_under, key_under, hfold]
  rfl

theorem candidate_keys_eq {candidates others : List CandidateNode}
    (h : candidates.map CandidateNode.skeleton = others.map CandidateNode.skeleton) :
    (candidates.map fun candidate => candidate_key candidate candidates) =
      others.map fun candidate => candidate_key candidate others := by
  have hkeys : ∀ l : List CandidateNode, (l.map fun candidate => candidate_key candidate l) =
      (l.map CandidateNode.skeleton).map fun skeleton =>
        skeleton_key skeleton (l.map CandidateNode.skeleton) := by
    intro l
    rw [List.map_map]
    exact List.map_congr_left fun candidate _ => candidate_key_eq_skeleton_key candidate l
  rw [hkeys, hkeys, h]

/-! ## Pools -/

theorem key_pool_committed {committed : SourceGraph} {key : StructuralKey} {uid : String}
    (h : uid ∈ key_pool committed key) : ∃ node, committed.get uid = some node ∧
      structural_key node committed = key := by
  obtain ⟨node, hmem, hkey, rfl⟩ := mem_key_pool.mp h
  exact ⟨node, Store.mem_values.mp hmem, hkey⟩

theorem key_pool_disjoint {committed : SourceGraph} {key other : StructuralKey} (hne : key ≠ other) :
    (key_pool committed key).Disjoint (key_pool committed other) := by
  intro uid huid huid'
  obtain ⟨node, hget, hkey⟩ := key_pool_committed huid
  obtain ⟨node', hget', hother⟩ := key_pool_committed huid'
  rw [hget, Option.some.injEq] at hget'
  exact hne (hkey.symm.trans (hget' ▸ hother))

theorem key_pool_length (committed : SourceGraph) (key : StructuralKey) :
    (key_pool committed key).length =
      committed.values.countP fun node => structural_key node committed = key := by
  rw [key_pool, List.length_map, List.countP_eq_length_filter]

/-! ## The guarantees -/

/-- The entry got the uid of a committed node. -/
def ReconciledNode.reused (committed : SourceGraph) (entry : ReconciledNode) : Bool :=
  (committed.get entry.uid).isSome

variable (mint : ℕ → String) (committed : SourceGraph) (candidates : List CandidateNode)

omit [Sha256] in
theorem reconcile_zip [Sha256] : (reconcile mint committed candidates).1 =
    ((serve mint 0 (key_pool committed)
      (candidates.map fun candidate => candidate_key candidate candidates)).1.zip candidates).map
        fun pair => ⟨pair.1, pair.2⟩ :=
  rfl

theorem reconcile_candidates :
    (reconcile mint committed candidates).1.map ReconciledNode.candidate = candidates := by
  rw [reconcile_zip, List.map_map]
  exact List.map_snd_zip (by rw [length_serve, List.length_map])

theorem reconcile_uids :
    (reconcile mint committed candidates).1.map ReconciledNode.uid =
      (serve mint 0 (key_pool committed)
        (candidates.map fun candidate => candidate_key candidate candidates)).1 := by
  rw [reconcile_zip, List.map_map]
  exact List.map_fst_zip (by rw [length_serve, List.length_map])

theorem reconcile_keys : (candidates.map fun candidate => candidate_key candidate candidates) =
    (reconcile mint committed candidates).1.map fun entry =>
      candidate_key entry.candidate candidates := by
  have hmap := List.map_map (l := (reconcile mint committed candidates).1)
    (g := fun candidate => candidate_key candidate candidates) (f := ReconciledNode.candidate)
  rw [reconcile_candidates] at hmap
  exact hmap

variable {mint committed candidates}

/-- **The reused uids of a key are the first of its pool**, as many as candidates ask for it. -/
theorem reconcile_taken (hmint : ∀ i, committed.get (mint i) = none) (key : StructuralKey) :
    (((reconcile mint committed candidates).1.filter fun entry =>
        candidate_key entry.candidate candidates = key && entry.reused committed).map
          ReconciledNode.uid) =
      (key_pool committed key).take
        (candidates.countP fun candidate => candidate_key candidate candidates = key) := by
  have htaken := serve_taken mint (fun uid => (committed.get uid).isSome) 0 (key_pool committed)
    (candidates.map fun candidate => candidate_key candidate candidates)
    (fun i => by rw [hmint i]; rfl)
    (fun key uid huid => by
      obtain ⟨node, hget, -⟩ := key_pool_committed huid
      rw [hget]
      rfl) key
  rw [List.count_eq_countP, List.countP_map] at htaken
  rw [show (candidates.countP fun candidate => candidate_key candidate candidates = key) =
    candidates.countP ((fun other => other == key) ∘ fun candidate =>
      candidate_key candidate candidates) from List.countP_congr fun c _ => by simp, ← htaken]
  rw [← reconcile_uids, reconcile_keys mint committed candidates, List.zip_map', List.filter_map,
    List.filter_map, List.filter_map, List.map_map, List.filter_filter]
  refine congrArg _ (List.filter_congr fun entry _ => ?_)
  simp only [Function.comp_apply, ReconciledNode.reused, Bool.and_comm]

theorem reconcile_reused_nodup (hmint : ∀ i, committed.get (mint i) = none) :
    (((reconcile mint committed candidates).1.filter fun entry => entry.reused committed).map
      ReconciledNode.uid).Nodup := by
  have hserved := (serve_nodup mint (fun uid => (committed.get uid).isSome) 0 (key_pool committed)
    (candidates.map fun candidate => candidate_key candidate candidates)
    (fun i => by rw [hmint i]; rfl) (key_pool_nodup committed)
    fun _ _ hne => key_pool_disjoint hne).1
  rw [← reconcile_uids, List.filter_map] at hserved
  exact hserved

theorem reconcile_key_eq (hmint : ∀ i, committed.get (mint i) = none) {entry : ReconciledNode}
    (hentry : entry ∈ (reconcile mint committed candidates).1) {node : SourceNode}
    (hnode : committed.get entry.uid = some node) :
    candidate_key entry.candidate candidates = structural_key node committed := by
  have htaken := @reconcile_taken _ mint committed candidates hmint
    (candidate_key entry.candidate candidates)
  have hmem : entry.uid ∈ key_pool committed (candidate_key entry.candidate candidates) := by
    apply List.mem_of_mem_take
    rw [← htaken]
    refine List.mem_map_of_mem (List.mem_filter.mpr ⟨hentry, ?_⟩)
    simp [ReconciledNode.reused, hnode]
  obtain ⟨found, hget, hkey⟩ := key_pool_committed hmem
  rw [hnode, Option.some.injEq] at hget
  rw [hget, hkey]

theorem reconcile_count (hmint : ∀ i, committed.get (mint i) = none) (key : StructuralKey) :
    ((reconcile mint committed candidates).1.countP fun entry =>
        candidate_key entry.candidate candidates = key && entry.reused committed) =
      min (candidates.countP fun candidate => candidate_key candidate candidates = key)
        (committed.values.countP fun node => structural_key node committed = key) := by
  have hlength := congrArg List.length (@reconcile_taken _ mint committed candidates hmint key)
  rw [List.length_map, List.length_take, key_pool_length] at hlength
  rw [List.countP_eq_length_filter]
  exact hlength

/-- **What reconciliation guarantees.** Every candidate is kept, in order; a committed uid is
reused for one candidate at most, and for one whose key is its node's; within a key as many
are reused as there are candidates and committed nodes to match; and which uid goes to which
candidate depends on the skeletons alone, whatever the texts and positions. No minted uid is a
committed one. -/
theorem reconcile_guarantees {mint : ℕ → String} {committed : SourceGraph}
    (candidates : List CandidateNode) (hmint : ∀ i, committed.get (mint i) = none) :
    let entries := (reconcile mint committed candidates).1
    entries.map ReconciledNode.candidate = candidates ∧
    ((entries.filter fun entry => entry.reused committed).map ReconciledNode.uid).Nodup ∧
    (∀ entry ∈ entries, ∀ node, committed.get entry.uid = some node →
      candidate_key entry.candidate candidates = structural_key node committed) ∧
    (∀ key, (entries.countP fun entry =>
        candidate_key entry.candidate candidates = key && entry.reused committed) =
      min (candidates.countP fun candidate => candidate_key candidate candidates = key)
        (committed.values.countP fun node => structural_key node committed = key)) ∧
    ∀ (mint' : ℕ → String) (others : List CandidateNode),
      (∀ i, committed.get (mint' i) = none) →
      candidates.map CandidateNode.skeleton = others.map CandidateNode.skeleton →
      (entries.map fun entry => committed.get entry.uid) =
        (reconcile mint' committed others).1.map fun entry => committed.get entry.uid := by
  refine ⟨reconcile_candidates mint committed candidates, reconcile_reused_nodup hmint,
    fun entry hentry node hnode => reconcile_key_eq hmint hentry hnode, reconcile_count hmint, ?_⟩
  intro mint' others hmint' hskeleton
  have huids : ∀ entries : List ReconciledNode,
      (entries.map fun entry => committed.get entry.uid) =
        (entries.map ReconciledNode.uid).map committed.get := fun entries => List.map_map.symm
  rw [huids, huids, reconcile_uids, reconcile_uids, candidate_keys_eq hskeleton]
  exact serve_map_eq (fun i j => by rw [hmint i, hmint' j]) 0 0 _ _

end Keys

/-! ## Two unlabeled roots -/

section Witness

attribute [local instance] fips180

/-- The guarantees for the two paragraphs as candidates for themselves: two uids are reused. -/
theorem reconcile_guarantees_two_paragraphs :
    (((reconcile (fun _ => "") two_paragraphs
      ((document_order two_paragraphs).map (project id))).1.filter fun entry =>
        entry.reused two_paragraphs).map ReconciledNode.uid).Nodup :=
  (reconcile_guarantees _ fun _ => by decide +kernel).2.1

end Witness

end Evidence.Corpus
