/-
No node is lost between the stages of the drift comparison.

Each stage splits what it is given, so every candidate and every committed node
ends in exactly one place: unreconciled, paired, or left over
(`candidates_accounted`, `committed_accounted`), and every paired candidate is
looked up under the uid of its partner (`reconciled_uid_get`).
-/
import Evidence.Corpus.Drift.Nodes

set_option autoImplicit false

namespace Evidence.Corpus

open Climb Pairing Queues Sorting

variable [Sha256]

/-! ## The content pass -/

omit [Sha256] in
theorem content_offers_snd (committed candidates : List SourceNode) :
    (content_offers committed candidates).map Prod.snd = candidates :=
  List.map_snd_zip (by rw [length_serve, List.length_map])

omit [Sha256] in
theorem content_offers_taken {committed : List SourceNode} (candidates : List SourceNode)
    (hnodup : committed.Nodup) :
    ((paired (content_offers committed candidates)).map Prod.fst).Nodup ∧
      (paired (content_offers committed candidates)).map Prod.fst ⊆ committed := by
  obtain ⟨hserved, hqueued⟩ := serve_nodup (fun _ => none) Option.isSome 0
    (fun digest => (committed.filter fun node => node.content_sha256 = digest).map some)
    (candidates.map SourceNode.content_sha256) (fun _ => rfl)
    (fun digest => (hnodup.filter _).map fun _ _ => Option.some.inj) <| by
      intro digest other hne node hnode hnode'
      obtain ⟨n, hn, rfl⟩ := List.mem_map.mp hnode
      obtain ⟨m, hm, heq⟩ := List.mem_map.mp hnode'
      cases heq
      have hdigest := of_decide_eq_true (List.mem_filter.mp hn).2
      exact hne (hdigest.symm.trans (of_decide_eq_true (List.mem_filter.mp hm).2))
  rw [map_fst_paired, content_offers, List.map_fst_zip (by rw [length_serve, List.length_map])]
  refine ⟨?_, fun node hnode => ?_⟩
  · refine List.Nodup.of_map some ?_
    rw [List.map_filterMap_some_eq_filter_map_isSome, List.map_id]
    exact hserved
  · obtain ⟨offer, hoffer, hsome⟩ := List.mem_filterMap.mp hnode
    obtain ⟨digest, hdigest⟩ := hqueued offer hoffer (by rw [show offer = some node from hsome]; rfl)
    obtain ⟨m, hm, rfl⟩ := List.mem_map.mp hdigest
    cases hsome
    exact List.mem_of_mem_filter hm

/-! ## The relaxed passes -/

private theorem skeleton_pools_perm (graph : SourceGraph) {nodes : List SourceNode}
    {keys : List RelaxedKey} (hnodup : keys.Nodup)
    (hcover : ∀ node ∈ nodes, relax (structural_key node graph) ∈ keys) :
    (keys.flatMap (skeleton_pool graph nodes)).Perm (nodes.map SourceNode.uid) := by
  have hperm := (flatMap_class_perm (fun node => relax (structural_key node graph)) hnodup
    hcover).map SourceNode.uid
  rw [List.map_flatMap] at hperm
  exact hperm

theorem skeleton_pairs_accounted (committed_graph candidate_graph : SourceGraph)
    (remaining deferred : List SourceNode) :
    let rest := skeleton_pairs committed_graph candidate_graph remaining deferred
    (rest.pairs.map Prod.fst ++ rest.leftover_committed).Perm (remaining.map SourceNode.uid) ∧
      (rest.pairs.map Prod.snd ++ rest.leftover_candidates).Perm
        (deferred.map SourceNode.uid) := by
  have hkeys : ∀ key, key ∈ (sortBy RelaxedKey.cmp
      ((remaining.map fun node => relax (structural_key node committed_graph)) ++
        deferred.map fun node => relax (structural_key node candidate_graph)).dedup) ↔
      key ∈ (remaining.map fun node => relax (structural_key node committed_graph)) ∨
        key ∈ deferred.map fun node => relax (structural_key node candidate_graph) := by
    intro key
    rw [mem_sortBy, List.mem_dedup, List.mem_append]
  have hnodup : (sortBy RelaxedKey.cmp
      ((remaining.map fun node => relax (structural_key node committed_graph)) ++
        deferred.map fun node => relax (structural_key node candidate_graph)).dedup).Nodup :=
    (sortBy_perm _).nodup_iff.mpr (List.nodup_dedup _)
  constructor
  · refine List.Perm.trans ?_ (skeleton_pools_perm committed_graph hnodup fun node hnode =>
      (hkeys _).mpr (.inl (List.mem_map_of_mem hnode)))
    rw [skeleton_pairs, List.map_flatMap]
    refine (List.flatMap_append_perm _ _ _).trans (List.Perm.of_eq ?_)
    exact List.flatMap_congr fun key _ => zip_append_drop _ _
  · refine List.Perm.trans ?_ (skeleton_pools_perm candidate_graph hnodup fun node hnode =>
      (hkeys _).mpr (.inr (List.mem_map_of_mem hnode)))
    rw [skeleton_pairs, List.map_flatMap]
    refine (List.flatMap_append_perm _ _ _).trans (List.Perm.of_eq ?_)
    exact List.flatMap_congr fun key _ => zip_append_drop' _ _

/-- **The relaxed passes pair a node or leave it over.** -/
theorem relaxed_pairs_accounted (committed_graph candidate_graph : SourceGraph)
    {committed candidates : List SourceNode} (hnodup : (committed.map SourceNode.uid).Nodup) :
    let relaxed := relaxed_pairs committed candidates committed_graph candidate_graph
    (relaxed.pairs.map Prod.fst ++ relaxed.leftover_committed).Perm
        (committed.map SourceNode.uid) ∧
      (relaxed.pairs.map Prod.snd ++ relaxed.leftover_candidates).Perm
        (candidates.map SourceNode.uid) := by
  obtain ⟨htaken, hsub⟩ := content_offers_taken candidates hnodup.of_map
  have huids : (((paired (content_offers committed candidates)).map Prod.fst).map
      SourceNode.uid).Nodup :=
    htaken.map_on fun a ha b hb => List.inj_on_of_nodup_map hnodup (hsub ha) (hsub hb)
  simp only [relaxed_pairs, List.map_append, List.append_assoc, List.map_map]
  constructor
  · refine ((skeleton_pairs_accounted committed_graph candidate_graph _ _).1.append_left _).trans ?_
    have hstruck := (append_struck hnodup huids hsub).map SourceNode.uid
    rw [List.map_append, List.map_map] at hstruck
    exact hstruck
  · refine ((skeleton_pairs_accounted committed_graph candidate_graph _ _).2.append_left _).trans ?_
    have hsplit := (paired_append_unpaired (content_offers committed candidates)).map SourceNode.uid
    rw [content_offers_snd, List.map_append, List.map_map] at hsplit
    exact hsplit

/-! ## The primary stage -/

/-- The uids reconciliation gives to the candidates, in their order. -/
def reconciled_uids (mint : ℕ → String) (committed candidate : SourceGraph) : List String :=
  (serve mint 0 (key_pool committed) ((candidate.values.map to_candidate).map fun node =>
    candidate_key node (candidate.values.map to_candidate))).1

theorem length_reconciled_uids (mint : ℕ → String) (committed candidate : SourceGraph) :
    (reconciled_uids mint committed candidate).length = candidate.values.length := by
  rw [reconciled_uids, length_serve, List.length_map, List.length_map]

theorem reconcile_to_candidate (mint : ℕ → String) (committed candidate : SourceGraph) :
    (reconcile mint committed (candidate.values.map to_candidate)).1 =
      ((reconciled_uids mint committed candidate).zip candidate.values).map fun entry =>
        ⟨entry.1, to_candidate entry.2⟩ := by
  rw [reconcile, ← reconciled_uids, List.zip_map_right, List.map_map]
  rfl

theorem primary_offers_eq (mint : ℕ → String) (committed candidate : SourceGraph) :
    primary_offers committed candidate
        (reconcile mint committed (candidate.values.map to_candidate)).1 =
      ((reconciled_uids mint committed candidate).zip candidate.values).map fun entry =>
        (committed.get entry.1, entry.2) := by
  rw [primary_offers, reconcile_to_candidate, List.filterMap_map, ← List.filterMap_eq_map']
  refine List.filterMap_congr fun entry hentry => ?_
  have hget : candidate.get (to_candidate entry.2).provisional_id = some entry.2 :=
    Store.mem_values.mp (List.of_mem_zip hentry).2
  rw [Function.comp_apply, hget]
  rfl

def primary_matches (mint : ℕ → String) (committed candidate : SourceGraph) :
    List (SourceNode × SourceNode) :=
  paired (primary_offers committed candidate
    (reconcile mint committed (candidate.values.map to_candidate)).1)

theorem mem_primary_matches {mint : ℕ → String} {committed candidate : SourceGraph}
    {pair : SourceNode × SourceNode} (h : pair ∈ primary_matches mint committed candidate) :
    (pair.1.uid, pair.2) ∈ (reconciled_uids mint committed candidate).zip candidate.values ∧
      pair.1 ∈ committed.values := by
  rw [primary_matches, primary_offers_eq, paired, List.filterMap_map] at h
  obtain ⟨entry, hentry, hpair⟩ := List.mem_filterMap.mp h
  obtain ⟨node, hnode, rfl⟩ := Option.map_eq_some_iff.mp hpair
  refine ⟨?_, Store.mem_values_of_get hnode⟩
  rw [show node.uid = entry.1 from Store.key_of_get hnode]
  exact hentry

/-- **The primary stage takes distinct committed nodes**, as no minted uid is a
committed one. -/
theorem primary_matches_taken {mint : ℕ → String} {committed : SourceGraph}
    (candidate : SourceGraph)
    (hmint : ∀ i, committed.get (mint i) = none) :
    (((primary_matches mint committed candidate).map Prod.fst).map SourceNode.uid).Nodup ∧
      (primary_matches mint committed candidate).map Prod.fst ⊆ committed.values := by
  have hserved := (serve_nodup mint (fun uid => (committed.get uid).isSome) 0 (key_pool committed)
    ((candidate.values.map to_candidate).map fun node =>
      candidate_key node (candidate.values.map to_candidate))
    (fun i => by rw [hmint i]; rfl)
    (fun key => committed.values_keys_nodup.sublist (List.filter_sublist.map _))
    (by
      intro key other hne uid huid huid'
      obtain ⟨n, hn, rfl⟩ := List.mem_map.mp huid
      obtain ⟨m, hm, heq⟩ := List.mem_map.mp huid'
      obtain ⟨hn, hkey⟩ := List.mem_filter.mp hn
      obtain ⟨hm, hother⟩ := List.mem_filter.mp hm
      rw [Store.eq_of_mem_values hm hn heq] at hother
      exact hne ((of_decide_eq_true hkey).symm.trans (of_decide_eq_true hother)))).1
  have hfst : (primary_matches mint committed candidate).map Prod.fst =
      (reconciled_uids mint committed candidate).filterMap committed.get := by
    rw [primary_matches, map_fst_paired, primary_offers_eq, List.map_map, List.filterMap_map]
    have hzip := List.map_fst_zip (Nat.le_of_eq (length_reconciled_uids mint committed candidate))
    conv_rhs => rw [← hzip, List.filterMap_map]
    rfl
  constructor
  · have huids : ((reconciled_uids mint committed candidate).filterMap committed.get).map
        SourceNode.uid =
        (reconciled_uids mint committed candidate).filter fun uid => (committed.get uid).isSome := by
      rw [List.map_filterMap, ← List.filterMap_eq_filter]
      refine List.filterMap_congr fun uid _ => ?_
      cases hget : committed.get uid with
      | none => simp [Option.guard, hget]
      | some node => simp [Option.guard, hget, show node.uid = uid from Store.key_of_get hget]
    rw [hfst, huids]
    exact hserved
  · rw [hfst]
    intro node hnode
    obtain ⟨uid, -, hget⟩ := List.mem_filterMap.mp hnode
    exact Store.mem_values_of_get hget

/-! ## All stages -/

section Stages

variable (mint : ℕ → String) (committed candidate : SourceGraph)

/-- The pairs and leftovers of the relaxed passes over what the primary stage
leaves. -/
def relaxed_matches : RelaxedPairs :=
  relaxed_pairs
    (committed.values.filter fun node => node.uid ∉
      ((primary_matches mint committed candidate).map Prod.fst).map SourceNode.uid)
    (unpaired (primary_offers committed candidate
      (reconcile mint committed (candidate.values.map to_candidate)).1))
    committed candidate

/-- The relaxed pairs as nodes. -/
def resolved_matches : List (SourceNode × SourceNode) :=
  (relaxed_matches mint committed candidate).pairs.filterMap fun pair =>
    (committed.get pair.1).bind fun node => (candidate.get pair.2).map fun other => (node, other)

theorem relaxed_matches_accounted :
    ((relaxed_matches mint committed candidate).pairs.map Prod.fst ++
        (relaxed_matches mint committed candidate).leftover_committed).Perm
      ((committed.values.filter fun node => node.uid ∉
        ((primary_matches mint committed candidate).map Prod.fst).map SourceNode.uid).map
          SourceNode.uid) ∧
      ((relaxed_matches mint committed candidate).pairs.map Prod.snd ++
          (relaxed_matches mint committed candidate).leftover_candidates).Perm
        ((unpaired (primary_offers committed candidate
          (reconcile mint committed (candidate.values.map to_candidate)).1)).map SourceNode.uid) :=
  relaxed_pairs_accounted committed candidate
    (committed.values_keys_nodup.sublist (List.filter_sublist.map _))

theorem primary_accounted :
    ((primary_matches mint committed candidate).map Prod.snd ++
      unpaired (primary_offers committed candidate
        (reconcile mint committed (candidate.values.map to_candidate)).1)).Perm
      candidate.values := by
  have hsplit := paired_append_unpaired (primary_offers committed candidate
    (reconcile mint committed (candidate.values.map to_candidate)).1)
  have hsnd : (primary_offers committed candidate
      (reconcile mint committed (candidate.values.map to_candidate)).1).map Prod.snd =
      candidate.values := by
    rw [primary_offers_eq, List.map_map]
    exact List.map_snd_zip (Nat.le_of_eq (length_reconciled_uids mint committed candidate).symm)
  rwa [hsnd] at hsplit

theorem resolved_matches_uids :
    (resolved_matches mint committed candidate).map (fun pair => (pair.1.uid, pair.2.uid)) =
      (relaxed_matches mint committed candidate).pairs := by
  obtain ⟨hfst, hsnd⟩ := relaxed_matches_accounted mint committed candidate
  rw [resolved_matches, List.map_filterMap]
  conv_rhs => rw [← List.filterMap_some (l := (relaxed_matches mint committed candidate).pairs)]
  refine List.filterMap_congr fun pair hpair => ?_
  have hleft : pair.1 ∈ (committed.values.filter fun node => node.uid ∉
      ((primary_matches mint committed candidate).map Prod.fst).map SourceNode.uid).map
        SourceNode.uid :=
    hfst.mem_iff.mp (List.mem_append_left _ (List.mem_map_of_mem hpair))
  have hright : pair.2 ∈ (unpaired (primary_offers committed candidate
      (reconcile mint committed (candidate.values.map to_candidate)).1)).map SourceNode.uid :=
    hsnd.mem_iff.mp (List.mem_append_left _ (List.mem_map_of_mem hpair))
  obtain ⟨node, hnode, hkey⟩ := List.mem_map.mp hleft
  obtain ⟨other, hother, hkey'⟩ := List.mem_map.mp hright
  have hget : committed.get pair.1 = some node :=
    hkey ▸ Store.mem_values.mp (List.mem_of_mem_filter hnode)
  have hget' : candidate.get pair.2 = some other :=
    hkey' ▸ Store.mem_values.mp ((primary_accounted mint committed candidate).mem_iff.mp
      (List.mem_append_right _ hother))
  rw [hget, hget', Option.bind_some, Option.map_some, Option.map_some, hkey, hkey']

theorem unreconciled_eq : (pair_nodes mint committed candidate).unreconciled =
    (primary_matches mint committed candidate).filter fun pair => is_ambiguous committed pair.1 :=
  rfl

theorem pairs_eq : (pair_nodes mint committed candidate).pairs =
    ((primary_matches mint committed candidate).filter fun pair =>
      !is_ambiguous committed pair.1) ++ resolved_matches mint committed candidate :=
  rfl

private theorem reconciled_uid_eq : (pair_nodes mint committed candidate).reconciled_uid =
    (UidMap.extend Store.empty
      ((reconcile mint committed (candidate.values.map to_candidate)).1.map fun entry =>
        (entry.candidate.provisional_id, entry.uid))).extend
      ((resolved_matches mint committed candidate).map fun pair => (pair.2.uid, pair.1.uid)) := by
  unfold pair_nodes
  dsimp only
  congr 1

private theorem matches_split :
    ((pair_nodes mint committed candidate).unreconciled ++
      (pair_nodes mint committed candidate).pairs).Perm
      (primary_matches mint committed candidate ++ resolved_matches mint committed candidate) := by
  rw [unreconciled_eq, pairs_eq, ← List.append_assoc]
  exact (List.filter_append_perm (fun pair : SourceNode × SourceNode =>
    is_ambiguous committed pair.1) _).append_right _

private theorem matches_split_uids (side : SourceNode × SourceNode → SourceNode)
    (uid : String × String → String)
    (huid : ∀ pair : SourceNode × SourceNode, uid (pair.1.uid, pair.2.uid) = (side pair).uid) :
    ((pair_nodes mint committed candidate).unreconciled.map (fun pair => (side pair).uid) ++
      (pair_nodes mint committed candidate).pairs.map (fun pair => (side pair).uid)).Perm
      ((primary_matches mint committed candidate).map (fun pair => (side pair).uid) ++
        (relaxed_matches mint committed candidate).pairs.map uid) := by
  have hresolved : (resolved_matches mint committed candidate).map (fun pair => (side pair).uid) =
      (relaxed_matches mint committed candidate).pairs.map uid := by
    rw [← resolved_matches_uids, List.map_map]
    exact List.map_congr_left fun pair _ => (huid pair).symm
  have hsplit := (matches_split mint committed candidate).map fun pair => (side pair).uid
  rw [List.map_append, List.map_append, hresolved] at hsplit
  exact hsplit

theorem pairs_mem {pair : SourceNode × SourceNode}
    (hpair : pair ∈ (pair_nodes mint committed candidate).pairs) :
    pair.1 ∈ committed.values ∧ pair.2 ∈ candidate.values := by
  rw [pairs_eq] at hpair
  rcases List.mem_append.mp hpair with hprimary | hresolved
  · obtain ⟨hzip, hleft⟩ := mem_primary_matches (List.mem_of_mem_filter hprimary)
    exact ⟨hleft, (List.of_mem_zip hzip).2⟩
  · obtain ⟨uids, -, hbind⟩ := List.mem_filterMap.mp hresolved
    obtain ⟨node, hnode, hmap⟩ := Option.bind_eq_some_iff.mp hbind
    obtain ⟨other, hother, rfl⟩ := Option.map_eq_some_iff.mp hmap
    exact ⟨Store.mem_values_of_get hnode, Store.mem_values_of_get hother⟩

/-- **Every candidate is unreconciled, paired, or added.** -/
theorem candidates_accounted :
    ((pair_nodes mint committed candidate).unreconciled.map (fun pair => pair.2.uid) ++
      (pair_nodes mint committed candidate).pairs.map (fun pair => pair.2.uid) ++
      (pair_nodes mint committed candidate).leftover_candidates).Perm
      (candidate.values.map SourceNode.uid) := by
  have hsplit := matches_split_uids mint committed candidate Prod.snd Prod.snd
    fun _ => rfl
  refine (hsplit.append_right _).trans ?_
  rw [List.append_assoc]
  refine ((relaxed_matches_accounted mint committed candidate).2.append_left _).trans ?_
  have hprimary := (primary_accounted mint committed candidate).map SourceNode.uid
  rw [List.map_append, List.map_map] at hprimary
  exact hprimary

/-- **Every committed node is unreconciled, paired, or removed.** -/
theorem committed_accounted (hmint : ∀ i, committed.get (mint i) = none) :
    ((pair_nodes mint committed candidate).unreconciled.map (fun pair => pair.1.uid) ++
      (pair_nodes mint committed candidate).pairs.map (fun pair => pair.1.uid) ++
      (pair_nodes mint committed candidate).leftover_committed).Perm
      (committed.values.map SourceNode.uid) := by
  have hsplit := matches_split_uids mint committed candidate Prod.fst Prod.fst
    fun _ => rfl
  refine (hsplit.append_right _).trans ?_
  rw [List.append_assoc]
  refine ((relaxed_matches_accounted mint committed candidate).1.append_left _).trans ?_
  obtain ⟨htaken, hsub⟩ := primary_matches_taken candidate hmint
  have hstruck := (append_struck committed.values_keys_nodup htaken hsub).map SourceNode.uid
  have huids : ((primary_matches mint committed candidate).map Prod.fst).map SourceNode.uid =
      (primary_matches mint committed candidate).map fun pair => pair.1.uid :=
    List.map_map
  rw [List.map_append, huids] at hstruck
  rw [huids]
  exact hstruck

/-- **Every pair's candidate is looked up under the committed uid.** -/
theorem reconciled_uid_get {pair : SourceNode × SourceNode}
    (hpair : pair ∈ (pair_nodes mint committed candidate).pairs) :
    (pair_nodes mint committed candidate).reconciled_uid.get pair.2.uid =
      some (pair.2.uid, pair.1.uid) := by
  have hnodup : ((pair_nodes mint committed candidate).pairs.map fun pair => pair.2.uid).Nodup := by
    have hall := (candidates_accounted mint committed candidate).nodup_iff.mpr
      candidate.values_keys_nodup
    exact (List.nodup_append'.mp (List.nodup_append'.mp hall).1).2.1
  rw [pairs_eq] at hpair hnodup
  rw [List.map_append, List.nodup_append'] at hnodup
  obtain ⟨-, hresolved, hdisjoint⟩ := hnodup
  have hfresh : (((resolved_matches mint committed candidate).map fun pair =>
      (pair.2.uid, pair.1.uid)).map Prod.fst).Nodup := by
    rw [List.map_map]
    exact hresolved
  rw [reconciled_uid_eq]
  rcases List.mem_append.mp hpair with hprimary | hrelaxed
  · rw [UidMap.get_extend_of_not_mem hfresh fun hmem => hdisjoint (List.mem_map_of_mem hprimary)
      (by rwa [List.map_map] at hmem)]
    obtain ⟨hentry, -⟩ := mem_primary_matches (List.mem_of_mem_filter hprimary)
    have hentries : ((reconcile mint committed (candidate.values.map to_candidate)).1.map
        fun entry => (entry.candidate.provisional_id, entry.uid)) =
        ((reconciled_uids mint committed candidate).zip candidate.values).map
          fun entry => (entry.2.uid, entry.1) := by
      rw [reconcile_to_candidate, List.map_map]
      rfl
    have hkeys : ((((reconciled_uids mint committed candidate).zip candidate.values).map
        fun entry => (entry.2.uid, entry.1)).map Prod.fst).Nodup := by
      have hzip := List.map_snd_zip
        (Nat.le_of_eq (length_reconciled_uids mint committed candidate).symm)
      have huids := candidate.values_keys_nodup
      rw [← hzip, List.map_map] at huids
      rw [List.map_map]
      exact huids
    have hmem : (pair.2.uid, pair.1.uid) ∈
        ((reconciled_uids mint committed candidate).zip candidate.values).map
          fun entry => (entry.2.uid, entry.1) :=
      List.mem_map.mpr ⟨(pair.1.uid, pair.2), hentry, rfl⟩
    rw [hentries, UidMap.get_extend_of_mem hkeys hmem]
  · have hmem : (pair.2.uid, pair.1.uid) ∈
        (resolved_matches mint committed candidate).map fun pair => (pair.2.uid, pair.1.uid) :=
      List.mem_map.mpr ⟨pair, hrelaxed, rfl⟩
    rw [UidMap.get_extend_of_mem hfresh hmem]

end Stages

end Evidence.Corpus
