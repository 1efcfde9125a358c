/-
The node comparison of a document that has not changed.

The candidate graph is the committed graph under names of its own. The primary stage
then serves every candidate a committed node of its own structural key, so nothing is
minted and nothing is left for the relaxed passes (`primary_offers_renamed`).

With distinct keys every node is paired with itself, and the pair differs in no field:
its parents render as one uid. With a key of several nodes the match is reported
instead of compared. So the comparison is silent exactly when the keys are distinct
and every locator equals itself (`compare_nodes_renamed`).
-/
import Evidence.Corpus.Drift.Silent
import Evidence.Corpus.SourceGraph.Renaming

set_option autoImplicit false

namespace Evidence.Corpus

open Climb Pairing Queues Sorting

/-! ## Distinct keys -/

section Keys

variable [Sha256]

/-- The structural keys of a graph are pairwise distinct. -/
def DistinctKeys (graph : SourceGraph) : Prop :=
  ∀ a ∈ graph.values, ∀ b ∈ graph.values, structural_key a graph = structural_key b graph → a = b

theorem is_ambiguous_eq_false_iff {graph : SourceGraph} {node : SourceNode}
    (hnode : node ∈ graph.values) :
    is_ambiguous graph node = false ↔
      ∀ other ∈ graph.values, structural_key other graph = structural_key node graph →
        other = node := by
  have hown : node.uid ∈ key_pool graph (structural_key node graph) :=
    mem_key_pool.mpr ⟨node, hnode, rfl, rfl⟩
  rw [is_ambiguous, decide_eq_false_iff_not, not_lt]
  constructor
  · intro hle other hother hkey
    have hmem : other.uid ∈ key_pool graph (structural_key node graph) :=
      mem_key_pool.mpr ⟨other, hother, hkey, rfl⟩
    by_contra hne
    have huids : [node.uid, other.uid].Nodup := by
      refine List.nodup_cons.mpr ⟨fun heq => hne ?_, List.nodup_singleton _⟩
      exact Store.eq_of_mem_values hother hnode (List.mem_singleton.mp heq).symm
    have hsub : [node.uid, other.uid] ⊆ key_pool graph (structural_key node graph) :=
      List.cons_subset.mpr ⟨hown, List.cons_subset.mpr ⟨hmem, List.nil_subset _⟩⟩
    have hlength := (huids.subperm hsub).length_le
    rw [List.length_cons, List.length_singleton] at hlength
    omega
  · intro hall
    have hsub : key_pool graph (structural_key node graph) ⊆ [node.uid] := by
      intro uid huid
      obtain ⟨other, hother, hkey, rfl⟩ := mem_key_pool.mp huid
      rw [hall other hother hkey]
      exact List.mem_singleton_self _
    exact ((key_pool_nodup graph _).subperm hsub).length_le

theorem distinctKeys_iff {graph : SourceGraph} :
    DistinctKeys graph ↔ ∀ node ∈ graph.values, is_ambiguous graph node = false := by
  constructor
  · intro h node hnode
    exact (is_ambiguous_eq_false_iff hnode).mpr fun other hother hkey => h other hother node hnode hkey
  · intro h a ha b hb hkey
    exact (is_ambiguous_eq_false_iff hb).mp (h b hb) a ha hkey

theorem is_ambiguous_congr {graph : SourceGraph} {a b : SourceNode}
    (h : structural_key a graph = structural_key b graph) :
    is_ambiguous graph a = is_ambiguous graph b := by
  rw [is_ambiguous, is_ambiguous, h]

/-! ## The primary stage -/

section Stage

variable {f : String → String} {media_type : String} {committed candidate : SourceGraph}
  {order : List SourceNode}

theorem reconciled_uids_renamed (mint : ℕ → String) (hforest : Forest media_type committed)
    (h : Renames f committed candidate) (horder : order.Perm committed.values)
    (hlist : candidate.values = order.map (rename_node f)) :
    reconciled_uids mint committed candidate =
      (serve mint 0 (key_pool committed) (order.map fun n => structural_key n committed)).1 := by
  have hproject : candidate.values.map to_candidate = order.map (project f) := by
    rw [hlist, List.map_map]
    rfl
  rw [reconciled_uids, hproject, candidate_keys_project hforest h.distinct horder]

/-- **Every candidate of a renamed graph is matched with a committed node of its own
key**, and nothing is left for the relaxed passes. -/
theorem primary_matches_renamed (mint : ℕ → String) (hforest : Forest media_type committed)
    (h : Renames f committed candidate) (horder : order.Perm committed.values)
    (hlist : candidate.values = order.map (rename_node f)) :
    List.Forall₂ (fun node pair => pair.1 ∈ committed.values ∧ pair.2 = rename_node f node ∧
        structural_key pair.1 committed = structural_key node committed) order
        (primary_matches mint committed candidate) ∧
      unpaired (primary_offers committed candidate
        (reconcile mint committed (candidate.values.map to_candidate)).1) = [] := by
  obtain ⟨hserved, -⟩ := serve_key_pools mint horder
  rw [primary_matches]
  refine forall₂_paired ?_
  rw [primary_offers_eq, reconciled_uids_renamed mint hforest h horder hlist, hlist,
    List.zip_map_right, List.map_map]
  generalize (serve mint 0 (key_pool committed)
    (order.map fun n => structural_key n committed)).1 = uids at hserved
  clear hlist horder
  induction hserved with
  | nil => exact .nil
  | cons huid _ ih =>
    obtain ⟨counterpart, hcounterpart, rfl, hkey⟩ := huid
    exact .cons ⟨counterpart, Store.mem_values.mp hcounterpart, hcounterpart, rfl, hkey⟩ ih

theorem primary_matches_distinct (mint : ℕ → String) (hforest : Forest media_type committed)
    (h : Renames f committed candidate) (hkeys : DistinctKeys committed)
    (horder : order.Perm committed.values)
    (hlist : candidate.values = order.map (rename_node f)) :
    primary_matches mint committed candidate =
      order.map fun node => (node, rename_node f node) := by
  obtain ⟨hall, -⟩ := primary_matches_renamed mint hforest h horder hlist
  have hmem : ∀ node ∈ order, node ∈ committed.values := fun node => horder.mem_iff.mp
  rw [eq_comm, ← List.forall₂_eq_eq_eq, List.forall₂_map_left_iff]
  refine ((List.forall₂_and_left order _).mpr ⟨hmem, hall⟩).imp ?_
  rintro node ⟨counterpart, renamed⟩ ⟨hnode, hcounterpart, hrenamed, hkey⟩
  rw [Prod.mk.injEq]
  exact ⟨(hkeys counterpart hcounterpart node hnode hkey).symm, hrenamed.symm⟩

/-- **With distinct keys the pairs are the nodes with themselves**, and everyone is in
one. -/
theorem pair_nodes_distinct (mint : ℕ → String) (hforest : Forest media_type committed)
    (h : Renames f committed candidate) (hkeys : DistinctKeys committed)
    (horder : order.Perm committed.values)
    (hlist : candidate.values = order.map (rename_node f)) :
    (pair_nodes mint committed candidate).unreconciled = [] ∧
      (pair_nodes mint committed candidate).pairs =
        order.map (fun node => (node, rename_node f node)) ∧
      (pair_nodes mint committed candidate).leftover_committed = [] ∧
      (pair_nodes mint committed candidate).leftover_candidates = [] := by
  have hmatches := primary_matches_distinct mint hforest h hkeys horder hlist
  obtain ⟨-, hunpaired⟩ := primary_matches_renamed mint hforest h horder hlist
  have hclear : ∀ pair ∈ primary_matches mint committed candidate,
      is_ambiguous committed pair.1 = false := by
    intro pair hpair
    rw [hmatches] at hpair
    obtain ⟨node, hnode, rfl⟩ := List.mem_map.mp hpair
    exact distinctKeys_iff.mp hkeys node (horder.mem_iff.mp hnode)
  -- every committed node is struck off, so both relaxed passes are over nothing
  have hstruck : (committed.values.filter fun node => node.uid ∉
      ((primary_matches mint committed candidate).map Prod.fst).map SourceNode.uid) = [] := by
    refine List.filter_eq_nil_iff.mpr fun node hnode hleft => of_decide_eq_true hleft ?_
    rw [hmatches, List.map_map, List.map_map]
    exact List.mem_map.mpr ⟨node, horder.mem_iff.mpr hnode, rfl⟩
  obtain ⟨hcommitted, hcandidates⟩ := relaxed_matches_accounted mint committed candidate
  rw [hstruck, List.map_nil] at hcommitted
  rw [hunpaired, List.map_nil] at hcandidates
  obtain ⟨hpairs, hremoved⟩ := List.append_eq_nil_iff.mp hcommitted.eq_nil
  obtain ⟨-, hadded⟩ := List.append_eq_nil_iff.mp hcandidates.eq_nil
  have hresolved : resolved_matches mint committed candidate = [] := by
    rw [resolved_matches, List.map_eq_nil_iff.mp hpairs]
    rfl
  refine ⟨?_, ?_, hremoved, hadded⟩
  · rw [unreconciled_eq, List.filter_eq_nil_iff]
    intro pair hpair
    rw [hclear pair hpair]
    exact Bool.false_ne_true
  · rw [pairs_eq, hresolved, List.append_nil, List.filter_eq_self.mpr, hmatches]
    intro pair hpair
    rw [hclear pair hpair]
    rfl

theorem distinctKeys_of_reconciled (mint : ℕ → String) (hforest : Forest media_type committed)
    (h : Renames f committed candidate)
    (hnone : (pair_nodes mint committed candidate).unreconciled = []) : DistinctKeys committed := by
  obtain ⟨order, horder, hlist⟩ := h.listing
  obtain ⟨hall, -⟩ := primary_matches_renamed mint hforest h horder hlist
  rw [unreconciled_eq, List.filter_eq_nil_iff] at hnone
  have hclear : ∀ pair ∈ primary_matches mint committed candidate,
      is_ambiguous committed pair.1 = false :=
    fun pair hpair => Bool.eq_false_iff.mpr (hnone pair hpair)
  have hboth := ((List.forall₂_and_left _ _).mpr ⟨hclear, hall.flip⟩).flip
  have hnodes : List.Forall₂ (fun node _ => is_ambiguous committed node = false ∧ True) order
      (primary_matches mint committed candidate) := by
    refine hboth.imp ?_
    rintro node pair ⟨hpair, -, -, hkey⟩
    exact ⟨(is_ambiguous_congr hkey).symm.trans hpair, trivial⟩
  obtain ⟨horderly, -⟩ := (List.forall₂_and_left order _).mp hnodes
  exact distinctKeys_iff.mpr fun node hnode => horderly node (horder.mem_iff.mpr hnode)

theorem reconciled_uid_renamed (mint : ℕ → String) (hforest : Forest media_type committed)
    (h : Renames f committed candidate) (hkeys : DistinctKeys committed) {node : SourceNode}
    (hnode : node ∈ committed.values) :
    (pair_nodes mint committed candidate).reconciled_uid.get (f node.uid) =
      some (f node.uid, node.uid) := by
  obtain ⟨order, horder, hlist⟩ := h.listing
  obtain ⟨-, hpairs, -⟩ := pair_nodes_distinct mint hforest h hkeys horder hlist
  have hpair : (node, rename_node f node) ∈ (pair_nodes mint committed candidate).pairs := by
    rw [hpairs]
    exact List.mem_map.mpr ⟨node, horder.mem_iff.mpr hnode, rfl⟩
  have hget := reconciled_uid_get mint committed candidate hpair
  exact hget

/-- **The parents of a node and of its renaming render as one.** -/
theorem rendered_parents_renamed (mint : ℕ → String) (hforest : Forest media_type committed)
    (h : Renames f committed candidate) (hkeys : DistinctKeys committed) {node : SourceNode}
    (hnode : node ∈ committed.values) :
    (rendered_parents committed (pair_nodes mint committed candidate).reconciled_uid node
        (rename_node f node)).1 =
      (rendered_parents committed (pair_nodes mint committed candidate).reconciled_uid node
        (rename_node f node)).2 := by
  unfold rendered_parents rename_node
  cases hup : node.parent_uid with
  | none => rfl
  | some uid =>
    obtain ⟨parent, hget⟩ := hforest.parent_get hnode hup
    have huid := get_uid uid parent hget
    have hmapped := reconciled_uid_renamed mint hforest h hkeys (Store.mem_values_of_get hget)
    rw [huid] at hmapped
    simp only [Option.map_some, Option.getD_some, hmapped, hget, Option.isSome_some, if_true]

end Stage

/-! ## The comparison -/

section Comparison

variable [F64Display] {f : String → String} {media_type : String}
  {committed candidate : SourceGraph}

theorem compare_matched_renamed (mint : ℕ → String) (hforest : Forest media_type committed)
    (h : Renames f committed candidate) (hkeys : DistinctKeys committed) {node : SourceNode}
    (hnode : node ∈ committed.values) :
    compare_matched committed (pair_nodes mint committed candidate).reconciled_uid
        (node, rename_node f node) = [] ↔ node.locator.Agrees node.locator := by
  rw [compare_matched_eq_nil_iff]
  constructor
  · rintro ⟨-, -, -, -, -, -, -, hlocator⟩
    exact hlocator
  · intro hlocator
    exact ⟨rfl, rendered_parents_renamed mint hforest h hkeys hnode, rfl, rfl, rfl, rfl, rfl,
      hlocator⟩

/-- **The node comparison of an unchanged document** is silent exactly when the
structural keys are distinct and every locator equals itself. -/
theorem compare_nodes_renamed (mint : ℕ → String) (hforest : Forest media_type committed)
    (h : Renames f committed candidate) :
    compare_nodes mint committed candidate = [] ↔
      DistinctKeys committed ∧
        ∀ node ∈ committed.values, node.locator.Agrees node.locator := by
  obtain ⟨order, horder, hlist⟩ := h.listing
  simp only [compare_nodes, List.append_eq_nil_iff, List.map_eq_nil_iff, List.flatMap_eq_nil_iff]
  constructor
  · rintro ⟨⟨⟨hunreconciled, hpairs⟩, -⟩, -⟩
    have hkeys := distinctKeys_of_reconciled mint hforest h hunreconciled
    obtain ⟨-, heq, -⟩ := pair_nodes_distinct mint hforest h hkeys horder hlist
    refine ⟨hkeys, fun node hnode => ?_⟩
    refine (compare_matched_renamed mint hforest h hkeys hnode).mp (hpairs _ ?_)
    rw [heq]
    exact List.mem_map.mpr ⟨node, horder.mem_iff.mpr hnode, rfl⟩
  · rintro ⟨hkeys, hlocators⟩
    obtain ⟨hunreconciled, hpairs, hremoved, hadded⟩ :=
      pair_nodes_distinct mint hforest h hkeys horder hlist
    refine ⟨⟨⟨hunreconciled, fun pair hpair => ?_⟩, hadded⟩, hremoved⟩
    rw [hpairs] at hpair
    obtain ⟨node, hnode, rfl⟩ := List.mem_map.mp hpair
    have hmem := horder.mem_iff.mp hnode
    exact (compare_matched_renamed mint hforest h hkeys hmem).mpr (hlocators node hmem)

end Comparison

end Keys

end Evidence.Corpus
