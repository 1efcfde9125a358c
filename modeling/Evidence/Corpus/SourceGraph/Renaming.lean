/-
Source graphs up to the names of their nodes.

Every ingestion mints uids of its own, so a re-ingestion of one document is the
committed graph under other names. `Renames f` says that: the nodes of one graph are
those of the other with every uid, and every parent, sent through `f`, and `f` keeps
the nodes apart.

Nothing that the invariants of a graph speak about is a name, so a renaming of a
forest is a forest (`Forest.rename`).
-/
import Mathlib.Data.List.Perm.Basic
import Evidence.Corpus.SourceGraph.Identity

set_option autoImplicit false

namespace Evidence.Corpus

open Climb

/-! ## Renaming -/

/-- A node under its new name, below its renamed parent. -/
def rename_node (f : String → String) (node : SourceNode) : SourceNode :=
  { node with
    uid := f node.uid
    parent_uid := node.parent_uid.map f }

theorem rename_node_id (node : SourceNode) : rename_node id node = node := by
  rw [rename_node, Option.map_id]
  rfl

structure Renames (f : String → String) (committed candidate : SourceGraph) : Prop where
  distinct : DistinctIds committed f
  nodes : ∀ node, node ∈ candidate.values ↔ ∃ m ∈ committed.values, rename_node f m = node

theorem Renames.refl (graph : SourceGraph) : Renames id graph graph where
  distinct := fun _ ha _ hb huid => Store.eq_of_mem_values ha hb huid
  nodes := by
    intro node
    simp only [rename_node_id, exists_eq_right]

section Nodes

variable {f : String → String} {committed candidate : SourceGraph}

theorem Renames.mem (h : Renames f committed candidate) {node : SourceNode}
    (hnode : node ∈ committed.values) : rename_node f node ∈ candidate.values :=
  (h.nodes _).mpr ⟨node, hnode, rfl⟩

/-- A node is found under its new name. -/
theorem Renames.get (h : Renames f committed candidate) {uid : String} {node : SourceNode}
    (hget : committed.get uid = some node) : candidate.get (f uid) = some (rename_node f node) := by
  rw [← get_uid uid node hget]
  exact Store.mem_values.mp (h.mem (Store.mem_values_of_get hget))

theorem Renames.perm (h : Renames f committed candidate) :
    candidate.values.Perm (committed.values.map (rename_node f)) := by
  have hnodup : (committed.values.map (rename_node f)).Nodup := by
    refine committed.values_nodup.map_on ?_
    intro a ha b hb heq
    exact h.distinct a ha b hb (congrArg SourceNode.uid heq)
  refine (List.perm_ext_iff_of_nodup candidate.values_nodup hnodup).mpr fun node => ?_
  rw [h.nodes node, List.mem_map]

theorem Renames.listing (h : Renames f committed candidate) :
    ∃ order : List SourceNode, order.Perm committed.values ∧
      candidate.values = order.map (rename_node f) := by
  have hsame : List.Forall₂ (fun node m => node = rename_node f m)
      (committed.values.map (rename_node f)) committed.values := by
    rw [List.forall₂_map_left_iff]
    exact List.forall₂_same.mpr fun _ _ => rfl
  obtain ⟨order, hall, hperm⟩ := List.perm_comp_forall₂ h.perm hsame
  refine ⟨order, hperm, ?_⟩
  rw [← List.forall₂_eq_eq_eq, List.forall₂_map_right_iff]
  exact hall

theorem Renames.lineage (h : Renames f committed candidate) {current : Option String}
    {above : List SourceNode} (habove : committed.Lineage current above) :
    candidate.Lineage (current.map f) (above.map (rename_node f)) :=
  habove.map f (rename_node f) (fun _ _ hget => h.get hget) fun _ _ _ => rfl

end Nodes

/-! ## Renamed forests -/

section Forests

variable [Sha256] {f : String → String} {media_type : String} {committed candidate : SourceGraph}

/-- Parents are told apart under their new names. -/
theorem Renames.parent_inj (h : Renames f committed candidate) (hforest : Forest media_type committed)
    {a b : SourceNode} (ha : a ∈ committed.values) (hb : b ∈ committed.values)
    (heq : a.parent_uid.map f = b.parent_uid.map f) : a.parent_uid = b.parent_uid := by
  cases hup : a.parent_uid with
  | none =>
    rw [hup] at heq
    exact (Option.map_eq_none_iff.mp heq.symm).symm
  | some p =>
    rw [hup] at heq
    obtain ⟨q, hup', hpq⟩ := Option.map_eq_some_iff.mp heq.symm
    -- both parents are nodes, and the renaming keeps nodes apart
    obtain ⟨above, hget⟩ := hforest.parent_get ha hup
    obtain ⟨above', hget'⟩ := hforest.parent_get hb hup'
    have hsame : above = above' := by
      refine h.distinct _ (Store.mem_values_of_get hget) _ (Store.mem_values_of_get hget') ?_
      rw [get_uid _ _ hget, get_uid _ _ hget', hpq]
    rw [hup', ← get_uid _ _ hget, ← get_uid _ _ hget', hsame]

theorem Renames.children_perm (h : Renames f committed candidate)
    (hforest : Forest media_type committed) {node : SourceNode} (hnode : node ∈ committed.values) :
    (children candidate (node.parent_uid.map f)).Perm
      ((children committed node.parent_uid).map (rename_node f)) := by
  have hperm := h.perm.filter fun m => m.parent_uid == node.parent_uid.map f
  rw [List.filter_map] at hperm
  refine hperm.trans (List.Perm.of_eq (congrArg (List.map (rename_node f)) ?_))
  refine List.filter_congr fun m hm => ?_
  rw [Function.comp_apply, Bool.eq_iff_iff, beq_iff_eq, beq_iff_eq]
  constructor
  · exact h.parent_inj hforest hm hnode
  · exact congrArg (Option.map f)

/-- **A renaming of a forest is a forest.** -/
theorem Forest.rename (hforest : Forest media_type committed)
    (h : Renames f committed candidate) : Forest media_type candidate where
  rooted := by
    intro node hnode
    obtain ⟨m, hm, rfl⟩ := (h.nodes node).mp hnode
    obtain ⟨above, habove⟩ := hforest.rooted m hm
    exact ⟨_, h.lineage habove⟩
  legal := by
    intro node hnode uid parent hparent hget
    obtain ⟨m, hm, rfl⟩ := (h.nodes node).mp hnode
    obtain ⟨p, hup, rfl⟩ := Option.map_eq_some_iff.mp hparent
    obtain ⟨above, habove⟩ := hforest.parent_get hm hup
    rw [h.get habove] at hget
    cases hget
    exact hforest.legal m hm p above hup habove
  content := by
    intro node hnode
    obtain ⟨m, hm, rfl⟩ := (h.nodes node).mp hnode
    exact hforest.content m hm
  fingerprint := by
    intro node hnode above habove
    obtain ⟨m, hm, rfl⟩ := (h.nodes node).mp hnode
    obtain ⟨own, hown⟩ := hforest.rooted m hm
    have hline : above = own.map (rename_node f) := habove.unique (h.lineage hown)
    rw [hline, ← List.map_reverse, List.map_map]
    exact hforest.fingerprint m hm own hown
  medium := by
    intro node hnode
    obtain ⟨m, hm, rfl⟩ := (h.nodes node).mp hnode
    exact hforest.medium m hm
  numbered := by
    intro parent_uid
    by_cases hnone : children candidate parent_uid = []
    · rw [hnone]
      exact List.Perm.nil
    · obtain ⟨node, hnode⟩ := List.exists_mem_of_ne_nil _ hnone
      obtain ⟨hnode, hparent⟩ := List.mem_filter.mp hnode
      obtain ⟨m, hm, rfl⟩ := (h.nodes node).mp hnode
      obtain rfl : m.parent_uid.map f = parent_uid := beq_iff_eq.mp hparent
      have hperm := h.children_perm hforest hm
      rw [hperm.length_eq, List.length_map]
      refine (hperm.map _).trans ?_
      rw [List.map_map]
      exact hforest.numbered m.parent_uid

end Forests

end Evidence.Corpus
