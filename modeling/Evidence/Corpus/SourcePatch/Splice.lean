/-
`corpus/source_patch/apply.rs` -- removing a node and promoting its children.

`reparent_children` collects the earlier siblings, the children and the later siblings of the
removed node by three filters over the graph, and numbers the merged sequence in one pass. Over
a valid graph the pass is an exact splice (`Spliced`): the children take the place of the removed
node among its siblings, and nothing else moves.

The ordinals are `u32`. A merged sequence with more than `2 ^ 32` nodes, which two full sibling
sets can make, is numbered from zero again at its end, and this is the one exception
(`reparent_children_splices_iff`).
-/
import Evidence.Lines
import Evidence.Corpus.SourcePatch.Frame
import Evidence.Lib.Lists

set_option autoImplicit false

namespace Evidence.Corpus

open Sorting

/-! ## Sorted siblings -/

theorem sortBy_of_increasing {l l' : List SourceNode} (hperm : l.Perm l')
    (hsorted : l.Pairwise fun a b => a.ordinal.toNat < b.ordinal.toNat) :
    sortBy sibling_cmp l' = l := by
  have hle : l.Pairwise fun a b => (sibling_cmp a b).isLE = true := by
    refine hsorted.imp fun {a b} hab => ?_
    have hlt : compare a.ordinal b.ordinal = .lt :=
      Std.compare_eq_lt.mpr (UInt32.lt_iff_toNat_lt.mpr hab)
    rw [sibling_cmp, compareLex, compareOn, hlt]
    rfl
  have hnodup : (l.map fun node => node.ordinal.toNat).Nodup :=
    List.pairwise_map.mpr (hsorted.imp fun hab => Nat.ne_of_lt hab)
  rw [← sortBy_congr hperm, sortBy_eq_self hle]
  intro a ha b hb hab
  rw [sibling_cmp, compareLex, Ordering.then_eq_eq] at hab
  have hordinal : a.ordinal = b.ordinal := Std.LawfulEqCmp.compare_eq_iff_eq.mp hab.1
  exact List.inj_on_of_nodup_map hnodup ha hb (congrArg UInt32.toNat hordinal)

theorem siblings_of_increasing {graph : SourceGraph} {parent_uid : Option String}
    {l : List SourceNode} (hperm : l.Perm (children graph parent_uid))
    (hsorted : l.Pairwise fun a b => a.ordinal.toNat < b.ordinal.toNat) :
    siblings graph parent_uid = l :=
  sortBy_of_increasing hperm hsorted

theorem mem_siblings {graph : SourceGraph} {parent_uid : Option String} {node : SourceNode} :
    node ∈ siblings graph parent_uid ↔ node ∈ graph.values ∧ node.parent_uid = parent_uid := by
  rw [siblings, mem_sortBy, List.mem_filter, beq_iff_eq]

theorem siblings_nodup (graph : SourceGraph) (parent_uid : Option String) :
    (siblings graph parent_uid).Nodup :=
  (siblings_perm graph parent_uid).nodup_iff.mpr (graph.values_nodup.filter _)

theorem Forest.siblings_numbered [Sha256] {media_type : String} {graph : SourceGraph}
    (h : Forest media_type graph) (parent_uid : Option String) :
    ((siblings graph parent_uid).map fun node => node.ordinal.toNat) =
      List.range (siblings graph parent_uid).length := by
  have hperm := ((siblings_perm graph parent_uid).map fun node => node.ordinal.toNat).trans
    (h.numbered parent_uid)
  rw [← (siblings_perm graph parent_uid).length_eq] at hperm
  refine hperm.eq_of_pairwise (fun a b _ _ hab hba => Nat.le_antisymm hab hba) ?_ ?_
  · exact List.pairwise_map.mpr (siblings_sorted graph parent_uid)
  · exact List.pairwise_le_range

theorem Forest.siblings_increasing [Sha256] {media_type : String} {graph : SourceGraph}
    (h : Forest media_type graph) (parent_uid : Option String) :
    (siblings graph parent_uid).Pairwise fun a b => a.ordinal.toNat < b.ordinal.toNat := by
  have hrange := List.pairwise_lt_range (n := (siblings graph parent_uid).length)
  rw [← h.siblings_numbered, List.pairwise_map] at hrange
  exact hrange

/-! ## The renumbering pass -/

/-- A node at a position of the merged sequence. -/
def placed (parent : Option String) (promoted : List String) (index : ℕ) (node : SourceNode) :
    SourceNode :=
  { node with
    ordinal := UInt32.ofNat index
    parent_uid := if node.uid ∈ promoted then parent else node.parent_uid }

theorem get_place_sibling (parent : Option String) (promoted : List String) (graph : SourceGraph)
    (entry : String × ℕ) (uid : String) :
    (place_sibling parent promoted graph entry).get uid =
      if entry.1 = uid then (graph.get uid).map (placed parent promoted entry.2)
      else graph.get uid := by
  rw [place_sibling, SourceGraph.node_mut]
  by_cases huid : entry.1 = uid
  · rw [if_pos huid, ← huid]
    cases hget : graph.get entry.1 with
    | none => exact hget
    | some node =>
      simp only [Option.getD_some, Store.get_modify, if_true, hget, Option.map_some, placed,
        get_uid _ _ hget]
  · rw [if_neg huid]
    cases hget : graph.get entry.1 with
    | none => rfl
    | some node => simp only [Option.getD_some, Store.get_modify, if_neg huid]

/-- **The pass writes every node of the merged sequence at its position**, and no other node. The
induction is on the sequence; its uids differ, so that no position is written over. -/
theorem get_foldl_place (parent : Option String) (promoted : List String) {uids : List String}
    (hnodup : uids.Nodup) (start : ℕ) (graph : SourceGraph) (uid : String) :
    ((uids.zipIdx start).foldl (place_sibling parent promoted) graph).get uid =
      if uid ∈ uids then (graph.get uid).map (placed parent promoted (start + uids.idxOf uid))
      else graph.get uid := by
  induction uids generalizing start graph with
  | nil => rfl
  | cons first uids ih =>
    rw [List.nodup_cons] at hnodup
    rw [List.zipIdx_cons, List.foldl_cons, ih hnodup.2, get_place_sibling]
    by_cases huid : first = uid
    · rw [← huid, if_neg hnodup.1, if_pos rfl, if_pos List.mem_cons_self, List.idxOf_cons_self,
        Nat.add_zero]
    · have hmem : uid ∈ first :: uids ↔ uid ∈ uids := by
        rw [List.mem_cons]
        exact or_iff_right fun h => huid h.symm
      rw [if_neg huid, List.idxOf_cons_ne _ huid, Nat.add_assoc, Nat.add_comm 1]
      simp only [hmem]

/-! ## The splice -/

/-- **The exact splice** of a node out of a graph: its children take its place among its siblings,
numbered from zero on; nothing else moves, and nothing but places changes. -/
structure Spliced (graph : SourceGraph) (removed : SourceNode) (graph' : SourceGraph) : Prop where
  /-- The children stand, in their order, where the removed node stood. -/
  merged : ∃ earlier later,
    (siblings graph removed.parent_uid).map SourceNode.uid = earlier ++ removed.uid :: later ∧
    (siblings graph' removed.parent_uid).map SourceNode.uid =
      earlier ++ (siblings graph (some removed.uid)).map SourceNode.uid ++ later
  numbered : ((siblings graph' removed.parent_uid).map fun node => node.ordinal.toNat) =
    List.range (siblings graph' removed.parent_uid).length
  gone : graph'.get removed.uid = none
  /-- Nothing is left under the removed node. -/
  left : siblings graph' (some removed.uid) = []
  /-- Every other sibling set is as it was. -/
  others : ∀ parent_uid, parent_uid ≠ removed.parent_uid → parent_uid ≠ some removed.uid →
    siblings graph' parent_uid = siblings graph parent_uid
  /-- Every other node keeps all of its fields but its place. -/
  bodies : ∀ uid, uid ≠ removed.uid → graph'.body uid = graph.body uid

section Splice

variable {graph : SourceGraph} {removed : SourceNode}

def earlier_siblings (graph : SourceGraph) (removed : SourceNode) : List SourceNode :=
  (siblings graph removed.parent_uid).filter fun node => node.ordinal < removed.ordinal

def later_siblings (graph : SourceGraph) (removed : SourceNode) : List SourceNode :=
  (siblings graph removed.parent_uid).filter fun node => removed.ordinal < node.ordinal

/-- The merged sequence. -/
def merged_siblings (graph : SourceGraph) (removed : SourceNode) : List SourceNode :=
  earlier_siblings graph removed ++ siblings graph (some removed.uid) ++
    later_siblings graph removed

/-- The uids of the promoted children, in order. -/
def promoted_uids (graph : SourceGraph) (removed : SourceNode) : List String :=
  (siblings graph (some removed.uid)).map SourceNode.uid

/-- The node of the merged sequence at a position, as the pass leaves it. -/
def relocated (removed : SourceNode) (entry : SourceNode × ℕ) : SourceNode :=
  { entry.1 with
    ordinal := UInt32.ofNat entry.2
    parent_uid := removed.parent_uid }

variable [Sha256] {media_type : String}

theorem Forest.siblings_around (h : Forest media_type graph) (hremoved : removed ∈ graph.values) :
    siblings graph removed.parent_uid =
      earlier_siblings graph removed ++ removed :: later_siblings graph removed := by
  have hsplit := Lists.filter_lt_append_filter_gt (h.siblings_increasing removed.parent_uid)
    (mem_siblings.mpr ⟨hremoved, rfl⟩)
  simp only [earlier_siblings, later_siblings, UInt32.lt_iff_toNat_lt]
  exact hsplit.symm

theorem Forest.parent_ne_self (h : Forest media_type graph) {node : SourceNode}
    (hnode : node ∈ graph.values) : node.parent_uid ≠ some node.uid := by
  intro hself
  obtain ⟨above, habove⟩ := h.rooted node hnode
  have havoid := SourceGraph.Lineage.not_self hnode habove
  rw [hself] at habove
  cases habove with
  | step hget _ =>
    exact havoid _ List.mem_cons_self (List.mem_singleton.mpr (get_uid _ _ hget))

theorem Forest.mem_merged (h : Forest media_type graph) (hremoved : removed ∈ graph.values)
    {node : SourceNode} :
    node ∈ merged_siblings graph removed ↔ node ∈ graph.values ∧ node.uid ≠ removed.uid ∧
      (node.parent_uid = removed.parent_uid ∨ node.parent_uid = some removed.uid) := by
  have hself := h.parent_ne_self hremoved
  have hsiblings : node ∈ earlier_siblings graph removed ∨ node ∈ later_siblings graph removed ↔
      node ∈ siblings graph removed.parent_uid ∧ node ≠ removed := by
    have hnodup := siblings_nodup graph removed.parent_uid
    rw [h.siblings_around hremoved, List.nodup_middle, List.nodup_cons] at hnodup
    rw [h.siblings_around hremoved, List.mem_append, List.mem_cons]
    rw [List.mem_append] at hnodup
    constructor
    · intro hmem
      refine ⟨hmem.imp_right .inr, fun heq => hnodup.1 (heq ▸ hmem)⟩
    · rintro ⟨hmem, hne⟩
      exact hmem.imp_right fun hmem => hmem.resolve_left hne
  have huid : node ∈ graph.values → (node ≠ removed ↔ node.uid ≠ removed.uid) := fun hnode =>
    not_congr ⟨congrArg _, Store.eq_of_mem_values hnode hremoved⟩
  rw [merged_siblings, List.mem_append, List.mem_append, or_right_comm, hsiblings, mem_siblings,
    mem_siblings]
  constructor
  · rintro (⟨⟨hnode, hparent⟩, hne⟩ | ⟨hnode, hparent⟩)
    · exact ⟨hnode, (huid hnode).mp hne, .inl hparent⟩
    · refine ⟨hnode, (huid hnode).mp fun heq => hself ?_, .inr hparent⟩
      rw [← hparent, heq]
  · rintro ⟨hnode, hne, hparent | hparent⟩
    · exact .inl ⟨⟨hnode, hparent⟩, (huid hnode).mpr hne⟩
    · exact .inr ⟨hnode, hparent⟩

theorem Forest.merged_uids_nodup (h : Forest media_type graph) (hremoved : removed ∈ graph.values) :
    ((merged_siblings graph removed).map SourceNode.uid).Nodup := by
  have hothers : (earlier_siblings graph removed ++ later_siblings graph removed).Nodup := by
    have hnodup := siblings_nodup graph removed.parent_uid
    rw [h.siblings_around hremoved, List.nodup_middle, List.nodup_cons] at hnodup
    exact hnodup.2
  have hdisjoint : (earlier_siblings graph removed ++ later_siblings graph removed).Disjoint
      (siblings graph (some removed.uid)) := by
    intro node hnode hchild
    refine h.parent_ne_self hremoved ?_
    rw [← (mem_siblings.mp hchild).2]
    rcases List.mem_append.mp hnode with hnode | hnode
    · exact (mem_siblings.mp (List.mem_of_mem_filter hnode)).2.symm
    · exact (mem_siblings.mp (List.mem_of_mem_filter hnode)).2.symm
  have hnodup := hothers.append (siblings_nodup graph _) hdisjoint
  have hperm : (merged_siblings graph removed).Perm
      (earlier_siblings graph removed ++ later_siblings graph removed ++
        siblings graph (some removed.uid)) := by
    rw [merged_siblings, List.append_assoc, List.append_assoc]
    exact List.perm_append_comm.append_left _
  refine (hperm.nodup_iff.mpr hnodup).map_on ?_
  intro a ha b hb hab
  exact Store.eq_of_mem_values ((h.mem_merged hremoved).mp ha).1 ((h.mem_merged hremoved).mp hb).1
    hab

omit [Sha256] in
theorem ordered_uids_removed {l : List SourceNode} {p : SourceNode → Bool}
    (hincreasing : l.Pairwise fun a b => a.ordinal.toNat < b.ordinal.toNat)
    (hmem : ∀ node, node ∈ l ↔ node ∈ graph.values ∧ node.uid ≠ removed.uid ∧ p node = true) :
    ordered_uids (graph.remove removed.uid) p = l.map SourceNode.uid := by
  have hnodup : l.Nodup := by
    refine hincreasing.imp ?_
    intro a b hab heq
    exact Nat.ne_of_lt hab (congrArg (fun node => node.ordinal.toNat) heq)
  have hvalues : ∀ node, node ∈ Store.values (graph.remove removed.uid) ↔
      node ∈ graph.values ∧ node.uid ≠ removed.uid := by
    intro node
    rw [Store.mem_values, Store.mem_values, Store.get_remove]
    split
    · next heq => simp [heq]
    · next hne => exact (and_iff_left fun heq => hne heq.symm).symm
  have hperm : l.Perm ((Store.values (graph.remove removed.uid)).filter p) := by
    refine (List.perm_ext_iff_of_nodup hnodup ((Store.values_nodup _).filter _)).mpr fun node => ?_
    rw [hmem, List.mem_filter, hvalues, and_assoc]
  rw [ordered_uids, sortBy_of_increasing hperm hincreasing]

/-- **The pass over a forest** numbers the merged sequence. -/
theorem Forest.reparent_children_eq (h : Forest media_type graph)
    (hremoved : removed ∈ graph.values) :
    reparent_children graph removed.uid =
      ((merged_siblings graph removed).map SourceNode.uid).zipIdx.foldl
        (place_sibling removed.parent_uid (promoted_uids graph removed))
        (graph.remove removed.uid) := by
  have hincreasing := h.siblings_increasing removed.parent_uid
  have hself : ∀ node ∈ graph.values, node.ordinal ≠ removed.ordinal → node.uid ≠ removed.uid :=
    fun node hnode hne heq => hne (congrArg _ (Store.eq_of_mem_values hnode hremoved heq))
  have hearlier : (ordered_uids (graph.remove removed.uid) fun node =>
      node.parent_uid == removed.parent_uid && node.ordinal < removed.ordinal) =
      (earlier_siblings graph removed).map SourceNode.uid := by
    refine ordered_uids_removed (hincreasing.filter _) fun node => ?_
    rw [earlier_siblings, List.mem_filter, mem_siblings, Bool.and_eq_true, beq_iff_eq,
      decide_eq_true_iff]
    constructor
    · rintro ⟨⟨hnode, hparent⟩, hlt⟩
      exact ⟨hnode, hself node hnode (UInt32.ne_of_lt hlt), hparent, hlt⟩
    · rintro ⟨hnode, -, hparent, hlt⟩
      exact ⟨⟨hnode, hparent⟩, hlt⟩
  have hlater : (ordered_uids (graph.remove removed.uid) fun node =>
      node.parent_uid == removed.parent_uid && removed.ordinal < node.ordinal) =
      (later_siblings graph removed).map SourceNode.uid := by
    refine ordered_uids_removed (hincreasing.filter _) fun node => ?_
    rw [later_siblings, List.mem_filter, mem_siblings, Bool.and_eq_true, beq_iff_eq,
      decide_eq_true_iff]
    constructor
    · rintro ⟨⟨hnode, hparent⟩, hlt⟩
      exact ⟨hnode, hself node hnode (UInt32.ne_of_lt hlt).symm, hparent, hlt⟩
    · rintro ⟨hnode, -, hparent, hlt⟩
      exact ⟨⟨hnode, hparent⟩, hlt⟩
  have hpromoted : (ordered_uids (graph.remove removed.uid) fun node =>
      node.parent_uid == some removed.uid) = promoted_uids graph removed := by
    refine ordered_uids_removed (h.siblings_increasing _) fun node => ?_
    rw [mem_siblings, beq_iff_eq]
    constructor
    · rintro ⟨hnode, hparent⟩
      refine ⟨hnode, fun heq => h.parent_ne_self hnode ?_, hparent⟩
      rw [hparent, heq]
    · rintro ⟨hnode, -, hparent⟩
      exact ⟨hnode, hparent⟩
  rw [reparent_children, SourceGraph.remove_node, Store.mem_values.mp hremoved]
  simp only [hearlier, hlater, hpromoted]
  rw [merged_siblings, List.map_append, List.map_append, promoted_uids]

/-- **What the pass leaves under a uid.** -/
theorem Forest.get_reparented (h : Forest media_type graph) (hremoved : removed ∈ graph.values)
    (uid : String) :
    (reparent_children graph removed.uid).get uid =
      if uid = removed.uid then none
      else if uid ∈ (merged_siblings graph removed).map SourceNode.uid then
        (graph.get uid).map (placed removed.parent_uid (promoted_uids graph removed)
          (((merged_siblings graph removed).map SourceNode.uid).idxOf uid))
      else graph.get uid := by
  rw [h.reparent_children_eq hremoved, get_foldl_place _ _ (h.merged_uids_nodup hremoved),
    Store.get_remove, Nat.zero_add]
  by_cases huid : uid = removed.uid
  · have hnot : uid ∉ (merged_siblings graph removed).map SourceNode.uid := by
      intro hmem
      obtain ⟨node, hnode, rfl⟩ := List.mem_map.mp hmem
      exact ((h.mem_merged hremoved).mp hnode).2.1 huid
    rw [if_neg hnot, if_pos huid.symm, if_pos huid]
  · rw [if_neg fun heq : removed.uid = uid => huid heq.symm, if_neg huid]

theorem Forest.placed_eq (h : Forest media_type graph) (hremoved : removed ∈ graph.values)
    {node : SourceNode} (hnode : node ∈ merged_siblings graph removed) (index : ℕ) :
    placed removed.parent_uid (promoted_uids graph removed) index node =
      relocated removed (node, index) := by
  obtain ⟨hmem, -, hparent⟩ := (h.mem_merged hremoved).mp hnode
  rw [placed, relocated]
  congr 1
  by_cases hpromoted : node.uid ∈ promoted_uids graph removed
  · rw [if_pos hpromoted]
  · rw [if_neg hpromoted]
    refine hparent.resolve_right fun hchild => hpromoted ?_
    exact List.mem_map_of_mem (mem_siblings.mpr ⟨hmem, hchild⟩)

/-- **The nodes the pass leaves** are those of the merged sequence at their positions, and those
that were neither there nor the removed node. -/
theorem Forest.mem_reparented (h : Forest media_type graph) (hremoved : removed ∈ graph.values)
    {node : SourceNode} :
    node ∈ (reparent_children graph removed.uid).values ↔
      node ∈ (merged_siblings graph removed).zipIdx.map (relocated removed) ∨
        node ∈ graph.values ∧ node.uid ≠ removed.uid ∧ node.parent_uid ≠ removed.parent_uid ∧
          node.parent_uid ≠ some removed.uid := by
  have hnodup := h.merged_uids_nodup hremoved
  have hplaced : node ∈ (merged_siblings graph removed).zipIdx.map (relocated removed) ↔
      ∃ old ∈ merged_siblings graph removed, relocated removed
        (old, ((merged_siblings graph removed).map SourceNode.uid).idxOf old.uid) = node := by
    simp only [List.mem_map, Prod.exists, List.mk_mem_zipIdx_iff_getElem?,
      Lists.getElem?_eq_iff_idxOf hnodup]
    constructor
    · rintro ⟨old, index, ⟨hold, rfl⟩, hnode⟩
      exact ⟨old, hold, hnode⟩
    · rintro ⟨old, hold, hnode⟩
      exact ⟨old, _, ⟨hold, rfl⟩, hnode⟩
  rw [hplaced, Store.mem_values, h.get_reparented hremoved]
  constructor
  · intro hget
    split at hget
    · cases hget
    · next hne =>
      split at hget
      · next hmem =>
        left
        obtain ⟨old, hold, huid⟩ := List.mem_map.mp hmem
        refine ⟨old, hold, ?_⟩
        have hfound := Store.mem_values.mp ((h.mem_merged hremoved).mp hold).1
        rw [huid] at hfound
        rw [hfound, Option.map_some, h.placed_eq hremoved hold, Option.some.injEq] at hget
        rw [huid]
        exact hget
      · next hnot =>
        have hnode := Store.mem_values.mpr hget
        refine .inr ⟨hnode, hne, not_or.mp fun hparent => hnot ?_⟩
        exact List.mem_map_of_mem ((h.mem_merged hremoved).mpr ⟨hnode, hne, hparent⟩)
  · rintro (⟨old, hold, hnode⟩ | ⟨hnode, hne, hparent, hchild⟩)
    · obtain ⟨hmem, hne, -⟩ := (h.mem_merged hremoved).mp hold
      have huid : node.uid = old.uid := by
        rw [← hnode]
        rfl
      rw [huid, if_neg hne, if_pos (List.mem_map_of_mem hold), Store.mem_values.mp hmem,
        Option.map_some, h.placed_eq hremoved hold, hnode]
    · have hnot : node.uid ∉ (merged_siblings graph removed).map SourceNode.uid := by
        intro hmem
        obtain ⟨old, hold, huid⟩ := List.mem_map.mp hmem
        obtain ⟨hmem, -, hplace⟩ := (h.mem_merged hremoved).mp hold
        rw [Store.eq_of_mem_values hmem hnode huid] at hplace
        exact hplace.elim hparent hchild
      rw [if_neg hne, if_neg hnot]
      exact Store.mem_values.mp hnode

/-! ## When the pass is exact -/

theorem Forest.merged_length (h : Forest media_type graph) (hremoved : removed ∈ graph.values) :
    (merged_siblings graph removed).length =
      (siblings graph removed.parent_uid).length - 1 +
        (siblings graph (some removed.uid)).length := by
  rw [h.siblings_around hremoved, merged_siblings]
  simp only [List.length_append, List.length_cons]
  omega

omit [Sha256] in
/-- **A sequence that is too long for its ordinals is not spliced in.** -/
theorem Spliced.fits {graph' : SourceGraph} (h : Spliced graph removed graph') :
    (siblings graph removed.parent_uid).length - 1 +
      (siblings graph (some removed.uid)).length ≤ 2 ^ 32 := by
  obtain ⟨earlier, later, hbefore, hafter⟩ := h.merged
  have hlength := congrArg List.length hbefore
  have hlength' := congrArg List.length hafter
  simp only [List.length_map, List.length_append, List.length_cons] at hlength hlength'
  by_contra hlong
  -- the member at position `2 ^ 32` has an ordinal below it
  have hlast : 2 ^ 32 < (siblings graph' removed.parent_uid).length := by omega
  have hmem : 2 ^ 32 ∈ (siblings graph' removed.parent_uid).map fun node => node.ordinal.toNat := by
    rw [h.numbered]
    exact List.mem_range.mpr hlast
  obtain ⟨node, -, hordinal⟩ := List.mem_map.mp hmem
  exact absurd hordinal (Nat.ne_of_lt node.ordinal.toNat_lt)

/-- The merged sequence as the pass leaves it, when its ordinals fit. -/
theorem Forest.siblings_reparented (h : Forest media_type graph)
    (hremoved : removed ∈ graph.values)
    (hfits : (merged_siblings graph removed).length ≤ 2 ^ 32) :
    siblings (reparent_children graph removed.uid) removed.parent_uid =
        (merged_siblings graph removed).zipIdx.map (relocated removed) ∧
      (((merged_siblings graph removed).zipIdx.map (relocated removed)).map fun node =>
        node.ordinal.toNat) = List.range (merged_siblings graph removed).length := by
  have hordinals : (((merged_siblings graph removed).zipIdx.map (relocated removed)).map fun node =>
      node.ordinal.toNat) = List.range (merged_siblings graph removed).length := by
    rw [List.map_map, List.range_eq_range', ← List.zipIdx_map_snd 0 (merged_siblings graph removed)]
    refine List.map_congr_left fun entry hentry => ?_
    have hlt : entry.2 < (merged_siblings graph removed).length :=
      (List.getElem?_eq_some_iff.mp (List.mem_zipIdx_iff_getElem?.mp hentry)).1
    exact UInt32.toNat_ofNat_of_lt' (hlt.trans_le hfits)
  have hincreasing : ((merged_siblings graph removed).zipIdx.map (relocated removed)).Pairwise
      fun a b => a.ordinal.toNat < b.ordinal.toNat := by
    have hrange := List.pairwise_lt_range (n := (merged_siblings graph removed).length)
    rw [← hordinals, List.pairwise_map] at hrange
    exact hrange
  refine ⟨siblings_of_increasing ?_ hincreasing, hordinals⟩
  have hnodup : ((merged_siblings graph removed).zipIdx.map (relocated removed)).Nodup := by
    refine hincreasing.imp ?_
    intro a b hab heq
    exact Nat.ne_of_lt hab (congrArg (fun node => node.ordinal.toNat) heq)
  refine (List.perm_ext_iff_of_nodup hnodup ((Store.values_nodup _).filter _)).mpr fun node => ?_
  rw [List.mem_filter, h.mem_reparented hremoved, beq_iff_eq]
  constructor
  · intro hmem
    refine ⟨.inl hmem, ?_⟩
    obtain ⟨entry, -, rfl⟩ := List.mem_map.mp hmem
    rfl
  · rintro ⟨hmem | ⟨-, -, hne, -⟩, hparent⟩
    · exact hmem
    · exact absurd hparent hne

/-- **The pass is an exact splice when the ordinals of the merged sequence fit.** -/
theorem Forest.spliced (h : Forest media_type graph) (hremoved : removed ∈ graph.values)
    (hfits : (merged_siblings graph removed).length ≤ 2 ^ 32) :
    Spliced graph removed (reparent_children graph removed.uid) := by
  obtain ⟨hsiblings, hordinals⟩ := h.siblings_reparented hremoved hfits
  refine ⟨⟨(earlier_siblings graph removed).map SourceNode.uid,
    (later_siblings graph removed).map SourceNode.uid, ?_, ?_⟩, ?_, ?_, ?_, ?_, ?_⟩
  · rw [h.siblings_around hremoved, List.map_append, List.map_cons]
  · have huids : ((merged_siblings graph removed).zipIdx.map (relocated removed)).map
        SourceNode.uid = (merged_siblings graph removed).map SourceNode.uid := by
      have hentry : SourceNode.uid ∘ relocated removed = SourceNode.uid ∘ Prod.fst := rfl
      rw [List.map_map, hentry, ← List.map_map, List.zipIdx_map_fst]
    rw [hsiblings, huids, merged_siblings, List.map_append, List.map_append]
  · rw [hsiblings, hordinals, List.length_map, List.length_zipIdx]
  · rw [h.get_reparented hremoved, if_pos rfl]
  · refine List.eq_nil_iff_forall_not_mem.mpr fun node hnode => ?_
    obtain ⟨hmem, hparent⟩ := mem_siblings.mp hnode
    rcases (h.mem_reparented hremoved).mp hmem with hmem | ⟨-, -, -, hne⟩
    · obtain ⟨entry, -, rfl⟩ := List.mem_map.mp hmem
      exact h.parent_ne_self hremoved hparent
    · exact hne hparent
  · intro parent_uid hne hchild
    refine siblings_of_increasing ?_ (h.siblings_increasing parent_uid)
    refine (List.perm_ext_iff_of_nodup (siblings_nodup _ _)
      ((Store.values_nodup _).filter _)).mpr fun node => ?_
    rw [mem_siblings, List.mem_filter, h.mem_reparented hremoved, beq_iff_eq]
    constructor
    · rintro ⟨hnode, rfl⟩
      refine ⟨.inr ⟨hnode, fun heq => hne ?_, hne, hchild⟩, rfl⟩
      rw [Store.eq_of_mem_values hnode hremoved heq]
    · rintro ⟨hmem | ⟨hnode, -⟩, hparent⟩
      · obtain ⟨entry, -, rfl⟩ := List.mem_map.mp hmem
        exact absurd hparent.symm hne
      · exact ⟨hnode, hparent⟩
  · intro uid hne
    rw [reparent_children_body, if_neg fun heq => hne heq.symm]

/-- **Removing a node and promoting its children is an exact splice exactly when the merged
sibling set has at most `2 ^ 32` members**: over every valid graph, and for every node of it. -/
theorem reparent_children_splices_iff {revision_uid target_uid : String}
    (hvalid : validate_graph_standalone revision_uid media_type graph = .ok ())
    (hget : graph.get target_uid = some removed) :
    Spliced graph removed (reparent_children graph target_uid) ↔
      (siblings graph removed.parent_uid).length - 1 +
        (siblings graph (some target_uid)).length ≤ 2 ^ 32 := by
  have hforest := validate_graph_standalone_ok_iff.mp hvalid
  have hremoved := Store.mem_values_of_get hget
  obtain rfl : removed.uid = target_uid := get_uid _ _ hget
  constructor
  · exact Spliced.fits
  · intro hfits
    rw [← hforest.merged_length hremoved] at hfits
    exact hforest.spliced hremoved hfits

end Splice

/-! ## Crowded graphs

Two roots, and `n` paragraphs under the first of them. -/

section Crowded

variable [Sha256]

def first_root : SourceNode := committed_root "r" "revision" .Section 0 none ""

def second_root : SourceNode := committed_root "s" "revision" .Section 1 none ""

/-- The paragraph at a position under the first root. -/
def crowd_member (index : ℕ) : SourceNode :=
  { committed_root ("c" ++ decimal index) "revision" .Paragraph (UInt32.ofNat index) none "" with
    parent_uid := some "r"
    fingerprint := fingerprint .Paragraph none [first_root.pair] }

def crowd (n : ℕ) : List SourceNode :=
  first_root :: second_root :: (List.range n).map crowd_member

def crowded (n : ℕ) : SourceGraph := Store.ofList (crowd n)

variable (n : ℕ)

theorem crowd_uids_nodup : ((crowd n).map SourceNode.uid).Nodup := by
  have hmember : ∀ (text : String) (c : Char), text.toList = [c] → c ≠ 'c' →
      text ∉ ((List.range n).map crowd_member).map SourceNode.uid := by
    intro text c htext hc hmem
    rw [List.map_map, List.mem_map] at hmem
    obtain ⟨index, -, rfl⟩ := hmem
    have hhead := congrArg List.head? htext
    rw [Function.comp_apply, crowd_member, committed_root, String.toList_append] at hhead
    exact hc (Option.some.inj hhead).symm
  have hroots : (first_root.uid : String) ∉ second_root.uid ::
      ((List.range n).map crowd_member).map SourceNode.uid := by
    rw [List.mem_cons, not_or]
    exact ⟨(by decide : "r" ≠ "s"), hmember "r" 'r' rfl (by decide)⟩
  refine List.nodup_cons.mpr ⟨hroots, List.nodup_cons.mpr ⟨hmember "s" 's' rfl (by decide), ?_⟩⟩
  rw [List.map_map]
  refine List.nodup_range.map fun i j hij => ?_
  exact decimal_inj.mp (String.append_right_inj "c" |>.mp hij)

theorem mem_crowded {node : SourceNode} :
    node ∈ (crowded n).values ↔
      node = first_root ∨ node = second_root ∨ ∃ index < n, crowd_member index = node := by
  rw [crowded, Store.mem_values_ofList (crowd_uids_nodup n), crowd, List.mem_cons, List.mem_cons,
    List.mem_map]
  simp only [List.mem_range]

theorem get_first_root : (crowded n).get "r" = some first_root :=
  Store.mem_values.mp ((mem_crowded n).mpr (.inl rfl))

theorem children_crowded_perm (parent_uid : Option String) :
    (children (crowded n) parent_uid).Perm
      ((crowd n).filter fun node => node.parent_uid == parent_uid) :=
  (Store.values_ofList_perm (crowd_uids_nodup n)).filter _

theorem filter_crowd (parent_uid : Option String) :
    ((crowd n).filter fun node => node.parent_uid == parent_uid) =
      (if parent_uid = none then [first_root, second_root] else []) ++
        if parent_uid = some "r" then (List.range n).map crowd_member else [] := by
  have hmembers : (((List.range n).map crowd_member).filter fun node =>
      node.parent_uid == parent_uid) =
      if parent_uid = some "r" then (List.range n).map crowd_member else [] := by
    split
    · next hparent =>
      refine List.filter_eq_self.mpr fun node hnode => ?_
      obtain ⟨index, -, rfl⟩ := List.mem_map.mp hnode
      exact beq_iff_eq.mpr hparent.symm
    · next hparent =>
      refine List.filter_eq_nil_iff.mpr fun node hnode => ?_
      obtain ⟨index, -, rfl⟩ := List.mem_map.mp hnode
      exact fun heq => hparent (beq_iff_eq.mp heq).symm
  rw [crowd, List.filter_cons, List.filter_cons, hmembers]
  cases parent_uid with
  | none => rfl
  | some uid => rfl

theorem siblings_crowded_length (parent_uid : Option String) :
    (siblings (crowded n) parent_uid).length =
      ((crowd n).filter fun node => node.parent_uid == parent_uid).length :=
  ((siblings_perm _ _).trans (children_crowded_perm n parent_uid)).length_eq

/-- **A crowded graph is valid** as long as the ordinals of its paragraphs fit. -/
theorem crowded_forest (hn : n ≤ 2 ^ 32) : Forest "text/html" (crowded n) where
  rooted := by
    intro node hnode
    rcases (mem_crowded n).mp hnode with rfl | rfl | ⟨index, -, rfl⟩
    · exact ⟨[], .root⟩
    · exact ⟨[], .root⟩
    · exact ⟨[first_root], .step (get_first_root n) .root⟩
  legal := by
    intro node hnode uid parent hparent hget
    rcases (mem_crowded n).mp hnode with rfl | rfl | ⟨index, -, rfl⟩
    · cases hparent
    · cases hparent
    · obtain rfl : "r" = uid := Option.some.inj hparent
      rw [get_first_root, Option.some.injEq] at hget
      rw [← hget]
      rfl
  content := by
    intro node hnode
    rcases (mem_crowded n).mp hnode with rfl | rfl | ⟨index, -, rfl⟩ <;> rfl
  fingerprint := by
    intro node hnode above habove
    rcases (mem_crowded n).mp hnode with rfl | rfl | ⟨index, -, rfl⟩
    · cases habove
      rfl
    · cases habove
      rfl
    · cases habove with
      | step hget hup =>
        rw [get_first_root, Option.some.injEq] at hget
        subst hget
        cases hup
        rfl
  medium := by
    intro node hnode
    have hhtml : node.locator.expected_media_type = "text/html" := by
      rcases (mem_crowded n).mp hnode with rfl | rfl | ⟨index, -, rfl⟩ <;> rfl
    rw [hhtml]
    decide +kernel
  numbered := by
    intro parent_uid
    have hperm := children_crowded_perm n parent_uid
    rw [hperm.length_eq]
    refine (hperm.map _).trans (List.Perm.of_eq ?_)
    rw [filter_crowd]
    cases parent_uid with
    | none => rfl
    | some uid =>
      by_cases huid : uid = "r"
      · simp only [huid, reduceCtorEq, if_false, if_true, List.nil_append, List.map_map,
          List.length_map, List.length_range]
        refine (List.map_congr_left fun index hindex => ?_).trans (List.map_id _)
        exact UInt32.toNat_ofNat_of_lt' ((List.mem_range.mp hindex).trans_le hn)
      · simp only [reduceCtorEq, if_false, Option.some.injEq, huid, List.nil_append, List.map_nil,
          List.length_nil, List.range_zero]

theorem crowded_length : (siblings (crowded n) first_root.parent_uid).length - 1 +
    (siblings (crowded n) (some first_root.uid)).length = n + 1 := by
  rw [siblings_crowded_length, siblings_crowded_length, filter_crowd, filter_crowd]
  have hroot : first_root.parent_uid = none := rfl
  have huid : first_root.uid = "r" := rfl
  rw [hroot, huid]
  simp only [if_true, reduceCtorEq, if_false, List.append_nil, List.nil_append, List.length_cons,
    List.length_nil, List.length_map, List.length_range]
  omega

end Crowded

section Runs

attribute [local instance] fips180

/-- Two paragraphs take the place of their parent before the second root. -/
theorem reparent_children_splices_crowd :
    Spliced (crowded 2) first_root (reparent_children (crowded 2) "r") := by
  have hforest : Forest "text/html" (crowded 2) := crowded_forest 2 (by decide)
  have hvalid : validate_graph_standalone "revision" "text/html" (crowded 2) = .ok () :=
    validate_graph_standalone_ok_iff.mpr hforest
  refine (reparent_children_splices_iff hvalid (get_first_root 2)).mpr ?_
  rw [show some "r" = some first_root.uid from rfl, crowded_length]
  decide

/-- **A removal that is no splice**: a root gives its `2 ^ 32` children to the set of the two
roots, and the last of them is numbered zero again. -/
theorem reparent_children_wraps :
    validate_graph_standalone "revision" "text/html" (crowded (2 ^ 32)) = .ok () ∧
      (crowded (2 ^ 32)).get "r" = some first_root ∧
      ¬ Spliced (crowded (2 ^ 32)) first_root (reparent_children (crowded (2 ^ 32)) "r") := by
  refine ⟨validate_graph_standalone_ok_iff.mpr (crowded_forest _ le_rfl), get_first_root _, ?_⟩
  intro hspliced
  have hfits := hspliced.fits
  rw [crowded_length] at hfits
  exact absurd hfits (by decide)

end Runs

end Evidence.Corpus
