/-
`context/lookup.rs` -- the parents of a report, as a visit in two layers.

`roll_up_parents` follows the links of the listed requirements and, of each high-level
requirement it comes to, the links of that one. It is a layered visit of the links in
order: the upper layer are the high-level requirements, the lower one the system
requirements (`roll_up_shows`). With distinct ids the rows are strictly sorted, and which
rows there are is read off the two layers.
-/
import Evidence.Context.Lookup
import Evidence.Lib.LayeredVisit
import Evidence.Lib.Lists

set_option autoImplicit false

namespace Evidence.Context

open LayeredVisit Sorting
open Trace (HlrEntry LlrEntry)

/-! ## Entries by uid -/

theorem by_uid_eq_some_iff {pool : List HlrEntry} (hnodup : (pool.filterMap HlrEntry.uid).Nodup)
    {uid : String} {entry : HlrEntry} :
    by_uid pool uid = some entry ↔ entry ∈ pool ∧ entry.uid = some uid := by
  rw [by_uid, List.findRev?_eq_find?_reverse]
  constructor
  · intro h
    refine ⟨List.mem_reverse.mp (List.mem_of_find?_eq_some h), ?_⟩
    exact beq_iff_eq.mp (List.find?_some (p := fun e : HlrEntry => e.uid == some uid) h)
  · rintro ⟨hmem, huid⟩
    cases hfind : pool.reverse.find? fun e => e.uid == some uid with
    | none =>
      have hnone := List.find?_eq_none.mp hfind entry (List.mem_reverse.mpr hmem)
      exact absurd (beq_iff_eq.mpr huid) hnone
    | some other =>
      have hother : other.uid = some uid :=
        beq_iff_eq.mp (List.find?_some (p := fun e : HlrEntry => e.uid == some uid) hfind)
      have hother_mem : other ∈ pool := List.mem_reverse.mp (List.mem_of_find?_eq_some hfind)
      rw [Lists.inj_on_of_nodup_filterMap hnodup hother_mem hmem hother huid]

theorem nodup_filterMap_by_uid {pool : List HlrEntry}
    (hnodup : (pool.filterMap HlrEntry.uid).Nodup) {uids : List String} (huids : uids.Nodup) :
    (uids.filterMap (by_uid pool)).Nodup := by
  refine List.Nodup.filterMap (fun u u' entry hu hu' => ?_) huids
  have huid := ((by_uid_eq_some_iff hnodup).mp hu).2
  rw [((by_uid_eq_some_iff hnodup).mp hu').2] at huid
  exact (Option.some.inj huid).symm

/-! ## The visit -/

/-- The links of the high-level requirement with a uid. -/
def hlr_links (hlr_pool : List HlrEntry) (uid : String) : Option (List String) :=
  (by_uid hlr_pool uid).map HlrEntry.traces_to

def layer_entries (pool : List HlrEntry) (uids : List String) : List HlrEntry :=
  uids.filterMap (by_uid pool)

def layer_rows (hlr_pool sys_pool : List HlrEntry) (v : Visit String) : List ParentRef :=
  (layer_entries hlr_pool v.upper).map hlr_to_parent_ref ++
    (layer_entries sys_pool v.lower).map sys_to_parent_ref

/-- The roll-up shows a visit: the uids seen are the keys seen, and the rows are those of
the layers. -/
def RollUp.Shows (hlr_pool sys_pool : List HlrEntry) (r : RollUp) (v : Visit String) : Prop :=
  r.seen = v.seen ∧ r.rows.Perm (layer_rows hlr_pool sys_pool v)

variable {hlr_pool sys_pool : List HlrEntry} {r : RollUp} {v : Visit String}

theorem layer_entries_concat (pool : List HlrEntry) (uids : List String) (uid : String) :
    layer_entries pool (uids ++ [uid]) = layer_entries pool uids ++ (by_uid pool uid).toList := by
  rw [layer_entries, List.filterMap_append]
  cases hfind : by_uid pool uid with
  | none => rw [List.filterMap_cons_none hfind]; rfl
  | some entry => rw [List.filterMap_cons_some hfind]; rfl

/-- A link of a high-level requirement is a key of the lower layer. -/
theorem grandparent_shows (h : r.Shows hlr_pool sys_pool v) (uid : String) :
    (r.grandparent sys_pool uid).Shows hlr_pool sys_pool (v.below uid) := by
  obtain ⟨hseen, hrows⟩ := h
  unfold RollUp.grandparent Visit.below
  rw [hseen]
  by_cases huid : uid ∈ v.seen
  · rw [if_pos huid, if_pos huid]
    exact ⟨hseen, hrows⟩
  · rw [if_neg huid, if_neg huid]
    refine ⟨rfl, ?_⟩
    rw [layer_rows, layer_entries_concat, List.map_append, ← List.append_assoc,
      ← Option.toList_map]
    exact hrows.append_right _

theorem foldl_grandparent_shows (h : r.Shows hlr_pool sys_pool v) (uids : List String) :
    (uids.foldl (RollUp.grandparent sys_pool) r).Shows hlr_pool sys_pool
      (uids.foldl Visit.below v) := by
  induction uids generalizing r v with
  | nil => exact h
  | cons uid uids ih => exact ih (grandparent_shows h uid)

/-- A link of a low-level requirement is a key of the order. -/
theorem parent_shows (h : r.Shows hlr_pool sys_pool v) (uid : String) :
    (r.parent hlr_pool sys_pool uid).Shows hlr_pool sys_pool
      (v.visit (hlr_links hlr_pool) uid) := by
  obtain ⟨hseen, hrows⟩ := h
  unfold RollUp.parent Visit.visit
  rw [hseen]
  by_cases huid : uid ∈ v.seen
  · rw [if_pos huid, if_pos huid]
    exact ⟨hseen, hrows⟩
  · rw [if_neg huid, if_neg huid]
    unfold hlr_links
    cases hfind : by_uid hlr_pool uid with
    | none => exact ⟨rfl, hrows⟩
    | some hlr =>
      refine foldl_grandparent_shows ⟨rfl, ?_⟩ hlr.traces_to
      -- the new row stands behind the rows of both layers
      rw [layer_rows, layer_entries_concat, hfind, Option.toList_some, List.map_append]
      refine (hrows.append_right _).trans ?_
      rw [layer_rows, List.append_assoc, List.append_assoc]
      exact List.Perm.append_left _ List.perm_append_comm

/-- **The roll-up shows the visit of all links in order.** -/
theorem roll_up_shows (llrs : List LlrEntry) (hlr_pool sys_pool : List HlrEntry) :
    (llrs.foldl (fun r llr => llr.traces_to.foldl (RollUp.parent hlr_pool sys_pool) r)
      RollUp.start).Shows hlr_pool sys_pool
        (run (hlr_links hlr_pool) (llrs.flatMap LlrEntry.traces_to)) := by
  rw [← List.foldl_flatMap]
  generalize llrs.flatMap LlrEntry.traces_to = order
  induction order using List.reverseRecOn with
  | nil => exact ⟨rfl, List.Perm.nil⟩
  | append_singleton order uid ih =>
    rw [run_concat, List.foldl_append]
    exact parent_shows ih uid

/-! ## The rows -/

/-- **The rows are the entries of the two layers.** -/
theorem mem_roll_up_parents {llrs : List LlrEntry} {row : ParentRef} :
    row ∈ roll_up_parents llrs hlr_pool sys_pool ↔
      (∃ uid ∈ (run (hlr_links hlr_pool) (llrs.flatMap LlrEntry.traces_to)).upper,
        ∃ hlr, by_uid hlr_pool uid = some hlr ∧ hlr_to_parent_ref hlr = row) ∨
      ∃ uid ∈ (run (hlr_links hlr_pool) (llrs.flatMap LlrEntry.traces_to)).lower,
        ∃ sys, by_uid sys_pool uid = some sys ∧ sys_to_parent_ref sys = row := by
  rw [roll_up_parents, mem_sortBy, (roll_up_shows llrs hlr_pool sys_pool).2.mem_iff, layer_rows,
    List.mem_append]
  simp only [layer_entries, List.mem_map, List.mem_filterMap]
  constructor
  · rintro (⟨hlr, ⟨uid, huid, hfind⟩, hrow⟩ | ⟨sys, ⟨uid, huid, hfind⟩, hrow⟩)
    · exact .inl ⟨uid, huid, hlr, hfind, hrow⟩
    · exact .inr ⟨uid, huid, sys, hfind, hrow⟩
  · rintro (⟨uid, huid, hlr, hfind, hrow⟩ | ⟨uid, huid, sys, hfind, hrow⟩)
    · exact .inl ⟨hlr, ⟨uid, huid, hfind⟩, hrow⟩
    · exact .inr ⟨sys, ⟨uid, huid, hfind⟩, hrow⟩

theorem layer_rows_ids (v : Visit String) : (layer_rows hlr_pool sys_pool v).map ParentRef.id =
    (layer_entries hlr_pool v.upper ++ layer_entries sys_pool v.lower).map HlrEntry.id := by
  rw [layer_rows, List.map_append, List.map_map, List.map_map, List.map_append]
  rfl

/-- **With distinct ids and uids the rows are strictly sorted by id**: no entry is listed
twice. -/
theorem roll_up_parents_strict (hhlr : (hlr_pool.filterMap HlrEntry.uid).Nodup)
    (hsys : (sys_pool.filterMap HlrEntry.uid).Nodup)
    (hids : ((hlr_pool ++ sys_pool).map HlrEntry.id).Nodup) (llrs : List LlrEntry) :
    (roll_up_parents llrs hlr_pool sys_pool).Pairwise fun a b =>
      compareOn ParentRef.id a b = .lt := by
  refine sortBy_strict_on ?_
  have hperm := (roll_up_shows llrs hlr_pool sys_pool).2
  obtain ⟨⟨hupper, _⟩, hlower, _⟩ :=
    run_once (hlr_links hlr_pool) (llrs.flatMap LlrEntry.traces_to)
  rw [(hperm.map ParentRef.id).nodup_iff, layer_rows_ids]
  -- an entry of a layer is of its pool
  have hmem : ∀ pool : List HlrEntry, (pool.filterMap HlrEntry.uid).Nodup → ∀ uids,
      ∀ entry ∈ layer_entries pool uids, entry ∈ pool := by
    intro pool hpool uids entry hentry
    obtain ⟨uid, _, hfind⟩ := List.mem_filterMap.mp hentry
    exact ((by_uid_eq_some_iff hpool).mp hfind).1
  refine List.Nodup.map_on ?_ ?_
  · intro a ha b hb hab
    refine List.inj_on_of_nodup_map hids ?_ ?_ hab
    · exact List.mem_append.mpr ((List.mem_append.mp ha).imp (hmem _ hhlr _ a) (hmem _ hsys _ a))
    · exact List.mem_append.mpr ((List.mem_append.mp hb).imp (hmem _ hhlr _ b) (hmem _ hsys _ b))
  · refine List.nodup_append'.mpr ⟨nodup_filterMap_by_uid hhlr hupper,
      nodup_filterMap_by_uid hsys hlower, fun entry hentry hentry' => ?_⟩
    have hdisjoint := (List.nodup_append'.mp (List.Nodup.of_map HlrEntry.id hids)).2.2
    exact hdisjoint (hmem _ hhlr _ entry hentry) (hmem _ hsys _ entry hentry')

end Evidence.Context
