/-
The **keyed store layer**: a sorted map whose values carry their own key.

A record type with an identity field is usually held in a sorted map from that
identity to the record, and every function over it assumes that the entry under
`k` is a record whose identity is `k`. `Store key` carries that assumption as a
field, so a store in which it fails cannot be built, and its values are listed
in key order without their keys.

Three facts describe each write, one for what it stores and one for what it
leaves alone: they are the `get_…` lemmas. Two stores with the same lookups are
equal (`Store.ext`), and so are two stores that list the same values.

A `Tally` is a store of 32-bit counts, which wrap. Bumped by every key of a list, it has
the keys of the list, each with the number of times it comes up, modulo the range of the
count (`count_of_foldl`).
-/
import Mathlib.Data.List.Induction
import Mathlib.Data.List.Sort

set_option autoImplicit false

open Std

structure Store {κ ν : Type*} [Ord κ] [TransOrd κ] (key : ν → κ) where
  /-- The underlying sorted map. -/
  map : ExtTreeMap κ ν compare
  /-- Every value is stored under its own key. -/
  keyed : ∀ k v, map[k]? = some v → key v = k

namespace Store

variable {κ ν : Type*} [Ord κ] [TransOrd κ] [LawfulEqOrd κ] {key : ν → κ}

/-! ## Operations -/

/-- The store of no values. -/
def empty : Store key where
  map := ∅
  keyed := by
    intro k v h
    simp at h

/-- The value stored under `k`. -/
def get (s : Store key) (k : κ) : Option ν := s.map[k]?

def values (s : Store key) : List ν := s.map.toList.map Prod.snd

/-- The number of values. -/
def size (s : Store key) : ℕ := s.map.size

/-- Store `v` under its key, in place of what was there. -/
def put (s : Store key) (v : ν) : Store key where
  map := s.map.insert (key v) v
  keyed := by
    intro k w h
    rw [ExtTreeMap.getElem?_insert] at h
    split at h
    · next heq =>
      rw [LawfulEqCmp.compare_eq_iff_eq] at heq
      rw [← Option.some.inj h, heq]
    · exact s.keyed k w h

/-- Drop the value under `k`. -/
def remove (s : Store key) (k : κ) : Store key where
  map := s.map.erase k
  keyed := by
    intro a w h
    rw [ExtTreeMap.getElem?_erase] at h
    split at h
    · simp at h
    · exact s.keyed a w h

/-- Change the value under `k` in place, keeping its key. -/
def modify (s : Store key) (k : κ) (f : ν → ν) (hf : ∀ v, key (f v) = key v) : Store key where
  map := s.map.modify k f
  keyed := by
    intro a w h
    rw [ExtTreeMap.getElem?_modify] at h
    split at h
    · next heq =>
      rw [LawfulEqCmp.compare_eq_iff_eq] at heq
      obtain ⟨v, hv, rfl⟩ := Option.map_eq_some_iff.mp h
      rw [hf, s.keyed k v hv, heq]
    · exact s.keyed a w h

/-- Change every value in place, keeping its key. -/
def mapValues (s : Store key) (f : ν → ν) (hf : ∀ v, key (f v) = key v) : Store key where
  map := s.map.map fun _ v => f v
  keyed := by
    intro k w h
    rw [ExtTreeMap.getElem?_map] at h
    obtain ⟨v, hv, rfl⟩ := Option.map_eq_some_iff.mp h
    rw [hf, s.keyed k v hv]

/-! ## Lookups -/

omit [LawfulEqOrd κ] in
theorem key_of_get {s : Store key} {k : κ} {v : ν} (h : s.get k = some v) : key v = k :=
  s.keyed k v h

omit [LawfulEqOrd κ] in
@[simp] theorem get_empty (k : κ) : (empty : Store key).get k = none := by
  simp [get, empty]

theorem get_put [DecidableEq κ] (s : Store key) (v : ν) (k : κ) :
    (s.put v).get k = if key v = k then some v else s.get k := by
  simp only [get, put, ExtTreeMap.getElem?_insert, LawfulEqCmp.compare_eq_iff_eq]

theorem get_remove [DecidableEq κ] (s : Store key) (k a : κ) :
    (s.remove k).get a = if k = a then none else s.get a := by
  simp only [get, remove, ExtTreeMap.getElem?_erase, LawfulEqCmp.compare_eq_iff_eq]

theorem get_modify [DecidableEq κ] (s : Store key) (k a : κ) (f : ν → ν)
    (hf : ∀ v, key (f v) = key v) :
    (s.modify k f hf).get a = if k = a then (s.get k).map f else s.get a := by
  simp only [get, modify, ExtTreeMap.getElem?_modify, LawfulEqCmp.compare_eq_iff_eq]

theorem get_mapValues (s : Store key) (k : κ) (f : ν → ν) (hf : ∀ v, key (f v) = key v) :
    (s.mapValues f hf).get k = (s.get k).map f := by
  simp only [get, mapValues, ExtTreeMap.getElem?_map]

/-- Two stores with the same lookups are equal. -/
theorem ext {s t : Store key} (h : ∀ k, s.get k = t.get k) : s = t := by
  have hmap : s.map = t.map := ExtTreeMap.ext_getElem? h
  cases s
  cases t
  cases hmap
  rfl

/-! ## The values in key order -/

/-- A value is listed exactly when it is what its own key looks up. -/
theorem mem_values {s : Store key} {v : ν} : v ∈ s.values ↔ s.get (key v) = some v := by
  simp only [values, List.mem_map, Prod.exists, ExtTreeMap.mem_toList_iff_getElem?_eq_some]
  constructor
  · rintro ⟨k, w, hw, rfl⟩
    rw [get, s.keyed k w hw]
    exact hw
  · intro h
    exact ⟨key v, v, h, rfl⟩

theorem mem_values_of_get {s : Store key} {k : κ} {v : ν} (h : s.get k = some v) :
    v ∈ s.values := by
  rw [mem_values, key_of_get h]
  exact h

theorem not_mem_values_empty (v : ν) : v ∉ (empty : Store key).values := by
  rw [mem_values, get_empty]
  exact fun h => nomatch h

/-- The values after a write. -/
theorem mem_values_put [DecidableEq κ] {s : Store key} {v w : ν} :
    w ∈ (s.put v).values ↔ w = v ∨ (key w ≠ key v ∧ w ∈ s.values) := by
  rw [mem_values, mem_values, get_put]
  by_cases hkey : key v = key w
  · rw [if_pos hkey, Option.some.injEq]
    exact ⟨fun h => .inl h.symm, fun h => h.elim Eq.symm fun h' => absurd hkey.symm h'.1⟩
  · rw [if_neg hkey]
    refine ⟨fun h => .inr ⟨fun h' => hkey h'.symm, h⟩, fun h => h.elim ?_ And.right⟩
    rintro rfl
    exact absurd rfl hkey

theorem mem_values_singleton [DecidableEq κ] {v w : ν} :
    w ∈ ((empty : Store key).put v).values ↔ w = v := by
  rw [mem_values_put]
  exact ⟨fun h => h.elim id fun h' => absurd h'.2 (not_mem_values_empty w), .inl⟩

/-- **The values are listed in strictly increasing key order.** -/
theorem values_sorted (s : Store key) :
    s.values.Pairwise (fun v w => compare (key v) (key w) = .lt) := by
  rw [values, List.pairwise_map]
  refine (ExtTreeMap.ordered_keys_toList (t := s.map)).imp_of_mem ?_
  intro a b ha hb hab
  rw [s.keyed a.1 a.2 (ExtTreeMap.mem_toList_iff_getElem?_eq_some.mp ha),
    s.keyed b.1 b.2 (ExtTreeMap.mem_toList_iff_getElem?_eq_some.mp hb)]
  exact hab

theorem values_keys_nodup (s : Store key) : (s.values.map key).Nodup := by
  rw [List.Nodup, List.pairwise_map]
  refine s.values_sorted.imp ?_
  intro a b hab heq
  have hself : compare (key a) (key b) = .eq := LawfulEqCmp.compare_eq_iff_eq.mpr heq
  rw [hself] at hab
  exact absurd hab (by decide)

theorem values_nodup (s : Store key) : s.values.Nodup :=
  s.values_keys_nodup.of_map key

/-- A value of a new key is listed besides the others. -/
theorem values_put_perm [DecidableEq κ] {s : Store key} {v : ν} (hnew : s.get (key v) = none) :
    (s.put v).values.Perm (v :: s.values) := by
  have hkey : ∀ w ∈ s.values, key w ≠ key v := by
    intro w hw heq
    rw [mem_values, heq, hnew] at hw
    cases hw
  refine (List.perm_ext_iff_of_nodup (values_nodup _) ?_).mpr fun w => ?_
  · exact List.nodup_cons.mpr ⟨fun hv => hkey v hv rfl, values_nodup s⟩
  · rw [mem_values_put, List.mem_cons]
    exact or_congr_right ⟨And.right, fun hw => ⟨hkey w hw, hw⟩⟩

theorem values_foldl_put_perm [DecidableEq κ] {l : List ν} {s : Store key}
    (hnodup : (l.map key).Nodup) (hnew : ∀ v ∈ l, s.get (key v) = none) :
    (l.foldl put s).values.Perm (l ++ s.values) := by
  induction l generalizing s with
  | nil => exact .refl _
  | cons v l ih =>
    rw [List.map_cons, List.nodup_cons] at hnodup
    rw [List.forall_mem_cons] at hnew
    have hrest : ∀ w ∈ l, (s.put v).get (key w) = none := by
      intro w hw
      have hne : key v ≠ key w := fun h => hnodup.1 (h ▸ List.mem_map_of_mem hw)
      rw [get_put, if_neg hne]
      exact hnew.2 w hw
    refine (ih hnodup.2 hrest).trans ?_
    exact ((values_put_perm hnew.1).append_left l).trans List.perm_middle

theorem values_singleton [DecidableEq κ] {v : ν} : ((empty : Store key).put v).values = [v] := by
  refine List.perm_singleton.mp ?_
  refine (List.perm_ext_iff_of_nodup (values_nodup _) (List.nodup_singleton v)).mpr fun w => ?_
  rw [mem_values_singleton, List.mem_singleton]

omit [LawfulEqOrd κ] in
theorem length_values (s : Store key) : s.values.length = s.size := by
  rw [values, List.length_map, ExtTreeMap.length_toList, size]

theorem eq_of_mem_values {s : Store key} {v w : ν} (hv : v ∈ s.values) (hw : w ∈ s.values)
    (h : key v = key w) : v = w := by
  rw [mem_values] at hv hw
  rw [h, hw] at hv
  exact (Option.some.inj hv).symm

theorem ext_values {s t : Store key} (h : ∀ v, v ∈ s.values ↔ v ∈ t.values) : s = t := by
  refine ext fun k => Option.ext fun v => ?_
  constructor
  · intro hv
    have hk := key_of_get hv
    rw [← hk, ← mem_values, ← h]
    exact mem_values_of_get hv
  · intro hv
    have hk := key_of_get hv
    rw [← hk, ← mem_values, h]
    exact mem_values_of_get hv

theorem mem_values_modify [DecidableEq κ] {s : Store key} {k : κ} {f : ν → ν}
    {hf : ∀ v, key (f v) = key v} {v : ν} :
    v ∈ (s.modify k f hf).values ↔ (key v ≠ k ∧ v ∈ s.values) ∨ (s.get k).map f = some v := by
  rw [mem_values, mem_values, get_modify]
  by_cases hk : k = key v
  · rw [if_pos hk]
    exact ⟨.inr, fun h => h.elim (fun h' => absurd hk.symm h'.1) id⟩
  · rw [if_neg hk]
    refine ⟨fun h => .inl ⟨fun h' => hk h'.symm, h⟩, fun h => h.elim And.right fun h' => ?_⟩
    obtain ⟨w, hw, rfl⟩ := Option.map_eq_some_iff.mp h'
    rw [hf, key_of_get hw] at hk
    exact absurd rfl hk

theorem mem_values_mapValues {s : Store key} {f : ν → ν} {hf : ∀ v, key (f v) = key v} {v : ν} :
    v ∈ (s.mapValues f hf).values ↔ ∃ w ∈ s.values, f w = v := by
  rw [mem_values, get_mapValues, Option.map_eq_some_iff]
  constructor
  · rintro ⟨w, hw, rfl⟩
    exact ⟨w, mem_values_of_get hw, rfl⟩
  · rintro ⟨w, hw, rfl⟩
    rw [hf]
    exact ⟨w, mem_values.mp hw, rfl⟩

/-- Changing every value in place changes the list of values in place. -/
theorem values_mapValues {s : Store key} {f : ν → ν} {hf : ∀ v, key (f v) = key v} :
    (s.mapValues f hf).values = s.values.map f := by
  rw [values, values, mapValues, ExtTreeMap.toList_map, List.map_map, List.map_map]
  rfl

theorem find?_values [DecidableEq κ] (s : Store key) (k : κ) :
    (s.values.find? fun v => decide (key v = k)) = s.get k := by
  cases hget : s.get k with
  | none =>
    rw [List.find?_eq_none]
    intro v hv hk
    have hk' : key v = k := of_decide_eq_true hk
    rw [mem_values, hk', hget] at hv
    cases hv
  | some v =>
    cases hfind : s.values.find? fun v => decide (key v = k) with
    | none =>
      have hnot := List.find?_eq_none.mp hfind v (mem_values_of_get hget)
      exact absurd (decide_eq_true (key_of_get hget)) hnot
    | some w =>
      have hdecide := List.find?_some hfind
      have hk : key w = k := of_decide_eq_true hdecide
      have hw := mem_values.mp (List.mem_of_find?_eq_some hfind)
      rw [hk, hget] at hw
      exact hw.symm

/-- **A store filled from a list of distinct keys** looks up the list. -/
theorem get_foldl_put [DecidableEq κ] {α : Type*} (f : α → ν) {l : List α}
    (hnodup : (l.map fun a => key (f a)).Nodup) (s : Store key) (k : κ) :
    (l.foldl (fun s a => s.put (f a)) s).get k =
      ((l.find? fun a => decide (key (f a) = k)).map f).or (s.get k) := by
  induction l generalizing s with
  | nil => rfl
  | cons a l ih =>
    rw [List.map_cons, List.nodup_cons] at hnodup
    rw [List.foldl_cons, ih hnodup.2, get_put, List.find?_cons]
    by_cases hk : key (f a) = k
    · have hnone : (l.find? fun a => decide (key (f a) = k)) = none := by
        rw [List.find?_eq_none]
        intro b hb hkb
        exact hnodup.1 (List.mem_map.mpr ⟨b, hb, (of_decide_eq_true hkb).trans hk.symm⟩)
      rw [hnone, if_pos hk, decide_eq_true hk]
      rfl
    · rw [if_neg hk, decide_eq_false hk]

theorem get_foldl_put_of_mem [DecidableEq κ] {α : Type*} (f : α → ν) {l : List α}
    (hnodup : (l.map fun a => key (f a)).Nodup) (s : Store key) {a : α} (ha : a ∈ l) :
    (l.foldl (fun s a => s.put (f a)) s).get (key (f a)) = some (f a) := by
  rw [get_foldl_put f hnodup]
  cases hfind : l.find? fun b => decide (key (f b) = key (f a)) with
  | none => exact absurd (decide_eq_true rfl) (List.find?_eq_none.mp hfind a ha)
  | some b =>
    have hfound := List.find?_some hfind
    have hkey : key (f b) = key (f a) := of_decide_eq_true hfound
    rw [List.inj_on_of_nodup_map hnodup (List.mem_of_find?_eq_some hfind) ha hkey]
    rfl

theorem get_foldl_put_of_not_mem [DecidableEq κ] {α : Type*} (f : α → ν) {l : List α}
    (hnodup : (l.map fun a => key (f a)).Nodup) (s : Store key) {k : κ}
    (hk : k ∉ l.map fun a => key (f a)) :
    (l.foldl (fun s a => s.put (f a)) s).get k = s.get k := by
  have hnone : (l.find? fun a => decide (key (f a) = k)) = none := by
    rw [List.find?_eq_none]
    exact fun a ha hkey => hk (List.mem_map.mpr ⟨a, ha, of_decide_eq_true hkey⟩)
  rw [get_foldl_put f hnodup, hnone]
  rfl

/-! ## First values -/

/-- Store `v` under its key, unless a value is there already. -/
def putNew (s : Store key) (v : ν) : Store key :=
  if (s.get (key v)).isSome then s else s.put v

theorem get_putNew [DecidableEq κ] (s : Store key) (v : ν) (k : κ) :
    (s.putNew v).get k = (s.get k).or (if key v = k then some v else none) := by
  unfold putNew
  by_cases hsome : (s.get (key v)).isSome = true
  · rw [if_pos hsome]
    by_cases hk : key v = k
    · obtain ⟨w, hw⟩ := Option.isSome_iff_exists.mp hsome
      rw [← hk, hw]
      rfl
    · rw [if_neg hk, Option.or_none]
  · rw [if_neg hsome, get_put]
    by_cases hk : key v = k
    · rw [if_pos hk, if_pos hk, ← hk, Option.not_isSome_iff_eq_none.mp hsome]
      rfl
    · rw [if_neg hk, if_neg hk, Option.or_none]

/-- **The first value of a key stays.** -/
theorem get_foldl_putNew [DecidableEq κ] (l : List ν) (s : Store key) (k : κ) :
    (l.foldl putNew s).get k = (s.get k).or (l.find? fun v => decide (key v = k)) := by
  induction l generalizing s with
  | nil => rw [List.foldl_nil, List.find?_nil, Option.or_none]
  | cons v l ih =>
    rw [List.foldl_cons, ih, get_putNew, Option.or_assoc]
    by_cases hk : key v = k
    · rw [if_pos hk, List.find?_cons, decide_eq_true hk, Option.some_or]
    · rw [if_neg hk, List.find?_cons, decide_eq_false hk, Option.none_or]

/-! ## Stores of a list -/

/-- The values of a list, under their keys; a later value replaces an earlier one. -/
def ofList (l : List ν) : Store key := l.foldl put empty

theorem get_ofList [DecidableEq κ] {l : List ν} (hnodup : (l.map key).Nodup) (k : κ) :
    (ofList l : Store key).get k = l.find? fun v => decide (key v = k) := by
  have hget := get_foldl_put (fun v => v) hnodup (empty : Store key) k
  rwa [get_empty, Option.or_none, Option.map_id'] at hget

theorem mem_values_ofList [DecidableEq κ] {l : List ν} (hnodup : (l.map key).Nodup) {v : ν} :
    v ∈ (ofList l : Store key).values ↔ v ∈ l := by
  rw [mem_values, get_ofList hnodup]
  constructor
  · exact List.mem_of_find?_eq_some
  · intro hv
    cases hfind : l.find? fun w => decide (key w = key v) with
    | none => exact absurd (decide_eq_true rfl) (List.find?_eq_none.mp hfind v hv)
    | some w =>
      have hfound := List.find?_some hfind
      have hkey : key w = key v := of_decide_eq_true hfound
      rw [List.inj_on_of_nodup_map hnodup (List.mem_of_find?_eq_some hfind) hv hkey]

/-- Filling a store with distinct keys loses nothing. -/
theorem values_ofList_perm [DecidableEq κ] {l : List ν} (hnodup : (l.map key).Nodup) :
    (ofList l : Store key).values.Perm l :=
  (List.perm_ext_iff_of_nodup (values_nodup _) hnodup.of_map).mpr fun _ =>
    mem_values_ofList hnodup

/-! ## Stores through a view -/

section View

variable {γ : Type*} {view : ν → γ} (viewKey : γ → κ)

theorem map_get_eq_some_iff (hkey : ∀ v, viewKey (view v) = key v) {s : Store key} {k : κ} {c : γ} :
    (s.get k).map view = some c ↔ c ∈ s.values.map view ∧ viewKey c = k := by
  rw [Option.map_eq_some_iff, List.mem_map]
  constructor
  · rintro ⟨v, hv, rfl⟩
    exact ⟨⟨v, mem_values_of_get hv, rfl⟩, by rw [hkey, key_of_get hv]⟩
  · rintro ⟨⟨v, hv, rfl⟩, rfl⟩
    refine ⟨v, ?_, rfl⟩
    rw [hkey]
    exact mem_values.mp hv

/-- **Two stores list the same views exactly when they show the same view under
every key**, when a view determines the key. -/
theorem map_values_eq_iff (hkey : ∀ v, viewKey (view v) = key v) {s t : Store key} :
    s.values.map view = t.values.map view ↔ ∀ k, (s.get k).map view = (t.get k).map view := by
  constructor
  · intro h k
    refine Option.ext fun c => ?_
    rw [map_get_eq_some_iff viewKey hkey, map_get_eq_some_iff viewKey hkey, h]
  · intro h
    have hsorted : ∀ u : Store key,
        (u.values.map view).Pairwise fun a b => compare (viewKey a) (viewKey b) = .lt := by
      intro u
      rw [List.pairwise_map]
      simp only [hkey]
      exact u.values_sorted
    have hirrefl : ∀ k : κ, compare k k ≠ .lt := by
      intro k hk
      have hself : compare k k = .eq := ReflCmp.compare_self
      rw [hself] at hk
      cases hk
    have : Std.Irrefl fun a b : γ => compare (viewKey a) (viewKey b) = .lt :=
      ⟨fun a => hirrefl (viewKey a)⟩
    have : Std.Antisymm fun a b : γ => compare (viewKey a) (viewKey b) = .lt :=
      ⟨fun a b hab hba => absurd (TransCmp.lt_trans hab hba) (hirrefl (viewKey a))⟩
    refine (hsorted s).eq_of_mem_iff (hsorted t) fun c => ?_
    have hc := h (viewKey c)
    constructor
    · intro hmem
      have hs := (map_get_eq_some_iff viewKey hkey).mpr ⟨hmem, rfl⟩
      exact ((map_get_eq_some_iff viewKey hkey).mp (hc ▸ hs)).1
    · intro hmem
      have ht := (map_get_eq_some_iff viewKey hkey).mpr ⟨hmem, rfl⟩
      exact ((map_get_eq_some_iff viewKey hkey).mp (hc ▸ ht)).1

end View

end Store

/-! ## Tallies -/

section Tally

variable {κ : Type*} [Ord κ] [TransOrd κ] [LawfulEqOrd κ]

/-- A count for each key. -/
abbrev Tally (κ : Type*) [Ord κ] [TransOrd κ] := Store (Prod.fst : κ × UInt32 → κ)

namespace Tally

/-- The count of a key that has one. -/
def count_of (t : Tally κ) (k : κ) : Option UInt32 := (t.get k).map Prod.snd

/-- Count a key once more. -/
def bump (t : Tally κ) (k : κ) : Tally κ := t.put (k, (count_of t k).getD 0 + 1)

theorem count_of_bump [DecidableEq κ] (t : Tally κ) (j k : κ) :
    count_of (bump t j) k = if j = k then some ((count_of t k).getD 0 + 1) else count_of t k := by
  rw [count_of, bump, Store.get_put]
  by_cases hjk : j = k
  · rw [if_pos hjk, if_pos hjk, Option.map_some, hjk]
  · rw [if_neg hjk, if_neg hjk]
    rfl

/-- **The tally of a list** has its keys, and counts how often each comes up. -/
theorem count_of_foldl [DecidableEq κ] (l : List κ) (k : κ) :
    count_of (l.foldl bump (Store.empty : Tally κ)) k =
      if k ∈ l then some (UInt32.ofNat (l.count k)) else none := by
  induction l using List.reverseRecOn with
  | nil => rw [List.foldl_nil, count_of, Store.get_empty, if_neg List.not_mem_nil, Option.map_none]
  | append_singleton l j ih =>
    rw [List.foldl_append, List.foldl_cons, List.foldl_nil, count_of_bump, ih, List.count_append]
    by_cases hjk : j = k
    · have hmem : k ∈ l ++ [j] := by
        rw [hjk]
        exact List.mem_append_right _ List.mem_cons_self
      rw [if_pos hjk, if_pos hmem, hjk, List.count_singleton_self, UInt32.ofNat_add]
      by_cases hk : k ∈ l
      · rw [if_pos hk, Option.getD_some]
        rfl
      · rw [if_neg hk, Option.getD_none, List.count_eq_zero.mpr hk]
        rfl
    · have hmem : k ∈ l ++ [j] ↔ k ∈ l := by
        rw [List.mem_append, List.mem_singleton]
        exact or_iff_left fun heq => hjk heq.symm
      have hcount : [j].count k = 0 := by
        refine List.count_eq_zero.mpr fun hk => hjk ?_
        exact (List.mem_singleton.mp hk).symm
      rw [if_neg hjk, hcount, Nat.add_zero]
      exact if_congr hmem.symm rfl rfl

end Tally

end Tally
