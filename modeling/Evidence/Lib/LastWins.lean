/-
The **last-wins layer**: what a map remembers of a list.

Filling a map from a list keeps, of the values with one key, the last. Two lists whose
maps look alike may therefore differ in everything a later value stands before. What is
lost is lost key by key: two lists hold the same values exactly when they hold the same
values of every key.
-/
import Mathlib.Data.List.Perm.Basic
import Mathlib.Data.Option.Basic
import Evidence.Lib.Store

set_option autoImplicit false

open Std

namespace Store

variable {κ ν ι : Type*} [DecidableEq κ]

def under (key : ν → κ) (k : κ) (l : List ν) : List ν := l.filter fun v => key v = k

/-- **Two lists hold the same values exactly when they hold the same values of every key.** -/
theorem perm_iff_under {key : ν → κ} {l l' : List ν} :
    l.Perm l' ↔ ∀ k, (under key k l).Perm (under key k l') := by
  classical
  constructor
  · intro h k
    exact h.filter _
  · intro h
    rw [List.perm_iff_count]
    intro v
    have hcount : ∀ m : List ν, (under key (key v) m).count v = m.count v := by
      intro m
      exact List.count_filter (by simp)
    rw [← hcount l, ← hcount l']
    exact (h (key v)).count_eq v

theorem map_perm_iff_under {key : ν → κ} {view : ν → ι} (viewKey : ι → κ)
    (hkey : ∀ v, viewKey (view v) = key v) {l l' : List ν} :
    (l.map view).Perm (l'.map view) ↔
      ∀ k, ((under key k l).map view).Perm ((under key k l').map view) := by
  have hunder : ∀ (m : List ν) (k : κ), under viewKey k (m.map view) = (under key k m).map view := by
    intro m k
    rw [under, List.filter_map]
    congr 1
    refine List.filter_congr fun v _ => ?_
    simp only [Function.comp_apply, hkey]
  rw [@perm_iff_under _ _ _ viewKey]
  simp only [hunder]

section Maps

variable [Ord κ] [TransOrd κ] [LawfulEqOrd κ] {key : ν → κ}

/-- A map filled from a list looks up the last value of a key. -/
theorem get_foldl_put_last (l : List ν) (s : Store key) (k : κ) :
    (l.foldl put s).get k = (under key k l).getLast?.or (s.get k) := by
  induction l generalizing s with
  | nil => rfl
  | cons v l ih =>
    rw [List.foldl_cons, ih, get_put, under, under, List.filter_cons]
    by_cases hk : key v = k
    · simp only [hk, decide_true, if_true]
      cases hlast : (l.filter fun v => key v = k).getLast? with
      | none =>
        rw [List.getLast?_eq_none_iff.mp hlast]
        rfl
      | some w => rw [List.getLast?_cons, hlast]; rfl
    · simp only [hk, decide_false, if_false, Bool.false_eq_true]

/-- **A map filled from a list remembers the last value of each key.** -/
theorem get_ofList_last (l : List ν) (k : κ) :
    (ofList l : Store key).get k = (under key k l).getLast? := by
  rw [ofList, get_foldl_put_last, get_empty, Option.or_none]

/-- A map collected from a list of pairs, looked up. -/
theorem get_ofList_map {β : Type*} (name : ν → κ) (value : ν → β) (l : List ν) (k : κ) :
    (ofList (l.map fun v => (name v, value v)) : Store (Prod.fst : κ × β → κ)).get k =
      ((l.filter fun v => name v = k).getLast?).map fun v => (name v, value v) := by
  rw [get_ofList_last, under, List.filter_map, List.getLast?_map]
  rfl

end Maps

end Store
