/-
The **collection layer**: a list read into a store, element by element.

Each element is projected to a value, which may fail, and a second value of one key is
refused; the first fault ends the run. A run without a fault collects the same store
from the elements in any order. A run with one reports the fault it meets first, so
the order can be seen from outside exactly where there are two different faults to
report (`collect_reordered_iff`). Besides the order an element may change in ways that
leave what it is projected to (`Alike`), but perhaps not the fault it is refused for.
-/
import Mathlib.Data.List.Perm.Basic
import Evidence.Lib.Check
import Evidence.Lib.Store

set_option autoImplicit false

namespace Collect

open Std

variable {α ε κ ν : Type} [Ord κ] [TransOrd κ] [LawfulEqOrd κ] [DecidableEq κ] {key : ν → κ}

/-! ## The run -/

/-- One element. -/
def insert (project : α → Except ε ν) (repeated : κ → ε) (s : Store key) (x : α) :
    Except ε (Store key) :=
  match project x with
  | .error e => .error e
  | .ok v => if (s.get (key v)).isSome then .error (repeated (key v)) else .ok (s.put v)

/-- All of them, in order. -/
def collect (project : α → Except ε ν) (repeated : κ → ε) (l : List α) : Except ε (Store key) :=
  l.foldlM (insert project repeated) Store.empty

/-! ## Lists that correspond -/

/-- An element of the second list has a counterpart in the first. -/
theorem exists_of_mem_right {β : Type} {r : α → β → Prop} {l : List α} {l' : List β}
    (h : List.Forall₂ r l l') {b : β} (hb : b ∈ l') : ∃ a ∈ l, r a b := by
  induction h with
  | nil => cases hb
  | cons hr _ ih =>
    rcases List.mem_cons.mp hb with rfl | hb
    · exact ⟨_, List.mem_cons_self, hr⟩
    · obtain ⟨a, ha, hab⟩ := ih hb
      exact ⟨a, List.mem_cons_of_mem _ ha, hab⟩

/-- An element of the first list has a counterpart in the second. -/
theorem exists_of_mem_left {β : Type} {r : α → β → Prop} {l : List α} {l' : List β}
    (h : List.Forall₂ r l l') {a : α} (ha : a ∈ l) : ∃ b ∈ l', r a b :=
  exists_of_mem_right h.flip ha

/-- A list whose elements all have a counterpart has one as a whole. -/
theorem exists_forall₂ {β : Type} {r : α → β → Prop} {l : List α} (h : ∀ a ∈ l, ∃ b, r a b) :
    ∃ l', List.Forall₂ r l l' := by
  induction l with
  | nil => exact ⟨[], .nil⟩
  | cons a l ih =>
    obtain ⟨b, hb⟩ := h a List.mem_cons_self
    obtain ⟨l', hl'⟩ := ih fun c hc => h c (List.mem_cons_of_mem a hc)
    exact ⟨b :: l', .cons hb hl'⟩

section Faults

variable {project : α → Except ε ν} {repeated : κ → ε} {alike : α → α → Prop}

/-- A list that was reordered, and whose elements were replaced by others like them. -/
def Reordered (alike : α → α → Prop) (l l' : List α) : Prop :=
  ∃ m, l.Perm m ∧ List.Forall₂ alike m l'

inductive Fault (key : ν → κ) (project : α → Except ε ν) (repeated : κ → ε)
    (alike : α → α → Prop) (l : List α) : ε → Prop where
  | refused {x x' : α} {e : ε} (hx : x ∈ l) (hx' : alike x x') (he : project x' = .error e) :
    Fault key project repeated alike l e
  | doubled {x y : α} {rest : List α} {v w : ν} (hl : l.Perm (x :: y :: rest))
    (hx : project x = .ok v) (hy : project y = .ok w) (hkey : key v = key w) :
    Fault key project repeated alike l (repeated (key w))

/-! ## Runs without a fault -/

/-- A run that started from a store adds values of new and different keys. -/
theorem foldlM_insert_ok_iff {l : List α} {s t : Store key} :
    l.foldlM (insert project repeated) s = .ok t ↔
      ∃ vs, List.Forall₂ (fun x v => project x = .ok v) l vs ∧
        (vs.map key).Nodup ∧ (∀ v ∈ vs, s.get (key v) = none) ∧ t = vs.foldl Store.put s := by
  induction l generalizing s with
  | nil =>
    constructor
    · intro h
      exact ⟨[], .nil, List.nodup_nil, by simp, (Except.ok.inj h).symm⟩
    · rintro ⟨vs, hvs, -, -, rfl⟩
      rw [List.forall₂_nil_left_iff.mp hvs]
      rfl
  | cons x l ih =>
    rw [List.foldlM_cons]
    cases hx : project x with
    | error e =>
      simp only [insert, hx]
      constructor
      · intro h
        cases h
      · rintro ⟨vs, hvs, -⟩
        obtain ⟨v, -, hv, -⟩ := List.forall₂_cons_left_iff.mp hvs
        rw [hx] at hv
        cases hv
    | ok v =>
      by_cases hget : (s.get (key v)).isSome = true
      · simp only [insert, hx, if_pos hget]
        constructor
        · intro h
          cases h
        · rintro ⟨vs, hvs, -, hnew, -⟩
          obtain ⟨w, ws, hw, -, rfl⟩ := List.forall₂_cons_left_iff.mp hvs
          rw [hx] at hw
          rw [Except.ok.inj hw, hnew w List.mem_cons_self] at hget
          simp at hget
      · have hnone : s.get (key v) = none := by simpa using hget
        simp only [insert, hx, if_neg hget]
        refine (ih (s := s.put v)).trans ?_
        constructor
        · rintro ⟨vs, hvs, hnodup, hnew, rfl⟩
          have hv : ∀ w ∈ vs, key w ≠ key v ∧ s.get (key w) = none := by
            intro w hw
            have hget := hnew w hw
            rw [Store.get_put] at hget
            by_cases hkey : key v = key w
            · rw [if_pos hkey] at hget
              cases hget
            · rw [if_neg hkey] at hget
              exact ⟨fun h => hkey h.symm, hget⟩
          refine ⟨v :: vs, .cons hx hvs, ?_, ?_, rfl⟩
          · rw [List.map_cons, List.nodup_cons]
            refine ⟨fun hmem => ?_, hnodup⟩
            obtain ⟨w, hw, hkey⟩ := List.mem_map.mp hmem
            exact (hv w hw).1 hkey
          · rw [List.forall_mem_cons]
            exact ⟨hnone, fun w hw => (hv w hw).2⟩
        · rintro ⟨vs, hvs, hnodup, hnew, rfl⟩
          obtain ⟨w, ws, hw, hws, rfl⟩ := List.forall₂_cons_left_iff.mp hvs
          rw [hx] at hw
          obtain rfl := Except.ok.inj hw
          rw [List.map_cons, List.nodup_cons] at hnodup
          refine ⟨ws, hws, hnodup.2, fun u hu => ?_, rfl⟩
          rw [Store.get_put, if_neg]
          · exact hnew u (List.mem_cons_of_mem _ hu)
          · exact fun hkey => hnodup.1 (List.mem_map.mpr ⟨u, hu, hkey.symm⟩)

/-- **A run without a fault** projects every element, to values of different keys, and
collects those. -/
theorem collect_ok_iff {l : List α} {t : Store key} :
    collect project repeated l = .ok t ↔
      ∃ vs, List.Forall₂ (fun x v => project x = .ok v) l vs ∧
        (vs.map key).Nodup ∧ t = Store.ofList vs := by
  refine foldlM_insert_ok_iff.trans ?_
  constructor
  · rintro ⟨vs, hvs, hnodup, -, ht⟩
    exact ⟨vs, hvs, hnodup, ht⟩
  · rintro ⟨vs, hvs, hnodup, ht⟩
    exact ⟨vs, hvs, hnodup, fun v _ => Store.get_empty _, ht⟩

/-! ## Runs with a fault -/

section Alike

variable (halike : Equivalence alike)
  (hok : ∀ (x x' : α) (v : ν), alike x x' → project x = .ok v → project x' = .ok v)
include halike

theorem fault_of_collect_error {l : List α} {e : ε}
    (h : (collect project repeated l : Except ε (Store key)) = .error e) :
    Fault key project repeated alike l e := by
  obtain ⟨before, x, after, s, rfl, hbefore, hx⟩ := Check.foldlM_error h
  obtain ⟨vs, hvs, hnodup, rfl⟩ := collect_ok_iff.mp hbefore
  cases hproject : project x with
  | error e' =>
    simp only [insert, hproject, Except.error.injEq] at hx
    rw [hx] at hproject
    exact .refused (List.mem_append_right _ List.mem_cons_self) (halike.refl x) hproject
  | ok v =>
    simp only [insert, hproject] at hx
    by_cases hget : ((Store.ofList vs : Store key).get (key v)).isSome = true
    · rw [if_pos hget, Except.error.injEq] at hx
      obtain ⟨w, hw⟩ := Option.isSome_iff_exists.mp hget
      have hmem := (Store.mem_values_ofList hnodup).mp (Store.mem_values_of_get hw)
      obtain ⟨y, hy, hproject'⟩ := exists_of_mem_right hvs hmem
      obtain ⟨b, b', rfl⟩ := List.append_of_mem hy
      have hfront : (b ++ y :: b' ++ after).Perm (y :: (b ++ b' ++ after)) := by
        rw [List.append_assoc, List.cons_append, List.append_assoc b b' after]
        exact List.perm_middle
      have hperm : (b ++ y :: b' ++ x :: after).Perm (y :: x :: (b ++ b' ++ after)) :=
        (List.perm_middle.trans (hfront.cons x)).trans (List.Perm.swap y x _)
      rw [← hx]
      exact .doubled hperm hproject' hproject (Store.key_of_get hw)
    · rw [if_neg hget] at hx
      cases hx

omit halike in
/-- Every fault of a list is what some run over it reports: the one that meets it first. -/
theorem collect_error_of_fault {l : List α} {e : ε}
    (h : Fault key project repeated alike l e) (hrefl : ∀ x, alike x x) :
    ∃ l', Reordered alike l l' ∧ (collect project repeated l' : Except ε (Store key)) = .error e := by
  have hsame : ∀ l : List α, List.Forall₂ alike l l := fun l =>
    List.forall₂_same.mpr fun x _ => hrefl x
  cases h with
  | refused hx hx' he =>
    obtain ⟨b, b', rfl⟩ := List.append_of_mem hx
    refine ⟨_ :: (b ++ b'), ⟨_, List.perm_middle, .cons hx' (hsame _)⟩, ?_⟩
    simp only [collect, List.foldlM_cons, insert, he]
    rfl
  | @doubled x y rest v w hl hx hy hkey =>
    have hfirst : insert project repeated (Store.empty : Store key) x = .ok (Store.empty.put v) := by
      simp [insert, hx]
    have hsecond : insert project repeated ((Store.empty : Store key).put v) y =
        .error (repeated (key w)) := by
      simp [insert, hy, Store.get_put, hkey]
    refine ⟨_, ⟨_, hl, hsame _⟩, ?_⟩
    rw [collect, List.foldlM_cons, hfirst]
    exact congrArg (· >>= fun t => List.foldlM _ t rest) hsecond

include hok

omit halike in
theorem no_fault_of_collect_ok {l : List α} {t : Store key} {e : ε}
    (h : collect project repeated l = .ok t) : ¬ Fault key project repeated alike l e := by
  obtain ⟨vs, hvs, hnodup, -⟩ := collect_ok_iff.mp h
  intro hfault
  cases hfault with
  | refused hx hx' he =>
    obtain ⟨v, -, hv⟩ := exists_of_mem_left hvs hx
    rw [hok _ _ _ hx' hv] at he
    cases he
  | doubled hl hx hy hkey =>
    obtain ⟨us, hus, hperm⟩ := List.perm_comp_forall₂ hl.symm hvs
    obtain ⟨v, us', hv, hus', rfl⟩ := List.forall₂_cons_left_iff.mp hus
    obtain ⟨w, _, hw, -, rfl⟩ := List.forall₂_cons_left_iff.mp hus'
    rw [hx] at hv
    rw [hy] at hw
    rw [Except.ok.inj hv, Except.ok.inj hw] at hkey
    have hnodup' := (hperm.map key).nodup_iff.mpr hnodup
    rw [List.map_cons, List.map_cons, hkey, List.nodup_cons] at hnodup'
    exact hnodup'.1 List.mem_cons_self

omit [Ord κ] [TransOrd κ] [LawfulEqOrd κ] [DecidableEq κ] in
theorem Fault.of_reordered {l l' : List α} {e : ε} (h : Fault key project repeated alike l e)
    (hl : Reordered alike l l') : Fault key project repeated alike l' e := by
  obtain ⟨m, hperm, hm⟩ := hl
  cases h with
  | refused hx hx' he =>
    obtain ⟨y, hy, hxy⟩ := exists_of_mem_left hm (hperm.mem_iff.mp hx)
    exact .refused hy (halike.trans (halike.symm hxy) hx') he
  | doubled hl hx hy hkey =>
    obtain ⟨us, hus, hperm'⟩ := List.perm_comp_forall₂ (hl.symm.trans hperm) hm
    obtain ⟨x', us', hx', hus', rfl⟩ := List.forall₂_cons_left_iff.mp hus
    obtain ⟨y', _, hy', -, rfl⟩ := List.forall₂_cons_left_iff.mp hus'
    exact .doubled hperm'.symm (hok _ _ _ hx' hx) (hok _ _ _ hy' hy) hkey

omit hok in
theorem Reordered.symm {l l' : List α} (h : Reordered alike l l') : Reordered alike l' l := by
  obtain ⟨m, hperm, hm⟩ := h
  have hback : List.Forall₂ alike l' m := hm.flip.imp fun _ _ hxy => halike.symm hxy
  have hcomp : Relation.Comp (List.Forall₂ alike) List.Perm l' l := ⟨m, hback, hperm.symm⟩
  rw [List.forall₂_comp_perm_eq_perm_comp_forall₂] at hcomp
  exact hcomp

omit halike in
theorem collect_ok_unique {l l' : List α} {t t' : Store key} (hl : Reordered alike l l')
    (h : collect project repeated l = .ok t) (h' : collect project repeated l' = .ok t') :
    t' = t := by
  obtain ⟨vs, hvs, hnodup, rfl⟩ := collect_ok_iff.mp h
  obtain ⟨vs', hvs', hnodup', rfl⟩ := collect_ok_iff.mp h'
  obtain ⟨m, hperm, hm⟩ := hl
  obtain ⟨us, hus, hperm'⟩ := List.perm_comp_forall₂ hperm.symm hvs
  have hsame : vs' = us := by
    clear hperm h h' hvs hperm' hnodup hnodup'
    induction hm generalizing us vs' with
    | nil =>
      rw [List.forall₂_nil_left_iff.mp hus, List.forall₂_nil_left_iff.mp hvs']
    | cons hxy _ ih =>
      obtain ⟨u, us', hu, hus', rfl⟩ := List.forall₂_cons_left_iff.mp hus
      obtain ⟨v, ws, hv, hws, rfl⟩ := List.forall₂_cons_left_iff.mp hvs'
      rw [hok _ _ _ hxy hu] at hv
      rw [Except.ok.inj hv, ih ws hws us' hus']
  subst hsame
  refine Store.ext_values fun v => ?_
  rw [Store.mem_values_ofList hnodup', Store.mem_values_ofList hnodup, hperm'.mem_iff]

/-- **What a collection comes to forgets the order of its list exactly when the list has at
most one fault to report.** -/
theorem collect_reordered_iff {l : List α} :
    (∀ l', Reordered alike l l' →
        (collect project repeated l' : Except ε (Store key)) = collect project repeated l) ↔
      ∀ e e', Fault key project repeated alike l e → Fault key project repeated alike l e' →
        e = e' := by
  constructor
  · intro hsame e e' he he'
    obtain ⟨m, hm, hcollect⟩ := collect_error_of_fault he halike.refl
    obtain ⟨m', hm', hcollect'⟩ := collect_error_of_fault he' halike.refl
    rw [hsame m hm] at hcollect
    rw [hsame m' hm', hcollect] at hcollect'
    exact Except.error.inj hcollect'
  · intro hone l' hl
    have hback : ∀ {e}, Fault key project repeated alike l' e →
        Fault key project repeated alike l e :=
      fun h => h.of_reordered halike hok (hl.symm halike)
    cases h : (collect project repeated l : Except ε (Store key)) with
    | error e =>
      have he := fault_of_collect_error halike h
      cases h' : (collect project repeated l' : Except ε (Store key)) with
      | error e' => rw [hone _ _ (hback (fault_of_collect_error halike h')) he]
      | ok t => exact absurd (he.of_reordered halike hok hl) (no_fault_of_collect_ok hok h')
    | ok t =>
      cases h' : (collect project repeated l' : Except ε (Store key)) with
      | error e' =>
        exact absurd (hback (fault_of_collect_error halike h')) (no_fault_of_collect_ok hok h)
      | ok t' => rw [collect_ok_unique hok hl h h']

end Alike

end Faults

end Collect
