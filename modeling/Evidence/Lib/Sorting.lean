/-
The **stable-sort layer**: sorting a list by a comparison.

`sortBy cmp` is the stable sort by `cmp`. A comparison that tells the elements of
a list apart leaves one sorted order, so the sorted list depends on the elements
alone (`sortBy_congr`), and a list that is sorted already is left as it is.
-/
import Mathlib.Data.List.Destutter
import Mathlib.Data.List.Sort

set_option autoImplicit false

open Std

namespace Sorting

variable {α : Type*} {cmp : α → α → Ordering}

/-- The stable sort by a comparison. -/
def sortBy (cmp : α → α → Ordering) (l : List α) : List α :=
  l.insertionSort fun a b => (cmp a b).isLE = true

theorem sortBy_perm (l : List α) : (sortBy cmp l).Perm l := List.perm_insertionSort _ l

@[simp] theorem mem_sortBy {l : List α} {a : α} : a ∈ sortBy cmp l ↔ a ∈ l :=
  (sortBy_perm l).mem_iff

/-- A list in order is left as it is. -/
theorem sortBy_eq_self {l : List α} (h : l.Pairwise fun a b => (cmp a b).isLE = true) :
    sortBy cmp l = l :=
  List.Pairwise.insertionSort_eq h

/-- **Sorting sorts.** -/
theorem sortBy_sorted [TransCmp cmp] (l : List α) :
    (sortBy cmp l).Pairwise fun a b => (cmp a b).isLE = true := by
  have htotal : Std.Total fun a b => (cmp a b).isLE = true := by
    refine ⟨fun a b => ?_⟩
    have hswap : cmp a b = (cmp b a).swap := OrientedCmp.eq_swap
    cases hab : cmp a b
    · exact .inl rfl
    · exact .inl rfl
    · rw [hab] at hswap
      exact .inr (by rw [← Ordering.swap_swap (o := cmp b a), ← hswap]; rfl)
  have htrans : IsTrans α fun a b => (cmp a b).isLE = true :=
    ⟨fun _ _ _ => TransCmp.isLE_trans⟩
  exact List.pairwise_insertionSort _ l

/-- **The sorted list depends on the elements alone**, when the comparison tells
them apart. -/
theorem sortBy_congr [TransCmp cmp] {l l' : List α} (h : l.Perm l')
    (hcmp : ∀ a ∈ l, ∀ b ∈ l, cmp a b = .eq → a = b) : sortBy cmp l = sortBy cmp l' := by
  refine ((sortBy_perm l).trans (h.trans (sortBy_perm l').symm)).eq_of_pairwise ?_
    (sortBy_sorted l) (sortBy_sorted l')
  intro a b ha hb hab hba
  refine hcmp a (mem_sortBy.mp ha) b (h.mem_iff.mpr (mem_sortBy.mp hb)) ?_
  have hswap : cmp a b = (cmp b a).swap := OrientedCmp.eq_swap
  revert hab hba
  rw [hswap]
  cases cmp b a <;> decide

theorem map_sortBy {β : Type*} {cmp' : β → β → Ordering} {f : α → β}
    (hf : ∀ a b, cmp' (f a) (f b) = cmp a b) (l : List α) :
    (sortBy cmp l).map f = sortBy cmp' (l.map f) :=
  List.map_insertionSort _ _ f l fun a _ b _ => by rw [hf]

/-- A comparison read through a map is one again. -/
theorem transCmp_on {β : Type*} [TransCmp cmp] (f : β → α) :
    TransCmp fun a b => cmp (f a) (f b) where
  eq_swap := by
    intro a b
    have hswap : cmp (f a) (f b) = (cmp (f b) (f a)).swap := OrientedCmp.eq_swap
    exact hswap
  isLE_trans := by
    intro a b c hab hbc
    have htrans : (cmp (f a) (f c)).isLE := TransCmp.isLE_trans hab hbc
    exact htrans

/-! ## Stability -/

/-- The elements a comparison does not tell apart from `a`. -/
def tied (cmp : α → α → Ordering) (a : α) (l : List α) : List α :=
  l.filter fun b => cmp a b == .eq

/-- Inserting an element keeps it in front of those it is tied with. -/
theorem tied_orderedInsert [TransCmp cmp] (a b : α) (l : List α) :
    tied cmp a (l.orderedInsert (fun a b => (cmp a b).isLE = true) b) = tied cmp a (b :: l) := by
  induction l with
  | nil => rfl
  | cons c l ih =>
    by_cases hbc : (cmp b c).isLE = true
    · rw [List.orderedInsert, if_pos hbc]
    · rw [List.orderedInsert, if_neg hbc]
      simp only [tied, List.filter_cons] at ih ⊢
      rw [ih]
      -- an element that is passed is above the new one, so not both are tied with `a`
      by_cases hab : cmp a b = .eq
      · have hac : cmp a c ≠ .eq := by
          intro hac
          rw [TransCmp.congr_left (OrientedCmp.eq_symm hab), hac] at hbc
          exact hbc rfl
        simp [hab, hac]
      · simp [hab]

/-- **Sorting is stable**: elements that are tied keep their order. -/
theorem tied_sortBy [TransCmp cmp] (a : α) (l : List α) :
    tied cmp a (sortBy cmp l) = tied cmp a l := by
  induction l with
  | nil => rfl
  | cons b l ih =>
    rw [sortBy, List.insertionSort_cons, tied_orderedInsert]
    simp only [tied, sortBy, List.filter_cons] at ih ⊢
    rw [ih]

/-- **A sorted list forgets the order it was given in exactly when tied elements are equal.**
Tied elements that differ are told apart by which one is listed first. -/
theorem sortBy_reordered_iff [TransCmp cmp] [DecidableEq α] {l : List α} :
    (∀ l', l.Perm l' → sortBy cmp l' = sortBy cmp l) ↔
      ∀ a ∈ l, ∀ b ∈ l, cmp a b = .eq → a = b := by
  constructor
  · intro hsame a ha b hb hab
    have hfirst : ∀ c ∈ l, cmp a c = .eq → (tied cmp a (sortBy cmp l)).head? = some c := by
      intro c hc hac
      rw [← hsame _ (List.perm_cons_erase hc), tied_sortBy, tied,
        List.filter_cons_of_pos (by rw [hac]; rfl), List.head?_cons]
    have heq := (hfirst a ha ReflCmp.compare_self).symm.trans (hfirst b hb hab)
    exact Option.some.inj heq
  · intro htied l' hperm
    exact (sortBy_congr hperm htied).symm

/-! ## Strict orders -/

/-- The strict part of a comparison is asymmetric. -/
theorem cmp_lt_asymm [TransCmp cmp] {a b : α} (h : cmp a b = .lt) : cmp b a ≠ .lt := by
  intro hba
  have hself : cmp a a = .eq := ReflCmp.compare_self
  rw [TransCmp.lt_trans h hba] at hself
  cases hself

theorem eq_of_perm_of_strict [TransCmp cmp] {l l' : List α} (h : l.Perm l')
    (hl : l.Pairwise fun a b => cmp a b = .lt) (hl' : l'.Pairwise fun a b => cmp a b = .lt) :
    l = l' := by
  refine h.eq_of_pairwise ?_ hl hl'
  intro a b _ _ hab hba
  exact absurd hba (cmp_lt_asymm hab)

/-- Two orders a list is sorted by agree on its elements, if one is asymmetric. -/
theorem pairwise_agree {r s : α → α → Prop} (hr : ∀ a b, r a b → ¬ r b a) {l : List α}
    (hlr : l.Pairwise r) (hls : l.Pairwise s) : ∀ a ∈ l, ∀ b ∈ l, r a b → s a b := by
  intro a ha b hb hab
  obtain ⟨i, hi, rfl⟩ := List.getElem_of_mem ha
  obtain ⟨j, hj, rfl⟩ := List.getElem_of_mem hb
  rw [List.pairwise_iff_getElem] at hlr hls
  rcases Nat.lt_trichotomy i j with hij | rfl | hij
  · exact hls i j hi hj hij
  · exact absurd hab (hr _ _ hab)
  · exact absurd (hlr j i hj hi hij) (hr _ _ hab)

/-- A list whose elements the comparison tells apart is strictly sorted. -/
theorem sortBy_strict [TransCmp cmp] {l : List α} (hnodup : l.Nodup)
    (hcmp : ∀ a ∈ l, ∀ b ∈ l, cmp a b = .eq → a = b) :
    (sortBy cmp l).Pairwise fun a b => cmp a b = .lt := by
  have hsorted : (sortBy cmp l).Pairwise fun a b => (cmp a b).isLE = true := sortBy_sorted l
  have hdistinct : (sortBy cmp l).Pairwise (· ≠ ·) := (sortBy_perm l).nodup_iff.mpr hnodup
  refine (hsorted.and hdistinct).imp_of_mem fun {a b} ha hb h => ?_
  have hne : cmp a b ≠ .eq := fun heq => h.2 (hcmp a (mem_sortBy.mp ha) b (mem_sortBy.mp hb) heq)
  have hle := h.1
  revert hle hne
  generalize cmp a b = o
  cases o <;> decide

theorem sortBy_strict_on {κ : Type*} [Ord κ] [TransOrd κ] [LawfulEqOrd κ] {key : α → κ}
    {l : List α} (hnodup : (l.map key).Nodup) :
    (sortBy (compareOn key) l).Pairwise fun a b => compareOn key a b = .lt := by
  have htrans : TransCmp (compareOn key) := inferInstanceAs (TransCmp (compareOn key))
  refine sortBy_strict (List.Nodup.of_map key hnodup) fun a ha b hb hab => ?_
  have hkey : key a = key b := LawfulEqCmp.compare_eq_iff_eq.mp hab
  exact List.inj_on_of_nodup_map hnodup ha hb hkey

/-- **Strictly sorted lists with related elements are related one by one**, when the
comparison does not tell related elements apart. The heads are related: each is related to
an element that is not before the other one. -/
theorem forall₂_of_strict [TransCmp cmp] {R : α → α → Prop}
    (hcmp : ∀ a b, R a b → cmp a b = .eq) {l l' : List α}
    (hl : l.Pairwise fun a b => cmp a b = .lt) (hl' : l'.Pairwise fun a b => cmp a b = .lt)
    (h : ∀ a ∈ l, ∃ b ∈ l', R a b) (h' : ∀ b ∈ l', ∃ a ∈ l, R a b) : List.Forall₂ R l l' := by
  induction l generalizing l' with
  | nil =>
    cases l' with
    | nil => exact List.Forall₂.nil
    | cons b l' =>
      obtain ⟨a, ha, _⟩ := h' b List.mem_cons_self
      exact absurd ha List.not_mem_nil
  | cons a l ih =>
    cases l' with
    | nil =>
      obtain ⟨b, hb, _⟩ := h a List.mem_cons_self
      exact absurd hb List.not_mem_nil
    | cons b l' =>
      obtain ⟨hal, hl⟩ := List.pairwise_cons.mp hl
      obtain ⟨hbl, hl'⟩ := List.pairwise_cons.mp hl'
      -- an element behind one head is not tied with the other head
      have hab : cmp a b = .eq := by
        obtain ⟨c, hc, hac⟩ := h a List.mem_cons_self
        obtain ⟨d, hd, hdb⟩ := h' b List.mem_cons_self
        rcases List.mem_cons.mp hc with rfl | hc
        · exact hcmp a c hac
        · rcases List.mem_cons.mp hd with rfl | hd
          · exact hcmp d b hdb
          · have hba : cmp b a = .lt := by
              rw [TransCmp.congr_right (hcmp a c hac)]
              exact hbl c hc
            have hab : cmp a b = .lt := by
              rw [← TransCmp.congr_right (hcmp d b hdb)]
              exact hal d hd
            exact absurd hba (cmp_lt_asymm hab)
      have hhead : R a b := by
        obtain ⟨c, hc, hac⟩ := h a List.mem_cons_self
        rcases List.mem_cons.mp hc with rfl | hc
        · exact hac
        · have hlt := hbl c hc
          rw [← TransCmp.congr_left hab, hcmp a c hac] at hlt
          cases hlt
      refine List.Forall₂.cons hhead (ih hl hl' (fun c hc => ?_) fun d hd => ?_)
      · obtain ⟨d, hd, hcd⟩ := h c (List.mem_cons_of_mem a hc)
        rcases List.mem_cons.mp hd with rfl | hd
        · have hlt := hal c hc
          rw [TransCmp.congr_right (hcmp c d hcd), hab] at hlt
          cases hlt
        · exact ⟨d, hd, hcd⟩
      · obtain ⟨c, hc, hcd⟩ := h' d (List.mem_cons_of_mem b hd)
        rcases List.mem_cons.mp hc with rfl | hc
        · have hlt := hbl d hd
          rw [← TransCmp.congr_right (hcmp c d hcd), OrientedCmp.eq_symm hab] at hlt
          cases hlt
        · exact ⟨c, hc, hcd⟩

/-! ## Sorting without duplicates -/

/-- Dropping repeats of the element before loses no element. -/
theorem mem_destutter_ne [DecidableEq α] {l : List α} {a : α} :
    a ∈ l.destutter (· ≠ ·) ↔ a ∈ l := by
  have hcons : ∀ (l : List α) (b : α), a ∈ l.destutter' (· ≠ ·) b ↔ a ∈ b :: l := by
    intro l
    induction l with
    | nil => exact fun b => Iff.rfl
    | cons c l ih =>
      intro b
      by_cases hbc : b = c
      · rw [List.destutter'_cons_neg _ (not_not.mpr hbc), ih, hbc]
        simp only [List.mem_cons, or_self_left]
      · rw [List.destutter'_cons_pos _ hbc, List.mem_cons, ih, List.mem_cons (l := c :: l)]
  cases l with
  | nil => exact Iff.rfl
  | cons b l => exact hcons l b

theorem strict_of_distinct_neighbours [TransCmp cmp] [LawfulEqCmp cmp] {l : List α}
    (hsorted : l.Pairwise fun a b => (cmp a b).isLE = true) (hdistinct : l.IsChain (· ≠ ·)) :
    l.Pairwise fun a b => cmp a b = .lt := by
  have htrans : IsTrans α fun a b => cmp a b = .lt := ⟨fun _ _ _ => TransCmp.lt_trans⟩
  have hchain := hsorted.isChain
  rw [List.isChain_iff_getElem] at hchain hdistinct
  refine List.isChain_iff_pairwise.mp (List.isChain_iff_getElem.mpr fun i hi => ?_)
  have hle := hchain i hi
  have hcmp : cmp _ _ ≠ .eq := fun heq =>
    hdistinct i hi (LawfulEqCmp.compare_eq_iff_eq.mp heq)
  revert hle hcmp
  generalize cmp _ _ = o
  cases o <;> decide

theorem nodup_of_strict [TransCmp cmp] {l : List α} (h : l.Pairwise fun a b => cmp a b = .lt) :
    l.Nodup :=
  h.imp fun {a b} hab heq => by
    rw [heq] at hab
    exact nomatch (ReflCmp.compare_self : cmp _ _ = .eq).symm.trans hab

/-- **A sorted list has repeated neighbours exactly when the list repeats something.** -/
theorem distinct_neighbours_sortBy_iff [TransCmp cmp] [LawfulEqCmp cmp] {l : List α} :
    (sortBy cmp l).IsChain (· ≠ ·) ↔ l.Nodup := by
  rw [← (sortBy_perm l).nodup_iff]
  constructor
  · intro h
    exact nodup_of_strict (strict_of_distinct_neighbours (sortBy_sorted l) h)
  · intro h
    exact List.Pairwise.isChain h

theorem destutter_sortBy_sorted [TransCmp cmp] [LawfulEqCmp cmp] [DecidableEq α] (l : List α) :
    ((sortBy cmp l).destutter (· ≠ ·)).Pairwise fun a b => cmp a b = .lt := by
  have hall : (sortBy cmp l).Pairwise fun a b => (cmp a b).isLE = true := sortBy_sorted l
  exact strict_of_distinct_neighbours
    (hall.sublist (List.destutter_sublist (fun a b : α => a ≠ b) _))
    (List.isChain_destutter (fun a b : α => a ≠ b) (sortBy cmp l))

/-- **Sorted without repeats, two lists agree exactly when they list the same
elements.** -/
theorem destutter_sortBy_eq_iff [TransCmp cmp] [LawfulEqCmp cmp] [DecidableEq α] {l l' : List α} :
    (sortBy cmp l).destutter (· ≠ ·) = (sortBy cmp l').destutter (· ≠ ·) ↔
      ∀ a, a ∈ l ↔ a ∈ l' := by
  have hnodup : ∀ l : List α, ((sortBy cmp l).destutter (· ≠ ·)).Nodup := fun l =>
    nodup_of_strict (destutter_sortBy_sorted l)
  have hmem : ∀ (l : List α) (a : α), a ∈ (sortBy cmp l).destutter (· ≠ ·) ↔ a ∈ l := fun l a =>
    mem_destutter_ne.trans mem_sortBy
  constructor
  · intro h a
    rw [← hmem l, h, hmem l']
  · intro h
    refine eq_of_perm_of_strict ?_ (destutter_sortBy_sorted l) (destutter_sortBy_sorted l')
    refine (List.perm_ext_iff_of_nodup (hnodup l) (hnodup l')).mpr fun a => ?_
    rw [hmem, hmem, h]

end Sorting
