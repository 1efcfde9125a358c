/-
The **wrapping-counter layer**: loops that add to a counter with a largest value.

A counter is a number `count s` read off the state of a loop; a step adds the
`weight` of its item, modulo the range of the counter. After the loop the counter
holds the sum modulo the range, and some addition of the loop passes the range
exactly if the sum does. Neither depends on what else the state holds.

A search counts a 32-bit counter up until its value is free, and past the last value
goes on from zero. It is a relation, since it need not end; it ends if and only if some
value of the whole type is free (`finds_iff`): from any start every value comes up.
-/
import Mathlib.Algebra.Order.BigOperators.Group.List
import Mathlib.Algebra.Order.Group.Nat
import Mathlib.Algebra.Ring.Nat
import Mathlib.Data.Nat.Notation

set_option autoImplicit false

namespace Counter

section Counter

variable {σ α : Type} {step : σ → α → σ} (count : σ → ℕ) {weight : α → ℕ} {range : ℕ}

/-- Some addition of the loop passes the range: before it the counter and the
item's weight are the range or more. -/
def Overflows (step : σ → α → σ) (count : σ → ℕ) (weight : α → ℕ) (range : ℕ) (s : σ)
    (items : List α) : Prop :=
  ∃ before item after, items = before ++ item :: after ∧
    range ≤ count (before.foldl step s) + weight item

/-- **The counter after the loop** is the sum, modulo the range. -/
theorem count_foldl (hstep : ∀ s a, count (step s a) = (count s + weight a) % range) (s : σ)
    (hs : count s < range) (items : List α) :
    count (items.foldl step s) = (count s + (items.map weight).sum) % range := by
  induction items generalizing s with
  | nil => rw [List.foldl_nil, List.map_nil, List.sum_nil, Nat.add_zero, Nat.mod_eq_of_lt hs]
  | cons item items ih =>
    have hnext : count (step s item) < range := by
      rw [hstep]
      exact Nat.mod_lt _ (by omega)
    rw [List.foldl_cons, ih _ hnext, hstep, Nat.mod_add_mod, List.map_cons, List.sum_cons,
      Nat.add_assoc]

/-- The first addition passes the range, or a later one does. -/
theorem overflows_cons (s : σ) (item : α) (items : List α) :
    Overflows step count weight range s (item :: items) ↔
      range ≤ count s + weight item ∨
        Overflows step count weight range (step s item) items := by
  constructor
  · rintro ⟨before, item', after, heq, hrange⟩
    rcases before with _ | ⟨first, before⟩
    · rw [List.nil_append, List.cons.injEq] at heq
      rw [← heq.1] at hrange
      exact .inl hrange
    · rw [List.cons_append, List.cons.injEq] at heq
      rw [← heq.1] at hrange
      exact .inr ⟨before, item', after, heq.2, hrange⟩
  · rintro (hrange | ⟨before, item', after, heq, hrange⟩)
    · exact ⟨[], item, items, rfl, hrange⟩
    · refine ⟨item :: before, item', after, ?_, hrange⟩
      rw [heq, List.cons_append]

/-- **No addition passes the range exactly if the sum stays below it.** -/
theorem overflows_iff (hstep : ∀ s a, count (step s a) = (count s + weight a) % range) (s : σ)
    (hs : count s < range) (items : List α) :
    Overflows step count weight range s items ↔ range ≤ count s + (items.map weight).sum := by
  induction items generalizing s with
  | nil =>
    rw [List.map_nil, List.sum_nil]
    constructor
    · rintro ⟨before, item, after, heq, -⟩
      simp at heq
    · intro hrange
      omega
  | cons item items ih =>
    rw [overflows_cons, List.map_cons, List.sum_cons]
    by_cases hfits : count s + weight item < range
    · -- the step is exact, so the rest of the loop starts at the sum so far
      have hnext : count (step s item) = count s + weight item := by
        rw [hstep, Nat.mod_eq_of_lt hfits]
      rw [ih _ (by rw [hnext]; exact hfits), hnext]
      omega
    · constructor
      · intro _
        omega
      · intro _
        exact .inl (by omega)

end Counter

/-! ## Weights that are cut off -/

section Weights

variable {α : Type} {weight cut : α → ℕ}

theorem sum_le (hle : ∀ a, cut a ≤ weight a) (items : List α) :
    (items.map cut).sum ≤ (items.map weight).sum :=
  List.sum_le_sum fun a _ => hle a

theorem sum_eq {bound : ℕ} (heq : ∀ a, weight a < bound → cut a = weight a) {items : List α}
    (hsum : (items.map weight).sum < bound) :
    (items.map cut).sum = (items.map weight).sum := by
  refine congrArg List.sum (List.map_congr_left fun a ha => heq a ?_)
  have hle : weight a ≤ (items.map weight).sum :=
    List.single_le_sum (fun _ _ => Nat.zero_le _) _ (List.mem_map_of_mem ha)
  omega

end Weights

end Counter

namespace CounterSearch

variable {p : UInt32 → Prop} {start n found : UInt32}

/-- The loop from a counter ends with the value found. -/
inductive Finds (p : UInt32 → Prop) : UInt32 → UInt32 → Prop
  | here {n : UInt32} (hn : p n) : Finds p n n
  | next {n found : UInt32} (hn : ¬ p n) (hrest : Finds p (n + 1) found) : Finds p n found

/-- What is found satisfies the search. -/
theorem Finds.holds (h : Finds p start found) : p found := by
  induction h with
  | here hn => exact hn
  | next _ _ ih => exact ih

/-- A value that satisfies the search some steps ahead stops the loop by then. -/
theorem finds_of_ahead {steps : ℕ} (h : p (start + UInt32.ofNat steps)) :
    ∃ found, Finds p start found := by
  induction steps generalizing start with
  | zero =>
    have hstart : start + UInt32.ofNat 0 = start := UInt32.add_zero start
    rw [hstart] at h
    exact ⟨start, .here h⟩
  | succ steps ih =>
    by_cases hstart : p start
    · exact ⟨start, .here hstart⟩
    · have hahead : start + UInt32.ofNat (steps + 1) = start + 1 + UInt32.ofNat steps := by
        rw [UInt32.ofNat_add, UInt32.ofNat_one, UInt32.add_assoc,
          UInt32.add_comm 1 (UInt32.ofNat steps)]
      rw [hahead] at h
      obtain ⟨found, hfound⟩ := ih h
      exact ⟨found, .next hstart hfound⟩

/-- **The loop ends if and only if some value satisfies the search.** -/
theorem finds_iff : (∃ found, Finds p start found) ↔ ∃ n, p n := by
  constructor
  · rintro ⟨found, h⟩
    exact ⟨found, h.holds⟩
  · rintro ⟨n, hn⟩
    have hahead : start + UInt32.ofNat (n - start).toNat = n := by
      rw [UInt32.ofNat_toNat, UInt32.add_comm, UInt32.sub_add_cancel]
    rw [← hahead] at hn
    exact finds_of_ahead hn

end CounterSearch
