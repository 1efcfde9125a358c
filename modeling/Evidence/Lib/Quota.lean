/-
The **quota layer**: a loop that collects under a quota.

The loop carries what was spent and what was collected. An element costs something, must be
good, and gives results; the step fails where the cost goes over the limit or the results over
the bound. The whole loop does what one step does, with the costs added up and the results
put together (`foldlM_iff`), so loops can be put inside each other.
-/
import Mathlib.Algebra.Order.Ring.Nat
import Evidence.Lib.Check

set_option autoImplicit false

namespace Quota

open Check

variable {α β ε : Type}

/-- What a step of the loop does. -/
def Meets (limit bound : ℕ) (step : ℕ × List β → α → Except ε (ℕ × List β)) (cost : α → ℕ)
    (good : α → Prop) (gives : α → List β) : Prop :=
  ∀ spent out x t, spent ≤ limit → out.length ≤ bound →
    (step (spent, out) x = .ok t ↔
      spent + cost x ≤ limit ∧ good x ∧ out.length + (gives x).length ≤ bound ∧
        t = (spent + cost x, out ++ gives x))

/-- **What the loop does.** -/
theorem foldlM_iff {limit bound : ℕ} {step : ℕ × List β → α → Except ε (ℕ × List β)}
    {cost : α → ℕ} {good : α → Prop} {gives : α → List β}
    (h : Meets limit bound step cost good gives) (xs : List α) {spent : ℕ} {out : List β}
    {t : ℕ × List β} (hspent : spent ≤ limit) (hout : out.length ≤ bound) :
    xs.foldlM step (spent, out) = .ok t ↔
      spent + (xs.map cost).sum ≤ limit ∧ (∀ x ∈ xs, good x) ∧
        out.length + (xs.flatMap gives).length ≤ bound ∧
        t = (spent + (xs.map cost).sum, out ++ xs.flatMap gives) := by
  induction xs generalizing spent out with
  | nil =>
    rw [List.foldlM_nil, List.map_nil, List.sum_nil, List.flatMap_nil, List.append_nil]
    constructor
    · intro hok
      refine ⟨hspent, fun x hx => absurd hx List.not_mem_nil, hout, ?_⟩
      exact (Except.ok.inj hok).symm
    · rintro ⟨-, -, -, rfl⟩
      rfl
  | cons x xs ih =>
    rw [List.foldlM_cons, bind_ok_iff, List.map_cons, List.sum_cons, List.flatMap_cons,
      List.forall_mem_cons, List.length_append, ← List.append_assoc, ← Nat.add_assoc,
      ← Nat.add_assoc]
    constructor
    · rintro ⟨u, hu, hrest⟩
      obtain ⟨hcost, hgood, hgives, rfl⟩ := (h _ _ _ _ hspent hout).mp hu
      have hlength : (out ++ gives x).length ≤ bound := by
        rw [List.length_append]
        exact hgives
      obtain ⟨hcosts, hgoods, hall, rfl⟩ := (ih hcost hlength).mp hrest
      rw [List.length_append] at hall
      exact ⟨hcosts, ⟨hgood, hgoods⟩, hall, rfl⟩
    · rintro ⟨hcosts, ⟨hgood, hgoods⟩, hall, rfl⟩
      have hcost : spent + cost x ≤ limit := by omega
      have hgives : out.length + (gives x).length ≤ bound := by omega
      have hlength : (out ++ gives x).length ≤ bound := by
        rw [List.length_append]
        exact hgives
      refine ⟨_, (h _ _ _ _ hspent hout).mpr ⟨hcost, hgood, hgives, rfl⟩, ?_⟩
      refine (ih hcost hlength).mpr ⟨hcosts, hgoods, ?_, rfl⟩
      rw [List.length_append]
      exact hall

/-- **A loop inside a step** that has paid one. -/
theorem foldlM_paid_iff {limit bound : ℕ} {step : ℕ × List β → α → Except ε (ℕ × List β)}
    {cost : α → ℕ} {good : α → Prop} {gives : α → List β}
    (h : Meets limit bound step cost good gives) (xs : List α) {spent : ℕ} {out : List β}
    {t : ℕ × List β} (hspent : spent + 1 ≤ limit) (hout : out.length ≤ bound) :
    xs.foldlM step (spent + 1, out) = .ok t ↔
      spent + (1 + (xs.map cost).sum) ≤ limit ∧ (∀ x ∈ xs, good x) ∧
        out.length + (xs.flatMap gives).length ≤ bound ∧
        t = (spent + (1 + (xs.map cost).sum), out ++ xs.flatMap gives) := by
  rw [foldlM_iff h xs hspent hout, Nat.add_assoc]

/-- Such a loop that starts a list of its own. -/
theorem foldlM_collect_iff {limit bound : ℕ} {step : ℕ × List β → α → Except ε (ℕ × List β)}
    {cost : α → ℕ} {good : α → Prop} {gives : α → List β}
    (h : Meets limit bound step cost good gives) (xs : List α) {spent : ℕ} {t : ℕ × List β}
    (hspent : spent + 1 ≤ limit) :
    xs.foldlM step (spent + 1, []) = .ok t ↔
      spent + (1 + (xs.map cost).sum) ≤ limit ∧ (∀ x ∈ xs, good x) ∧
        (xs.flatMap gives).length ≤ bound ∧
        t = (spent + (1 + (xs.map cost).sum), xs.flatMap gives) := by
  rw [foldlM_paid_iff h xs hspent (Nat.zero_le _), List.length_nil, Nat.zero_add,
    List.nil_append]

end Quota
