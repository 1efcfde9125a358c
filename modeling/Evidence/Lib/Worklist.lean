/-
The **worklist layer**: collecting everything that can be reached.

A stack of keys is popped one by one; a key met for the first time becomes a member
and pushes its successors. Whatever holds of the first keys and passes to successors
holds of every member (`collect_invariant`). With enough fuel the members are closed
under successors, so they are exactly the reachable keys (`mem_collect_iff`). A key
pushes its successors once, which bounds the pops by the successors of all keys. The
loop itself knows no fuel: it ends by then, with what was collected (`collect_ends`).
-/
import Mathlib.Algebra.BigOperators.Group.List.Basic
import Mathlib.Algebra.Ring.Nat
import Mathlib.Data.List.Nodup
import Mathlib.Logic.Relation

set_option autoImplicit false

namespace Worklist

variable {κ : Type*} [DecidableEq κ] (next : κ → List κ)

/-- Pop the keys of a stack, and push the successors of those met for the first
time. -/
def collect : ℕ → List κ → List κ → List κ
  | _, [], members => members
  | 0, _ :: _, members => members
  | fuel + 1, k :: pending, members =>
    if k ∈ members then collect fuel pending members
    else collect fuel (next k ++ pending) (k :: members)

variable {next}

/-- **The invariant rule.** What holds of the stack and of the members, and passes to
successors, holds of everything collected. -/
theorem collect_invariant (inv : κ → Prop) (hnext : ∀ k, inv k → ∀ j ∈ next k, inv j) (fuel : ℕ)
    {pending members : List κ} (hpending : ∀ k ∈ pending, inv k)
    (hmembers : ∀ k ∈ members, inv k) : ∀ k ∈ collect next fuel pending members, inv k := by
  induction fuel generalizing pending members with
  | zero =>
    intro k hk
    cases pending <;> exact hmembers k hk
  | succ fuel ih =>
    cases pending with
    | nil => exact hmembers
    | cons top pending =>
      obtain ⟨htop, hpending⟩ := List.forall_mem_cons.mp hpending
      rw [collect]
      split
      · exact ih hpending hmembers
      · refine ih (fun k hk => ?_) (List.forall_mem_cons.mpr ⟨htop, hmembers⟩)
        rcases List.mem_append.mp hk with hk | hk
        · exact hnext top htop k hk
        · exact hpending k hk

/-- What the keys that are no members yet can still push. -/
def unpushed (next : κ → List κ) (dom members : List κ) : ℕ :=
  ((dom.filter fun k => k ∉ members).map fun k => (next k).length).sum

/-- Before the first round every key can still push. -/
theorem unpushed_nil (next : κ → List κ) (dom : List κ) :
    unpushed next dom [] = (dom.map fun k => (next k).length).sum := by
  rw [unpushed, List.filter_eq_self.mpr fun k _ => decide_eq_true List.not_mem_nil]

/-- A new member pushes its own part. -/
theorem unpushed_cons {dom members : List κ} (hdom : ∀ k, next k ≠ [] → k ∈ dom)
    (hnodup : dom.Nodup) {k : κ} (hk : k ∉ members) :
    unpushed next dom members = (next k).length + unpushed next dom (k :: members) := by
  by_cases hmem : k ∈ dom
  · obtain ⟨before, after, rfl⟩ := List.append_of_mem hmem
    obtain ⟨-, hafter, hdisjoint⟩ := List.nodup_append'.mp hnodup
    have hne : ∀ j ∈ before ++ after, j ≠ k := by
      intro j hj heq
      rcases List.mem_append.mp hj with hj | hj
      · exact hdisjoint hj (heq ▸ List.mem_cons_self)
      · exact (List.nodup_cons.mp hafter).1 (heq ▸ hj)
    have hsame : ∀ l : List κ, (∀ j ∈ l, j ≠ k) →
        (l.filter fun j => decide (j ∉ k :: members)) =
          l.filter fun j => decide (j ∉ members) := by
      intro l hl
      refine List.filter_congr fun j hj => ?_
      simp only [List.mem_cons, hl j hj, false_or]
    simp only [unpushed, List.filter_append, List.filter_cons, hk, not_false_eq_true, decide_true,
      if_true, List.mem_cons_self, not_true, decide_false, Bool.false_eq_true, if_false,
      List.map_append, List.map_cons, List.sum_append, List.sum_cons,
      hsame before fun j hj => hne j (List.mem_append_left _ hj),
      hsame after fun j hj => hne j (List.mem_append_right _ hj)]
    omega
  · have hnil : next k = [] := by
      by_contra hne
      exact hmem (hdom k hne)
    have hsame : (dom.filter fun j => decide (j ∉ k :: members)) =
        dom.filter fun j => decide (j ∉ members) := by
      refine List.filter_congr fun j hj => ?_
      have hjk : j ≠ k := fun heq => hmem (heq ▸ hj)
      simp only [List.mem_cons, hjk, false_or]
    rw [unpushed, unpushed, hsame, hnil, List.length_nil, Nat.zero_add]

/-- **With enough fuel the collection is closed.** Successors of members are members
or still on the stack; the induction empties the stack. -/
theorem collect_closed {dom : List κ} (hdom : ∀ k, next k ≠ [] → k ∈ dom) (hnodup : dom.Nodup)
    {fuel : ℕ} {pending members : List κ}
    (hfuel : pending.length + unpushed next dom members ≤ fuel)
    (hinv : ∀ k ∈ members, ∀ j ∈ next k, j ∈ members ∨ j ∈ pending) :
    (∀ k, k ∈ pending ∨ k ∈ members → k ∈ collect next fuel pending members) ∧
      ∀ k ∈ collect next fuel pending members, ∀ j ∈ next k,
        j ∈ collect next fuel pending members := by
  induction fuel generalizing pending members with
  | zero =>
    cases pending with
    | nil =>
      exact ⟨fun k hk => hk.resolve_left List.not_mem_nil, fun k hk j hj =>
        (hinv k hk j hj).resolve_right List.not_mem_nil⟩
    | cons top pending =>
      rw [List.length_cons] at hfuel
      omega
  | succ fuel ih =>
    cases pending with
    | nil =>
      exact ⟨fun k hk => hk.resolve_left List.not_mem_nil, fun k hk j hj =>
        (hinv k hk j hj).resolve_right List.not_mem_nil⟩
    | cons top pending =>
      rw [List.length_cons] at hfuel
      rw [collect]
      split
      · next htop =>
        -- the top is a member already
        have hinv' : ∀ k ∈ members, ∀ j ∈ next k, j ∈ members ∨ j ∈ pending := by
          intro k hk j hj
          rcases hinv k hk j hj with hj | hj
          · exact .inl hj
          · rcases List.mem_cons.mp hj with rfl | hj
            · exact .inl htop
            · exact .inr hj
        obtain ⟨hcover, hclosed⟩ := ih (by omega) hinv'
        refine ⟨fun k hk => hcover k ?_, hclosed⟩
        rcases hk with hk | hk
        · rcases List.mem_cons.mp hk with rfl | hk
          · exact .inr htop
          · exact .inl hk
        · exact .inr hk
      · next htop =>
        -- the top is a new member, and its successors are on the stack
        have hinv' : ∀ k ∈ top :: members, ∀ j ∈ next k,
            j ∈ top :: members ∨ j ∈ next top ++ pending := by
          intro k hk j hj
          rcases List.mem_cons.mp hk with rfl | hk
          · exact .inr (List.mem_append_left _ hj)
          · rcases hinv k hk j hj with hj | hj
            · exact .inl (List.mem_cons_of_mem _ hj)
            · rcases List.mem_cons.mp hj with rfl | hj
              · exact .inl List.mem_cons_self
              · exact .inr (List.mem_append_right _ hj)
        have hfuel' : (next top ++ pending).length + unpushed next dom (top :: members) ≤ fuel := by
          have hpart := unpushed_cons hdom hnodup htop
          rw [List.length_append]
          omega
        obtain ⟨hcover, hclosed⟩ := ih hfuel' hinv'
        refine ⟨fun k hk => hcover k ?_, hclosed⟩
        rcases hk with hk | hk
        · rcases List.mem_cons.mp hk with rfl | hk
          · exact .inr List.mem_cons_self
          · exact .inl (List.mem_append_right _ hk)
        · exact .inr (List.mem_cons_of_mem _ hk)

/-- **From one key, exactly the reachable keys are collected.** -/
theorem mem_collect_iff {dom : List κ} (hdom : ∀ k, next k ≠ [] → k ∈ dom) (hnodup : dom.Nodup)
    {fuel : ℕ} (hfuel : 1 + (dom.map fun k => (next k).length).sum ≤ fuel) {root k : κ} :
    k ∈ collect next fuel [root] [] ↔ Relation.ReflTransGen (fun j l => l ∈ next j) root k := by
  have hstart : [root].length + unpushed next dom [] ≤ fuel := by
    rw [unpushed_nil]
    exact hfuel
  obtain ⟨hcover, hclosed⟩ := collect_closed hdom hnodup hstart
    fun j hj => absurd hj List.not_mem_nil
  constructor
  · refine collect_invariant (Relation.ReflTransGen (fun j l => l ∈ next j) root)
      (fun j hj l hl => hj.tail hl) fuel ?_ (fun j hj => absurd hj List.not_mem_nil) k
    intro j hj
    rw [List.mem_singleton.mp hj]
  · intro h
    induction h with
    | refl => exact hcover root (.inl List.mem_cons_self)
    | tail _ hstep ih => exact hclosed _ ih _ hstep

/-! ## The loop without fuel -/

inductive Ends (next : κ → List κ) : List κ → List κ → List κ → ℕ → Prop
  /-- The stack is empty. -/
  | empty {members : List κ} : Ends next [] members members 0
  /-- The popped key is a member already. -/
  | met {top : κ} {pending members result : List κ} {rounds : ℕ} (hmem : top ∈ members)
      (hrest : Ends next pending members result rounds) :
      Ends next (top :: pending) members result (rounds + 1)
  /-- The popped key is new, and pushes its successors. -/
  | first {top : κ} {pending members result : List κ} {rounds : ℕ} (hnew : top ∉ members)
      (hrest : Ends next (next top ++ pending) (top :: members) result rounds) :
      Ends next (top :: pending) members result (rounds + 1)

/-- **The loop ends within the bound, with what was collected.** A round pops a key
from the stack, and a key that is pushed was unpushed before. -/
theorem collect_ends {dom : List κ} (hdom : ∀ k, next k ≠ [] → k ∈ dom) (hnodup : dom.Nodup)
    {fuel : ℕ} {pending members : List κ}
    (hfuel : pending.length + unpushed next dom members ≤ fuel) :
    ∃ rounds ≤ fuel, Ends next pending members (collect next fuel pending members) rounds := by
  induction fuel generalizing pending members with
  | zero =>
    have hnil : pending = [] := List.eq_nil_of_length_eq_zero (by omega)
    rw [hnil]
    exact ⟨0, le_refl 0, .empty⟩
  | succ fuel ih =>
    cases pending with
    | nil => exact ⟨0, Nat.zero_le _, .empty⟩
    | cons top pending =>
      rw [List.length_cons] at hfuel
      rw [collect]
      by_cases htop : top ∈ members
      · have hpopped : pending.length + unpushed next dom members ≤ fuel := by omega
        obtain ⟨rounds, hrounds, hends⟩ := ih hpopped
        rw [if_pos htop]
        exact ⟨rounds + 1, by omega, .met htop hends⟩
      · have hfuel' : (next top ++ pending).length + unpushed next dom (top :: members) ≤ fuel := by
          have hpart := unpushed_cons hdom hnodup htop
          rw [List.length_append]
          omega
        obtain ⟨rounds, hrounds, hends⟩ := ih hfuel'
        rw [if_neg htop]
        exact ⟨rounds + 1, by omega, .first htop hends⟩

end Worklist
