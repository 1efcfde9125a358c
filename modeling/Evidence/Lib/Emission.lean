/-
The **emission layer**: a loop that threads a state and emits output.

`emit step s xs` runs `step` over `xs` from `s`, and returns what the steps emit, in
order, with the state they leave. `emit_append` cuts a run at an element, so that a
step is read at the state its predecessors leave.

Where every output names the element that emitted it, and no element is visited
twice, the output of a whole run determines the output of every step. `emit_diverge`
is the resulting rule for two runs: a relation between the states that no pair of
equal outputs can end holds at the end of two runs of equal output.
-/
import Mathlib.Data.List.Perm.Basic
import Mathlib.Data.List.Nodup

set_option autoImplicit false

namespace Emission

variable {σ α β : Type*}

/-- Run the steps over a list: the outputs in order, and the state left. -/
def emit (step : σ → α → List β × σ) : σ → List α → List β × σ
  | s, [] => ([], s)
  | s, x :: xs => ((step s x).1 ++ (emit step (step s x).2 xs).1, (emit step (step s x).2 xs).2)

@[simp] theorem emit_nil (step : σ → α → List β × σ) (s : σ) : emit step s [] = ([], s) := rfl

@[simp] theorem emit_cons (step : σ → α → List β × σ) (s : σ) (x : α) (xs : List α) :
    emit step s (x :: xs) =
      ((step s x).1 ++ (emit step (step s x).2 xs).1, (emit step (step s x).2 xs).2) :=
  rfl

/-- A run over two lists is a run over the first and then over the second. -/
theorem emit_append (step : σ → α → List β × σ) (s : σ) (xs ys : List α) :
    emit step s (xs ++ ys) =
      ((emit step s xs).1 ++ (emit step (emit step s xs).2 ys).1,
        (emit step (emit step s xs).2 ys).2) := by
  induction xs generalizing s with
  | nil => rfl
  | cons x xs ih => simp only [List.cons_append, emit_cons, ih, List.append_assoc]

/-- **Two loops run alike** when their steps agree at every state the first one
reaches. -/
theorem emit_congr {step step' : σ → α → List β × σ} {s : σ} {xs : List α}
    (h : ∀ done x rest, xs = done ++ x :: rest →
      step (emit step s done).2 x = step' (emit step s done).2 x) :
    emit step s xs = emit step' s xs := by
  induction xs generalizing s with
  | nil => rfl
  | cons x xs ih =>
    have hhead : step s x = step' s x := h [] x xs rfl
    have htail := ih fun done y rest hsplit => by
      have hlater := h (x :: done) y rest (by rw [hsplit, List.cons_append])
      rwa [emit_cons] at hlater
    rw [emit_cons, emit_cons, htail, hhead]

theorem mem_emit {step : σ → α → List β × σ} {s : σ} {xs : List α} {b : β}
    (h : b ∈ (emit step s xs).1) : ∃ t, ∃ x ∈ xs, b ∈ (step t x).1 := by
  induction xs generalizing s with
  | nil => exact nomatch h
  | cons x xs ih =>
    rcases List.mem_append.mp h with hhead | htail
    · exact ⟨s, x, List.mem_cons_self, hhead⟩
    · obtain ⟨t, y, hy, hb⟩ := ih htail
      exact ⟨t, y, List.mem_cons_of_mem x hy, hb⟩

/-! ## Attributed output -/

section Attributed

variable [DecidableEq α] {source : β → Option α} {step step' : σ → α → List β × σ}

/-- The outputs of one element are what the others leave of a run's output. -/
private theorem filter_attributed (hstep : ∀ s x, ∀ b ∈ (step s x).1, source b = some x)
    {s t : σ} {x : α} {xs : List α} (hx : x ∉ xs) :
    (((step s x).1 ++ (emit step t xs).1).filter fun b => source b = some x) = (step s x).1 ∧
      (((step s x).1 ++ (emit step t xs).1).filter fun b => ¬ source b = some x) =
        (emit step t xs).1 := by
  have hhead : ∀ b ∈ (step s x).1, source b = some x := hstep s x
  have htail : ∀ b ∈ (emit step t xs).1, ¬ source b = some x := by
    intro b hb hsource
    obtain ⟨u, y, hy, hmem⟩ := mem_emit hb
    have heq := hstep u y b hmem
    rw [hsource, Option.some.injEq] at heq
    exact hx (heq ▸ hy)
  rw [List.filter_append, List.filter_append]
  constructor
  · rw [List.filter_eq_self.mpr fun b hb => decide_eq_true (hhead b hb),
      List.filter_eq_nil_iff.mpr fun b hb => by simpa using htail b hb, List.append_nil]
  · rw [List.filter_eq_nil_iff.mpr fun b hb => by simpa using hhead b hb,
      List.filter_eq_self.mpr fun b hb => decide_eq_true (htail b hb), List.nil_append]

/-- Runs of equal output have equal output at the first element and over the rest. -/
theorem emit_cons_perm (hstep : ∀ s x, ∀ b ∈ (step s x).1, source b = some x)
    (hstep' : ∀ s x, ∀ b ∈ (step' s x).1, source b = some x) {s t s' t' : σ} {x : α} {xs : List α}
    (hx : x ∉ xs)
    (hperm : ((step s x).1 ++ (emit step s' xs).1).Perm ((step' t x).1 ++ (emit step' t' xs).1)) :
    (step s x).1.Perm (step' t x).1 ∧ (emit step s' xs).1.Perm (emit step' t' xs).1 := by
  obtain ⟨hown, hrest⟩ := filter_attributed hstep (s := s) (t := s') hx
  obtain ⟨hown', hrest'⟩ := filter_attributed hstep' (s := t) (t := t') hx
  have hfirst := hperm.filter fun b => source b = some x
  have hlater := hperm.filter fun b => ¬ source b = some x
  rw [hown, hown'] at hfirst
  rw [hrest, hrest'] at hlater
  exact ⟨hfirst, hlater⟩

/-- **The rule for two runs.** The states start related, and a step of equal output
keeps them related; then two runs of equal output end related. -/
theorem emit_diverge (hstep : ∀ s x, ∀ b ∈ (step s x).1, source b = some x) {R : σ → σ → Prop}
    (hkeep : ∀ s t x, R s t → (step s x).1.Perm (step t x).1 → R (step s x).2 (step t x).2)
    {xs : List α} (hnodup : xs.Nodup) {s t : σ} (h : R s t)
    (hperm : (emit step s xs).1.Perm (emit step t xs).1) :
    R (emit step s xs).2 (emit step t xs).2 := by
  induction xs generalizing s t with
  | nil => exact h
  | cons x xs ih =>
    obtain ⟨hx, hrest⟩ := List.nodup_cons.mp hnodup
    obtain ⟨hfirst, hlater⟩ := emit_cons_perm hstep hstep hx hperm
    exact ih hrest (hkeep s t x h hfirst) hlater

end Attributed

end Emission
