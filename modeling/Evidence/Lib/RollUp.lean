/-
The **roll-up layer**: a verdict computed bottom-up over a well-founded hierarchy.

Every element has a verdict of its own and the verdicts of its children. It fails
when its own verdict is a failure or a child fails, and it passes when it does not
fail and either passes on its own or has a child that passes. `RollUp` states these
two equations. They say what one level does; over a hierarchy without infinite
descent they determine the verdicts, and the two theorems read them off the
descendants: a failure is a failure of some descendant's own, a pass is the absence
of one together with a descendant that passes on its own.
-/
import Mathlib.Logic.Relation

set_option autoImplicit false

open Relation

variable {α : Type*}

/-- The verdicts `gap` and `pass` are rolled up along `child`, from the elements' own
failures and passes. -/
structure RollUp (child : α → α → Prop) (own done gap pass : α → Prop) : Prop where
  gap_iff : ∀ a, gap a ↔ own a ∨ ∃ b, child a b ∧ gap b
  pass_iff : ∀ a, pass a ↔ ¬ gap a ∧ (done a ∨ ∃ b, child a b ∧ pass b)

namespace RollUp

variable {child : α → α → Prop} {own done gap pass : α → Prop}

/-- A failure reaches every ancestor. -/
theorem gap_of_below (h : RollUp child own done gap pass) {a b : α} (hab : ReflTransGen child a b)
    (hb : gap b) : gap a := by
  induction hab using ReflTransGen.head_induction_on with
  | refl => exact hb
  | head hstep _ ih => exact (h.gap_iff _).mpr (.inr ⟨_, hstep, ih⟩)

/-- **An element fails exactly when a descendant fails on its own.** -/
theorem gap_iff_below (h : RollUp child own done gap pass) (hwf : WellFounded fun b a => child a b)
    {a : α} : gap a ↔ ∃ b, ReflTransGen child a b ∧ own b := by
  constructor
  · induction a using hwf.induction with
    | _ a ih =>
      intro hgap
      rcases (h.gap_iff a).mp hgap with hown | ⟨b, hchild, hb⟩
      · exact ⟨a, .refl, hown⟩
      · obtain ⟨c, hbc, hc⟩ := ih b hchild hb
        exact ⟨c, .head hchild hbc, hc⟩
  · rintro ⟨b, hab, hb⟩
    exact h.gap_of_below hab ((h.gap_iff b).mpr (.inl hb))

/-- **An element passes exactly when no descendant fails on its own and one passes on
its own.** -/
theorem pass_iff_below (h : RollUp child own done gap pass)
    (hwf : WellFounded fun b a => child a b) {a : α} :
    pass a ↔ (∀ b, ReflTransGen child a b → ¬ own b) ∧ ∃ b, ReflTransGen child a b ∧ done b := by
  constructor
  · intro hpass
    refine ⟨fun b hab hb => ((h.pass_iff a).mp hpass).1 ((h.gap_iff_below hwf).mpr ⟨b, hab, hb⟩), ?_⟩
    induction a using hwf.induction with
    | _ a ih =>
      rcases ((h.pass_iff a).mp hpass).2 with hdone | ⟨b, hchild, hb⟩
      · exact ⟨a, .refl, hdone⟩
      · obtain ⟨c, hbc, hc⟩ := ih b hchild hb
        exact ⟨c, .head hchild hbc, hc⟩
  · rintro ⟨hclean, b, hab, hdone⟩
    -- The passes climb from `b`; below each element of the way nothing fails on its own.
    induction hab using ReflTransGen.head_induction_on with
    | refl =>
      refine (h.pass_iff b).mpr ⟨fun hgap => ?_, .inl hdone⟩
      obtain ⟨c, hbc, hc⟩ := (h.gap_iff_below hwf).mp hgap
      exact hclean c hbc hc
    | @head a' c hstep hrest ih =>
      refine (h.pass_iff a').mpr ⟨fun hgap => ?_, .inr ⟨c, hstep, ih fun d hcd => ?_⟩⟩
      · obtain ⟨d, had, hd⟩ := (h.gap_iff_below hwf).mp hgap
        exact hclean d had hd
      · exact hclean d (.head hstep hcd)

end RollUp
