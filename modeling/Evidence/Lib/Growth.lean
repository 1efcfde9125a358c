/-
The **growing-map layer**: partial maps that operations only add entries to.

`Extends m n` says that every entry of `m` is one of `n`, with the value it has in
`m`. It is a preorder, and storing under a free key extends a map, whatever is
stored there. A loop whose steps extend the map extends it, so what a map holds at
one moment of a run it holds from then on.
-/
import Mathlib.Logic.Function.Basic

set_option autoImplicit false

namespace Growth

variable {α κ ν : Type}

/-- Every entry of the first map is one of the second. -/
def Extends (m n : κ → Option ν) : Prop :=
  ∀ k v, m k = some v → n k = some v

/-- A map extends itself. -/
theorem Extends.refl (m : κ → Option ν) : Extends m m :=
  fun _ _ h => h

theorem Extends.trans {m n p : κ → Option ν} (hmn : Extends m n) (hnp : Extends n p) :
    Extends m p :=
  fun k v h => hnp k v (hmn k v h)

/-- A free key can take any value. -/
theorem extends_update [DecidableEq κ] {m : κ → Option ν} {k : κ} (hfree : m k = none)
    (value : Option ν) : Extends m (Function.update m k value) := by
  intro k' v hv
  have hne : k' ≠ k := by
    rintro rfl
    rw [hfree] at hv
    cases hv
  rw [Function.update_of_ne hne]
  exact hv

/-- **A loop of extending steps extends the map.** -/
theorem extends_foldl {step : (κ → Option ν) → α → κ → Option ν}
    (hstep : ∀ m a, Extends m (step m a)) (m : κ → Option ν) (as : List α) :
    Extends m (as.foldl step m) := by
  induction as generalizing m with
  | nil => exact Extends.refl m
  | cons a as ih =>
    rw [List.foldl_cons]
    exact (hstep m a).trans (ih (step m a))

end Growth
