/-
The **reference layer**: things that may have a name, and links that name them.

Some of the things get new names, and the links follow a map from the old names to the new
ones, where they do. `Renaming` says what such a change keeps in order: the new names are different
from each other and from all that was there, and the map leads from the old name of a renamed thing
to its new one. Then no link names a thing that it did not name before, and
`Renaming.faithful_iff` says when none is lost.
-/
import Mathlib.Data.Option.Basic

set_option autoImplicit false

namespace References

variable {ι κ ν : Type*}

def Refers (name : ι → Option ν) (link : κ → Option ν) (k : κ) (j : ι) : Prop :=
  ∃ l, link k = some l ∧ name j = some l

structure Renaming (name name' : ι → Option ν) (link link' : κ → Option ν) (renamed : ι → Prop)
    (followed : κ → Prop) (remap : ν → Option ν) : Prop where
  kept : ∀ j, ¬ renamed j → name' j = name j
  fresh : ∀ j, renamed j → ∃ v, name' j = some v ∧ (∀ i, name i ≠ some v) ∧ ∀ k, link k ≠ some v
  distinct : ∀ i j, renamed i → renamed j → name' i = name' j → i = j
  apart : ∀ i j l, renamed i → ¬ renamed j → name i = some l → name j ≠ some l
  sound : ∀ l v, remap l = some v → ∃ j, renamed j ∧ name j = some l ∧ name' j = some v
  complete : ∀ j l, renamed j → name j = some l → ∃ v, remap l = some v
  links : ∀ k, followed k → link' k = (link k).map fun l => (remap l).getD l
  others : ∀ k, ¬ followed k → link' k = link k

namespace Renaming

variable {name name' : ι → Option ν} {link link' : κ → Option ν} {renamed : ι → Prop}
  {followed : κ → Prop} {remap : ν → Option ν}

theorem link_cases (h : Renaming name name' link link' renamed followed remap) {k : κ} {l' : ν}
    (hlink : link' k = some l') :
    (link k = some l' ∧ (followed k → remap l' = none)) ∨
      followed k ∧ ∃ l, link k = some l ∧ remap l = some l' := by
  by_cases hfollowed : followed k
  · rw [h.links k hfollowed] at hlink
    obtain ⟨l, hl, hmap⟩ := Option.map_eq_some_iff.mp hlink
    cases hremap : remap l with
    | none =>
      rw [hremap, Option.getD_none] at hmap
      rw [← hmap]
      exact .inl ⟨hl, fun _ => hremap⟩
    | some v =>
      rw [hremap, Option.getD_some] at hmap
      exact .inr ⟨hfollowed, l, hl, hmap ▸ hremap⟩
  · rw [h.others k hfollowed] at hlink
    exact .inl ⟨hlink, fun hyes => absurd hyes hfollowed⟩

/-- **No link names a thing that it did not name.** -/
theorem names_of_names (h : Renaming name name' link link' renamed followed remap) {k : κ} {j : ι}
    (hnames : Refers name' link' k j) : Refers name link k j := by
  obtain ⟨l', hlink, hname⟩ := hnames
  rcases h.link_cases hlink with ⟨hold, -⟩ | ⟨-, l, hl, hremap⟩
  · -- the link is an old text, so that the thing has no new name
    by_cases hren : renamed j
    · obtain ⟨v, hv, -, hunlinked⟩ := h.fresh j hren
      rw [hv, Option.some.injEq] at hname
      exact absurd (hname ▸ hold) (hunlinked k)
    · exact ⟨l', hold, h.kept j hren ▸ hname⟩
  · obtain ⟨i, hi, hil, hiv⟩ := h.sound l l' hremap
    by_cases hren : renamed j
    · have hsame := h.distinct i j hi hren (hiv.trans hname.symm)
      exact ⟨l, hl, hsame ▸ hil⟩
    · -- a kept name would be a new one
      obtain ⟨v, hv, hunnamed, -⟩ := h.fresh i hi
      have hvl : v = l' := Option.some.inj (hv.symm.trans hiv)
      rw [h.kept j hren, ← hvl] at hname
      exact absurd hname (hunnamed j)

/-- **When no reference is lost**: what links name is renamed only where the link follows, and where
nothing else has that name. -/
theorem faithful_iff (h : Renaming name name' link link' renamed followed remap) :
    (∀ k j, Refers name' link' k j ↔ Refers name link k j) ↔
      ∀ k j, Refers name link k j → renamed j → followed k ∧ ∀ i, name i = name j → i = j := by
  constructor
  · intro hfaithful k j hnames hren
    obtain ⟨l', hlink, hname⟩ := (hfaithful k j).mpr hnames
    obtain ⟨v, hv, -, hunlinked⟩ := h.fresh j hren
    have hvl : v = l' := Option.some.inj (hv.symm.trans hname)
    rcases h.link_cases hlink with ⟨hold, -⟩ | ⟨hfollowed, -⟩
    · exact absurd (hvl ▸ hold) (hunlinked k)
    · refine ⟨hfollowed, fun i hi => ?_⟩
      obtain ⟨l, hl, hlname⟩ := hnames
      have hiren : renamed i := by
        by_contra hkept
        exact h.apart j i l hren hkept hlname (hi.trans hlname)
      -- the link names both before, and so both after
      obtain ⟨l'', hlink', hiname⟩ := (hfaithful k i).mpr ⟨l, hl, hi.trans hlname⟩
      have hsame : l'' = l' := Option.some.inj (hlink'.symm.trans hlink)
      exact h.distinct i j hiren hren (hiname.trans (hsame ▸ hname.symm))
  · intro hcondition k j
    refine ⟨h.names_of_names, ?_⟩
    rintro ⟨l, hl, hname⟩
    by_cases hren : renamed j
    · obtain ⟨hfollowed, hunique⟩ := hcondition k j ⟨l, hl, hname⟩ hren
      obtain ⟨v, hv⟩ := h.complete j l hren hname
      obtain ⟨i, -, hil, hiv⟩ := h.sound l v hv
      have hij := hunique i (hil.trans hname.symm)
      refine ⟨v, ?_, hij ▸ hiv⟩
      rw [h.links k hfollowed, hl, Option.map_some, hv, Option.getD_some]
    · refine ⟨l, ?_, (h.kept j hren).trans hname⟩
      by_cases hfollowed : followed k
      · have hnone : remap l = none := by
          cases hremap : remap l with
          | none => rfl
          | some v =>
            obtain ⟨i, hi, hil, -⟩ := h.sound l v hremap
            exact absurd hname (h.apart i j l hi hren hil)
        rw [h.links k hfollowed, hl, Option.map_some, hnone, Option.getD_none]
      · rw [h.others k hfollowed, hl]

end Renaming

end References
