/-
The **ticket layer**: numbers that are handed out in order, and some of which are not used.

A counter gives every comer the next number, and some of the comers drop out. The numbers
in use are then the first ones, with none missing among them, exactly if nobody who
stayed came after somebody who dropped out (`kept_perm_range_iff`). Where the numbers are
machine integers they are counted round, and the same holds as long as they have not come round.
-/
import Mathlib.Data.List.Nodup
import Mathlib.Data.List.Range
import Mathlib.Data.List.Perm.Basic

set_option autoImplicit false

namespace Tickets

/-- The numbers in use: the places of those who stayed. -/
def kept (stayed : List Bool) : List ℕ := (stayed.zipIdx.filter Prod.fst).map Prod.snd

/-- Nobody who stayed came after somebody who dropped out. -/
def Seamless (stayed : List Bool) : Prop := stayed.Pairwise fun b c => b = false → c = false

/-- The numbers in use, counted round a modulus, are the first ones. -/
def Gapless (modulus : ℕ) (stayed : List Bool) : Prop :=
  ((kept stayed).map (· % modulus)).Perm (List.range (kept stayed).length)

variable {stayed : List Bool} {b : Bool}

@[simp] theorem kept_nil : kept [] = [] := rfl

/-- The next comer. -/
theorem kept_snoc : kept (stayed ++ [b]) = kept stayed ++ if b then [stayed.length] else [] := by
  rw [kept, List.zipIdx_append, List.filter_append, List.map_append, kept]
  refine congrArg _ ?_
  cases b with
  | false => rfl
  | true => simp

theorem mem_kept {n : ℕ} : n ∈ kept stayed ↔ stayed[n]? = some true := by
  simp only [kept, List.mem_map, List.mem_filter, Prod.exists, exists_eq_right,
    List.mem_zipIdx_iff_getElem?]

theorem lt_of_mem_kept {n : ℕ} (h : n ∈ kept stayed) : n < stayed.length :=
  (List.getElem?_eq_some_iff.mp (mem_kept.mp h)).1

/-- **No number is missing exactly if nobody stayed after one who dropped out.** -/
theorem kept_perm_range_iff :
    (kept stayed).Perm (List.range (kept stayed).length) ↔ Seamless stayed := by
  constructor
  · intro hperm
    rw [Seamless, List.pairwise_iff_getElem]
    intro i j hi hj hij hleft
    by_contra hright
    rw [Bool.not_eq_false] at hright
    have hmem : j ∈ kept stayed := mem_kept.mpr (List.getElem?_eq_some_iff.mpr ⟨hj, hright⟩)
    have hlt := List.mem_range.mp (hperm.mem_iff.mp hmem)
    have hgap := mem_kept.mp (hperm.mem_iff.mpr (List.mem_range.mpr (hij.trans hlt)))
    rw [List.getElem?_eq_some_iff.mpr ⟨hi, hleft⟩] at hgap
    cases hgap
  · intro hseamless
    induction stayed using List.reverseRecOn with
    | nil => exact .nil
    | append_singleton stayed b ih =>
      rw [Seamless, List.pairwise_append] at hseamless
      obtain ⟨hearlier, -, hlast⟩ := hseamless
      cases b with
      | false =>
        rw [kept_snoc, if_neg Bool.false_ne_true, List.append_nil]
        exact ih hearlier
      | true =>
        -- the last one stayed, and so did everybody before
        have hall : ∀ c ∈ stayed, c = true := by
          intro c hc
          by_contra hdropped
          rw [Bool.not_eq_true] at hdropped
          cases hlast c hc true (List.mem_singleton.mpr rfl) hdropped
        have hkept : kept stayed = List.range stayed.length := by
          rw [kept, List.filter_eq_self.mpr, List.zipIdx_map_snd, List.range_eq_range']
          intro entry hentry
          exact hall _ (List.fst_mem_of_mem_zipIdx hentry)
        rw [kept_snoc, if_pos rfl, hkept, ← List.range_succ, List.length_range]

/-- As long as the numbers have not come round, the modulus does not show. -/
theorem gapless_iff {modulus : ℕ} (hfits : stayed.length ≤ modulus) :
    Gapless modulus stayed ↔ Seamless stayed := by
  have hsame : (kept stayed).map (· % modulus) = kept stayed := by
    refine (List.map_congr_left fun n hn => ?_).trans (List.map_id _)
    exact Nat.mod_eq_of_lt ((lt_of_mem_kept hn).trans_le hfits)
  rw [Gapless, hsame]
  exact kept_perm_range_iff

end Tickets
