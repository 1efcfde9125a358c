/-
The **pairing layer**: two lists matched up in passes.

A pass offers every element of one list a partner or none. `paired` and `unpaired`
split its result, and what a pass takes from the other list is struck off there
before the next pass. The lemmas are the bookkeeping: each step splits a list up
to the order, so a whole pairing accounts for every element of both lists once
(`paired_append_unpaired`, `append_struck`, `flatMap_class_perm`). A pairing that
uses up both lists is a bijection (`bijOn_of_pairs`).
-/
import Mathlib.Algebra.Ring.Nat
import Mathlib.Data.List.Forall2
import Mathlib.Data.List.Nodup
import Mathlib.Data.List.Perm.Basic
import Mathlib.Data.Set.Function

set_option autoImplicit false

namespace Pairing

variable {α β κ : Type*}

/-! ## One pass -/

/-- The pairs of a pass. -/
def paired (offers : List (Option α × β)) : List (α × β) :=
  offers.filterMap fun offer => offer.1.map fun partner => (partner, offer.2)

/-- The elements a pass has left without a partner. -/
def unpaired (offers : List (Option α × β)) : List β :=
  offers.filterMap fun offer => if offer.1.isNone then some offer.2 else none

/-- **A pass pairs an element or leaves it.** -/
theorem paired_append_unpaired (offers : List (Option α × β)) :
    ((paired offers).map Prod.snd ++ unpaired offers).Perm (offers.map Prod.snd) := by
  induction offers with
  | nil => exact .nil
  | cons offer offers ih =>
    obtain ⟨partner, b⟩ := offer
    cases partner with
    | none => exact List.perm_middle.trans (ih.cons b)
    | some a => exact ih.cons b

/-- The partners of a pass are those it offers. -/
theorem map_fst_paired (offers : List (Option α × β)) :
    (paired offers).map Prod.fst = (offers.map Prod.fst).filterMap id := by
  rw [paired, List.map_filterMap, List.filterMap_map]
  refine List.filterMap_congr fun offer _ => ?_
  rw [Option.map_map]
  exact Option.map_id' ..

/-- **A pass with a partner for everyone** pairs all of them, in order. -/
theorem forall₂_paired {R : κ → α × β → Prop} {items : List κ} {offers : List (Option α × β)}
    (h : List.Forall₂ (fun item offer => ∃ partner, offer.1 = some partner ∧
      R item (partner, offer.2)) items offers) :
    List.Forall₂ R items (paired offers) ∧ unpaired offers = [] := by
  induction h with
  | nil => exact ⟨.nil, rfl⟩
  | @cons item offer items offers hoffer _ ih =>
    obtain ⟨partner, hpartner, hpair⟩ := hoffer
    have hsome : paired (offer :: offers) = (partner, offer.2) :: paired offers := by
      rw [paired, List.filterMap_cons_some (by rw [hpartner]; rfl)]
      rfl
    have hnone : unpaired (offer :: offers) = unpaired offers := by
      rw [unpaired, List.filterMap_cons_none (by rw [hpartner]; rfl)]
      rfl
    rw [hsome, hnone]
    exact ⟨.cons hpair ih.1, ih.2⟩

/-- **Striking off what a pass has taken.** -/
theorem append_struck [DecidableEq κ] {key : α → κ} {taken l : List α}
    (hl : (l.map key).Nodup) (htaken : (taken.map key).Nodup) (hsub : taken ⊆ l) :
    (taken ++ l.filter fun a => key a ∉ taken.map key).Perm l := by
  have hdisjoint : taken.Disjoint (l.filter fun a => key a ∉ taken.map key) := by
    intro a ha hkept
    exact of_decide_eq_true (List.mem_filter.mp hkept).2 (List.mem_map_of_mem ha)
  have hnodup : (taken ++ l.filter fun a => key a ∉ taken.map key).Nodup :=
    List.nodup_append'.mpr ⟨htaken.of_map, (hl.of_map).filter _, hdisjoint⟩
  refine (List.perm_ext_iff_of_nodup hnodup hl.of_map).mpr fun a => ?_
  rw [List.mem_append, List.mem_filter, decide_eq_true_iff]
  constructor
  · rintro (ha | ⟨ha, -⟩)
    · exact hsub ha
    · exact ha
  · intro ha
    by_cases htaken : key a ∈ taken.map key
    · obtain ⟨b, hb, hkey⟩ := List.mem_map.mp htaken
      exact .inl (List.inj_on_of_nodup_map hl (hsub hb) ha hkey ▸ hb)
    · exact .inr ⟨ha, htaken⟩

/-! ## Passes over classes -/

/-- What two pools of a class leave of each other. -/
theorem zip_append_drop (as : List α) (bs : List β) :
    (as.zip bs).map Prod.fst ++ as.drop bs.length = as := by
  induction as generalizing bs with
  | nil => simp
  | cons a as ih =>
    cases bs with
    | nil => rfl
    | cons b bs => exact congrArg (a :: ·) (ih bs)

theorem zip_append_drop' (as : List α) (bs : List β) :
    (as.zip bs).map Prod.snd ++ bs.drop as.length = bs := by
  induction as generalizing bs with
  | nil => simp
  | cons a as ih =>
    cases bs with
    | nil => rfl
    | cons b bs => exact congrArg (b :: ·) (ih bs)

/-- **A list is the union of its classes.** -/
theorem flatMap_class_perm [DecidableEq κ] (key : α → κ) {keys : List κ} {l : List α}
    (hnodup : keys.Nodup) (hcover : ∀ a ∈ l, key a ∈ keys) :
    (keys.flatMap fun k => l.filter fun a => key a = k).Perm l := by
  induction keys generalizing l with
  | nil =>
    rw [List.eq_nil_iff_forall_not_mem.mpr fun a ha => List.not_mem_nil (hcover a ha)]
    exact .nil
  | cons k keys ih =>
    obtain ⟨hk, hnodup⟩ := List.nodup_cons.mp hnodup
    -- the classes of the other keys lie in the rest of the list
    have hrest := ih (l := l.filter fun a => !decide (key a = k)) hnodup fun a ha => by
      obtain ⟨hmem, hne⟩ := List.mem_filter.mp ha
      exact (List.mem_cons.mp (hcover a hmem)).resolve_left (by simpa using hne)
    have hclasses : (keys.flatMap fun j =>
        (l.filter fun a => !decide (key a = k)).filter fun a => key a = j) =
        keys.flatMap fun j => l.filter fun a => key a = j := by
      refine List.flatMap_congr fun j hj => ?_
      rw [List.filter_filter]
      refine List.filter_congr fun a _ => ?_
      by_cases ha : key a = j
      · have hne : key a ≠ k := fun heq => hk (heq.symm.trans ha ▸ hj)
        rw [decide_eq_true ha, decide_eq_false hne]
        rfl
      · rw [decide_eq_false ha, Bool.false_and]
    rw [hclasses] at hrest
    rw [List.flatMap_cons]
    exact (hrest.append_left _).trans (List.filter_append_perm (fun a => decide (key a = k)) l)

theorem sum_length_class_le [DecidableEq κ] (key : α → κ) {keys : List κ} (hnodup : keys.Nodup)
    (l : List α) : (keys.map fun k => (l.filter fun a => key a = k).length).sum ≤ l.length := by
  have hcover := flatMap_class_perm key hnodup (l := l.filter fun a => key a ∈ keys) fun a ha =>
    of_decide_eq_true (List.mem_filter.mp ha).2
  have hclasses : (keys.flatMap fun k =>
      (l.filter fun a => key a ∈ keys).filter fun a => key a = k) =
      keys.flatMap fun k => l.filter fun a => key a = k := by
    refine List.flatMap_congr fun k hk => ?_
    rw [List.filter_filter]
    refine List.filter_congr fun a _ => ?_
    by_cases ha : key a = k
    · rw [decide_eq_true (ha ▸ hk : key a ∈ keys), Bool.and_true]
    · rw [decide_eq_false ha, Bool.false_and]
  rw [← List.length_flatMap, ← hclasses, hcover.length_eq]
  exact List.length_filter_le _ l

/-! ## Pairings as functions -/

/-- **A pairing that lists nothing twice is a bijection.** -/
theorem bijOn_of_pairs {pairs : List (α × β)} {f : β → α} (hfst : (pairs.map Prod.fst).Nodup)
    (hf : ∀ pair ∈ pairs, f pair.2 = pair.1) :
    Set.BijOn f { b | b ∈ pairs.map Prod.snd } { a | a ∈ pairs.map Prod.fst } := by
  refine ⟨?_, ?_, ?_⟩
  · intro b hb
    obtain ⟨pair, hpair, rfl⟩ := List.mem_map.mp hb
    rw [hf pair hpair]
    exact List.mem_map_of_mem hpair
  · intro b hb c hc heq
    obtain ⟨pair, hpair, rfl⟩ := List.mem_map.mp hb
    obtain ⟨other, hother, rfl⟩ := List.mem_map.mp hc
    rw [hf pair hpair, hf other hother] at heq
    exact congrArg Prod.snd (List.inj_on_of_nodup_map hfst hpair hother heq)
  · intro a ha
    obtain ⟨pair, hpair, rfl⟩ := List.mem_map.mp ha
    exact ⟨pair.2, List.mem_map_of_mem hpair, hf pair hpair⟩

end Pairing
