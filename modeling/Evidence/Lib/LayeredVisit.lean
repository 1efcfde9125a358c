/-
The **layered-visit layer**: visiting keys and what they link to, with one set of keys
seen.

Keys are visited in order. A key of the upper layer is listed, and the keys it links to
are listed in the lower layer right behind it; a key without links is seen and not
listed. A key that was seen before, in whatever role, is passed over.

The one set of both layers makes the lists depend on the order. They are complete if and
only if at its first visit no key of the upper layer was linked by an earlier key, and
every key of the lower layer that some key links to was (`complete_iff`). The proof goes
along the visited keys: as long as the order is in step, what is seen is what was visited
or linked.
-/
import Mathlib.Data.List.Induction
import Mathlib.Data.List.Nodup

set_option autoImplicit false

namespace LayeredVisit

variable {κ : Type*} [DecidableEq κ]

/-- The keys seen, and those listed in each layer. -/
structure Visit (κ : Type*) where
  seen : List κ
  upper : List κ
  lower : List κ

def Visit.start : Visit κ where
  seen := []
  upper := []
  lower := []

/-- A key that a key of the upper layer links to. -/
def Visit.below (v : Visit κ) (k : κ) : Visit κ :=
  if k ∈ v.seen then v else { v with seen := k :: v.seen, lower := v.lower ++ [k] }

/-- A key of the order; `links` gives the links of a key of the upper layer. -/
def Visit.visit (links : κ → Option (List κ)) (v : Visit κ) (k : κ) : Visit κ :=
  if k ∈ v.seen then v
  else
    match links k with
    | none => { v with seen := k :: v.seen }
    | some linked =>
      linked.foldl Visit.below { v with seen := k :: v.seen, upper := v.upper ++ [k] }

def run (links : κ → Option (List κ)) (order : List κ) : Visit κ :=
  order.foldl (Visit.visit links) Visit.start

def LinkedBy (links : κ → Option (List κ)) (order : List κ) (k : κ) : Prop :=
  ∃ j ∈ order, ∃ linked, links j = some linked ∧ k ∈ linked

variable {links : κ → Option (List κ)} {v : Visit κ} {j k : κ} {order before after : List κ}

/-! ## One key -/

theorem mem_seen_below : j ∈ (v.below k).seen ↔ j ∈ v.seen ∨ j = k := by
  unfold Visit.below
  by_cases hk : k ∈ v.seen
  · rw [if_pos hk]
    refine ⟨.inl, fun h => h.elim id ?_⟩
    rintro rfl
    exact hk
  · rw [if_neg hk, List.mem_cons, or_comm]

theorem mem_lower_below : j ∈ (v.below k).lower ↔ j ∈ v.lower ∨ (j = k ∧ k ∉ v.seen) := by
  unfold Visit.below
  by_cases hk : k ∈ v.seen
  · rw [if_pos hk, iff_false_intro (not_not.mpr hk), and_false, or_false]
  · rw [if_neg hk, List.mem_append, List.mem_singleton, and_iff_left hk]

theorem upper_below : (v.below k).upper = v.upper := by
  unfold Visit.below
  split <;> rfl

theorem mem_seen_foldl_below {linked : List κ} :
    j ∈ (linked.foldl Visit.below v).seen ↔ j ∈ v.seen ∨ j ∈ linked := by
  induction linked generalizing v with
  | nil => simp only [List.foldl_nil, List.not_mem_nil, or_false]
  | cons k linked ih => rw [List.foldl_cons, ih, mem_seen_below, List.mem_cons, or_assoc]

theorem mem_lower_foldl_below {linked : List κ} :
    j ∈ (linked.foldl Visit.below v).lower ↔ j ∈ v.lower ∨ (j ∈ linked ∧ j ∉ v.seen) := by
  induction linked generalizing v with
  | nil => simp only [List.foldl_nil, List.not_mem_nil, false_and, or_false]
  | cons k linked ih =>
    rw [List.foldl_cons, ih, mem_lower_below, mem_seen_below, List.mem_cons]
    by_cases hjk : j = k
    · subst hjk
      simp only [true_and, or_true, not_true, and_false, or_false, true_or]
    · simp only [hjk, false_and, or_false, false_or]

theorem upper_foldl_below (linked : List κ) : (linked.foldl Visit.below v).upper = v.upper := by
  induction linked generalizing v with
  | nil => rfl
  | cons k linked ih => rw [List.foldl_cons, ih, upper_below]

/-- What one key adds to the keys seen. -/
theorem mem_seen_visit : j ∈ (v.visit links k).seen ↔
    j ∈ v.seen ∨ j = k ∨ (k ∉ v.seen ∧ ∃ linked, links k = some linked ∧ j ∈ linked) := by
  unfold Visit.visit
  by_cases hk : k ∈ v.seen
  · rw [if_pos hk]
    refine ⟨.inl, fun h => ?_⟩
    rcases h with h | rfl | ⟨hnot, _⟩
    · exact h
    · exact hk
    · exact absurd hk hnot
  · rw [if_neg hk, and_iff_right hk]
    cases links k with
    | none =>
      simp only [List.mem_cons, reduceCtorEq, false_and, exists_false, or_false]
      exact or_comm
    | some linked =>
      simp only [mem_seen_foldl_below, List.mem_cons, Option.some.injEq, exists_eq_left']
      rw [or_comm (a := j = k), or_assoc]

/-- What one key adds to the upper layer: itself, at its first visit. -/
theorem mem_upper_visit : j ∈ (v.visit links k).upper ↔
    j ∈ v.upper ∨ (j = k ∧ k ∉ v.seen ∧ (links k).isSome = true) := by
  unfold Visit.visit
  by_cases hk : k ∈ v.seen
  · rw [if_pos hk, iff_false_intro (not_not.mpr hk), false_and, and_false, or_false]
  · rw [if_neg hk, and_iff_right hk]
    cases links k with
    | none => simp only [Option.isSome_none, Bool.false_eq_true, and_false, or_false]
    | some linked =>
      simp only [upper_foldl_below, List.mem_append, List.mem_singleton, Option.isSome_some,
        and_true]

theorem mem_lower_visit : j ∈ (v.visit links k).lower ↔
    j ∈ v.lower ∨ (k ∉ v.seen ∧ ∃ linked, links k = some linked ∧ j ∈ linked ∧ j ∉ v.seen ∧
      j ≠ k) := by
  unfold Visit.visit
  by_cases hk : k ∈ v.seen
  · rw [if_pos hk, iff_false_intro (not_not.mpr hk), false_and, or_false]
  · rw [if_neg hk, and_iff_right hk]
    cases links k with
    | none => simp only [reduceCtorEq, false_and, exists_false, or_false]
    | some linked =>
      simp only [mem_lower_foldl_below, List.mem_cons, not_or, Option.some.injEq, exists_eq_left']
      rw [and_comm (a := ¬ j = k)]

/-! ## A run -/

theorem run_concat : run links (order ++ [k]) = (run links order).visit links k := by
  rw [run, List.foldl_append, List.foldl_cons, List.foldl_nil]
  rfl

omit [DecidableEq κ] in
theorem linkedBy_concat : LinkedBy links (order ++ [k]) j ↔
    LinkedBy links order j ∨ ∃ linked, links k = some linked ∧ j ∈ linked := by
  unfold LinkedBy
  constructor
  · rintro ⟨i, hi, hlinked⟩
    rcases List.mem_append.mp hi with hi | hi
    · exact .inl ⟨i, hi, hlinked⟩
    · rw [List.mem_singleton.mp hi] at hlinked
      exact .inr hlinked
  · rintro (⟨i, hi, hlinked⟩ | hlinked)
    · exact ⟨i, List.mem_append_left _ hi, hlinked⟩
    · exact ⟨k, List.mem_append_right _ List.mem_cons_self, hlinked⟩

omit [DecidableEq κ] in
theorem LinkedBy.append (h : LinkedBy links order k) (after : List κ) :
    LinkedBy links (order ++ after) k := by
  obtain ⟨j, hj, hlinked⟩ := h
  exact ⟨j, List.mem_append_left _ hj, hlinked⟩

/-- The visited keys are seen. -/
theorem mem_seen_of_mem (h : k ∈ order) : k ∈ (run links order).seen := by
  induction order using List.reverseRecOn with
  | nil => exact absurd h List.not_mem_nil
  | append_singleton order i ih =>
    rw [run_concat, mem_seen_visit]
    rcases List.mem_append.mp h with h | h
    · exact .inl (ih h)
    · exact .inr (.inl (List.mem_singleton.mp h))

/-- **The lists are sound**: the upper layer has visited keys with links, and the lower
layer keys that a visited one links to. -/
theorem run_sound (links : κ → Option (List κ)) (order : List κ) :
    (∀ j ∈ (run links order).upper, j ∈ order ∧ (links j).isSome = true) ∧
      ∀ j ∈ (run links order).lower, LinkedBy links order j := by
  induction order using List.reverseRecOn with
  | nil => exact ⟨fun j hj => absurd hj List.not_mem_nil, fun j hj => absurd hj List.not_mem_nil⟩
  | append_singleton order k ih =>
    rw [run_concat]
    refine ⟨fun j hj => ?_, fun j hj => ?_⟩
    · rcases mem_upper_visit.mp hj with hj | ⟨rfl, _, hlinks⟩
      · exact ⟨List.mem_append_left _ (ih.1 j hj).1, (ih.1 j hj).2⟩
      · exact ⟨List.mem_append_right _ List.mem_cons_self, hlinks⟩
    · rw [linkedBy_concat]
      rcases mem_lower_visit.mp hj with hj | ⟨_, linked, hlinked, hmem, _⟩
      · exact .inl (ih.2 j hj)
      · exact .inr ⟨linked, hlinked, hmem⟩

/-- What is listed was seen, and nothing is listed twice. -/
def Visit.Once (v : Visit κ) : Prop :=
  (v.upper.Nodup ∧ ∀ j ∈ v.upper, j ∈ v.seen) ∧ v.lower.Nodup ∧ ∀ j ∈ v.lower, j ∈ v.seen

omit [DecidableEq κ] in
theorem once_snoc {listed seen : List κ} (hnodup : listed.Nodup) (hseen : ∀ j ∈ listed, j ∈ seen)
    (hk : k ∉ seen) : (listed ++ [k]).Nodup ∧ ∀ j ∈ listed ++ [k], j ∈ k :: seen := by
  refine ⟨List.nodup_append'.mpr ⟨hnodup, List.nodup_singleton k, fun j hj hjk => hk ?_⟩,
    fun j hj => ?_⟩
  · rw [← List.mem_singleton.mp hjk]
    exact hseen j hj
  · rcases List.mem_append.mp hj with hj | hj
    · exact List.mem_cons_of_mem k (hseen j hj)
    · rw [List.mem_singleton.mp hj]
      exact List.mem_cons_self

theorem Visit.Once.foldl_below (h : v.Once) (linked : List κ) :
    (linked.foldl Visit.below v).Once := by
  induction linked generalizing v with
  | nil => exact h
  | cons k linked ih =>
    obtain ⟨⟨hupper, hupper_seen⟩, hlower, hlower_seen⟩ := h
    rw [List.foldl_cons]
    refine ih ?_
    unfold Visit.below
    by_cases hk : k ∈ v.seen
    · rw [if_pos hk]
      exact ⟨⟨hupper, hupper_seen⟩, hlower, hlower_seen⟩
    · rw [if_neg hk]
      exact ⟨⟨hupper, fun j hj => List.mem_cons_of_mem k (hupper_seen j hj)⟩,
        once_snoc hlower hlower_seen hk⟩

/-- **Nothing is listed twice** in a layer. -/
theorem run_once (links : κ → Option (List κ)) (order : List κ) :
    (run links order).Once := by
  induction order using List.reverseRecOn with
  | nil =>
    exact ⟨⟨List.nodup_nil, fun j hj => absurd hj List.not_mem_nil⟩, List.nodup_nil,
      fun j hj => absurd hj List.not_mem_nil⟩
  | append_singleton order k ih =>
    obtain ⟨⟨hupper, hupper_seen⟩, hlower, hlower_seen⟩ := ih
    rw [run_concat]
    unfold Visit.visit
    by_cases hk : k ∈ (run links order).seen
    · rw [if_pos hk]
      exact ⟨⟨hupper, hupper_seen⟩, hlower, hlower_seen⟩
    · rw [if_neg hk]
      have hlower_seen' : ∀ j ∈ (run links order).lower, j ∈ k :: (run links order).seen :=
        fun j hj => List.mem_cons_of_mem k (hlower_seen j hj)
      cases links k with
      | none =>
        have hupper_seen' : ∀ j ∈ (run links order).upper, j ∈ k :: (run links order).seen :=
          fun j hj => List.mem_cons_of_mem k (hupper_seen j hj)
        exact ⟨⟨hupper, hupper_seen'⟩, hlower, hlower_seen'⟩
      | some linked =>
        exact Visit.Once.foldl_below (v := ⟨k :: (run links order).seen,
          (run links order).upper ++ [k], (run links order).lower⟩)
          ⟨once_snoc hupper hupper_seen hk, hlower, hlower_seen'⟩ linked

/-- **A key that was seen is not listed any more.** -/
theorem foldl_visit_of_seen (h : k ∈ v.seen) (after : List κ) :
    (k ∈ (after.foldl (Visit.visit links) v).upper → k ∈ v.upper) ∧
      (k ∈ (after.foldl (Visit.visit links) v).lower → k ∈ v.lower) := by
  induction after generalizing v with
  | nil => exact ⟨id, id⟩
  | cons i after ih =>
    obtain ⟨hupper, hlower⟩ := ih (v := v.visit links i) (mem_seen_visit.mpr (.inl h))
    refine ⟨fun hk => ?_, fun hk => ?_⟩
    · rcases mem_upper_visit.mp (hupper hk) with hk | ⟨rfl, hnot, _⟩
      · exact hk
      · exact absurd h hnot
    · rcases mem_lower_visit.mp (hlower hk) with hk | ⟨_, _, _, _, hnot, _⟩
      · exact hk
      · exact absurd h hnot

/-- A run over an order goes on from the run over its beginning. -/
theorem run_append : run links (before ++ after) =
    after.foldl (Visit.visit links) (run links before) := by
  rw [run, List.foldl_append]
  rfl

/-! ## Complete lists -/

section Complete

variable (links) (marked : κ → Prop)

/-- A key is in step at its first visit: no key before links to it, if it is of the upper
layer, and one does, if it is of the lower layer and any key of the order does. -/
def AtFirst (order before : List κ) (k : κ) : Prop :=
  ((links k).isSome = true → ¬ LinkedBy links before k) ∧
    (marked k → LinkedBy links order k → LinkedBy links before k)

/-- Every key is in step at its first visit. -/
def InStep (order : List κ) : Prop :=
  ∀ before k after, order = before ++ k :: after → k ∉ before →
    AtFirst links marked order before k

/-- Every visited key with links is in the upper layer, and every marked key that a visited
one links to is in the lower layer. -/
def Complete (order : List κ) : Prop :=
  (∀ k ∈ order, (links k).isSome = true → k ∈ (run links order).upper) ∧
    ∀ k, marked k → LinkedBy links order k → k ∈ (run links order).lower

variable {links marked}

/-- A member has a first occurrence. -/
theorem exists_first (h : k ∈ order) : ∃ before after, order = before ++ k :: after ∧
    k ∉ before := by
  induction order with
  | nil => exact absurd h List.not_mem_nil
  | cons i order ih =>
    by_cases hik : k = i
    · subst hik
      exact ⟨[], order, rfl, List.not_mem_nil⟩
    · obtain ⟨before, after, rfl, hbefore⟩ := ih ((List.mem_cons.mp h).resolve_left hik)
      refine ⟨i :: before, after, rfl, fun hmem => ?_⟩
      exact hbefore ((List.mem_cons.mp hmem).resolve_left hik)

variable (links marked) in
/-- **The invariant of a beginning in step**: what is seen is what was visited or linked,
and the lists are complete so far. -/
structure CompleteSoFar (before : List κ) : Prop where
  seen : ∀ j, j ∈ (run links before).seen ↔ j ∈ before ∨ LinkedBy links before j
  upper : ∀ j ∈ before, (links j).isSome = true → j ∈ (run links before).upper
  lower : ∀ j, marked j → LinkedBy links before j → j ∈ (run links before).lower

theorem CompleteSoFar.nil : CompleteSoFar links marked [] where
  seen j := by
    refine iff_of_false List.not_mem_nil ?_
    rintro (hj | ⟨i, hi, _⟩)
    · exact absurd hj List.not_mem_nil
    · exact absurd hi List.not_mem_nil
  upper j hj := absurd hj List.not_mem_nil
  lower j _ := fun ⟨_, hi, _⟩ => absurd hi List.not_mem_nil

/-- A key visited before adds nothing. -/
theorem CompleteSoFar.again (h : CompleteSoFar links marked before) (hk : k ∈ before) :
    CompleteSoFar links marked (before ++ [k]) := by
  have hpassed : run links (before ++ [k]) = run links before := by
    rw [run_concat]
    exact if_pos (mem_seen_of_mem hk)
  have hlinked : ∀ j, LinkedBy links (before ++ [k]) j ↔ LinkedBy links before j := by
    intro j
    rw [linkedBy_concat]
    refine or_iff_left_of_imp ?_
    rintro ⟨linked, hlinks, hj⟩
    exact ⟨k, hk, linked, hlinks, hj⟩
  have hmem : ∀ j, j ∈ before ++ [k] ↔ j ∈ before := by
    intro j
    rw [List.mem_append, List.mem_singleton]
    exact or_iff_left_of_imp fun heq => heq ▸ hk
  constructor
  · intro j
    rw [hpassed, h.seen, hmem, hlinked]
  · intro j hj
    rw [hpassed]
    exact h.upper j ((hmem j).mp hj)
  · intro j hj hlink
    rw [hpassed]
    exact h.lower j hj ((hlinked j).mp hlink)

/-- **A new key**, which no key before links to if it has links, keeps the lists complete, when
a marked key that was visited before it is linked again was linked before that. -/
theorem CompleteSoFar.visit (h : CompleteSoFar links marked before)
    (hdisjoint : ∀ k, marked k → links k = none) (hk : k ∉ before)
    (hfirst : (links k).isSome = true → ¬ LinkedBy links before k)
    (hbefore : ∀ j ∈ before, marked j → LinkedBy links (before ++ [k]) j →
      LinkedBy links before j) : CompleteSoFar links marked (before ++ [k]) := by
  have hunseen (hsome : (links k).isSome = true) : k ∉ (run links before).seen := by
    intro hkseen
    rcases (h.seen k).mp hkseen with hkmem | hklink
    · exact hk hkmem
    · exact hfirst hsome hklink
  constructor
  · intro j
    rw [run_concat, mem_seen_visit, h.seen, List.mem_append, List.mem_singleton, linkedBy_concat]
    constructor
    · rintro ((hj | hj) | hj | ⟨_, hj⟩)
      · exact .inl (.inl hj)
      · exact .inr (.inl hj)
      · exact .inl (.inr hj)
      · exact .inr (.inr hj)
    · rintro ((hj | hj) | hj | ⟨linked, hlinks, hj⟩)
      · exact .inl (.inl hj)
      · exact .inr (.inl hj)
      · exact .inl (.inr hj)
      · exact .inr (.inr ⟨hunseen (by rw [hlinks]; rfl), linked, hlinks, hj⟩)
  · intro j hj hsome
    rw [run_concat, mem_upper_visit]
    rcases List.mem_append.mp hj with hj | hj
    · exact .inl (h.upper j hj hsome)
    · rw [List.mem_singleton.mp hj] at hsome ⊢
      exact .inr ⟨rfl, hunseen hsome, hsome⟩
  · intro j hj hlink
    rw [run_concat, mem_lower_visit]
    by_cases hjlink : LinkedBy links before j
    · exact .inl (h.lower j hj hjlink)
    · -- linked by the new key alone: it is listed now
      have hjnot : j ∉ before := fun hjmem => hjlink (hbefore j hjmem hj hlink)
      obtain ⟨linked, hlinks, hjlinked⟩ := (linkedBy_concat.mp hlink).resolve_left hjlink
      have hkj : j ≠ k := by
        intro heq
        have hnone := hdisjoint j hj
        rw [heq, hlinks] at hnone
        cases hnone
      refine .inr ⟨hunseen (by rw [hlinks]; rfl), linked, hlinks, hjlinked, ?_, hkj⟩
      rw [h.seen]
      exact not_or.mpr ⟨hjnot, hjlink⟩

/-- **A beginning in step is complete.** The induction is on the visited keys. -/
theorem beginning_complete (hdisjoint : ∀ k, marked k → links k = none)
    (horder : order = before ++ after)
    (hstep : ∀ b k a, before = b ++ k :: a → k ∉ b → AtFirst links marked order b k) :
    CompleteSoFar links marked before := by
  induction before using List.reverseRecOn generalizing after with
  | nil => exact .nil
  | append_singleton before k ih =>
    have hstep' : ∀ b j a, before = b ++ j :: a → j ∉ b → AtFirst links marked order b j := by
      intro b j a hsplit hj
      exact hstep b j (a ++ [k]) (by rw [hsplit, List.append_assoc]; rfl) hj
    have hcomplete := ih (by rw [horder, List.append_assoc]) hstep'
    by_cases hk : k ∈ before
    · exact hcomplete.again hk
    · refine hcomplete.visit hdisjoint hk (hstep before k [] rfl hk).1 fun j hjmem hj hlink => ?_
      obtain ⟨b, a, hsplit, hjb⟩ := exists_first hjmem
      have hjorder : LinkedBy links order j := by
        rw [horder]
        exact hlink.append after
      rw [hsplit]
      exact ((hstep' b j a hsplit hjb).2 hj hjorder).append (j :: a)

/-- **The lists are complete if and only if the order is in step.** -/
theorem complete_iff (hdisjoint : ∀ k, marked k → links k = none) :
    Complete links marked order ↔ InStep links marked order := by
  constructor
  · rintro ⟨hupper, hlower⟩
    -- the first key out of step is never listed
    have hall : ∀ n (before : List κ), before.length = n → ∀ k after,
        order = before ++ k :: after → k ∉ before → AtFirst links marked order before k := by
      intro n
      induction n using Nat.strongRecOn with
      | ind n ih =>
        intro before hlength k after hsplit hk
        have hstep : ∀ b j a, before = b ++ j :: a → j ∉ b → AtFirst links marked order b j := by
          intro b j a hb hj
          refine ih b.length ?_ b rfl j (a ++ k :: after) ?_ hj
          · rw [← hlength, hb, List.length_append, List.length_cons]
            omega
          · rw [hsplit, hb, List.append_assoc, List.cons_append]
        have hseen := (beginning_complete hdisjoint hsplit hstep).seen
        refine ⟨fun hsome hlink => ?_, fun hmarked hlink => ?_⟩
        · have hmem : k ∈ order := by
            rw [hsplit]
            exact List.mem_append_right _ List.mem_cons_self
          have hlisted := hupper k hmem hsome
          rw [hsplit, run_append] at hlisted
          have hearly := (foldl_visit_of_seen ((hseen k).mpr (.inr hlink)) _).1 hlisted
          exact hk ((run_sound links before).1 k hearly).1
        · by_contra hnot
          have hlisted := hlower k hmarked hlink
          rw [hsplit, run_append, List.foldl_cons] at hlisted
          have hkseen : k ∈ ((run links before).visit links k).seen :=
            mem_seen_visit.mpr (.inr (.inl rfl))
          rcases mem_lower_visit.mp ((foldl_visit_of_seen hkseen _).2 hlisted) with hearly | hnow
          · exact hnot ((run_sound links before).2 k hearly)
          · obtain ⟨_, linked, hlinks, _⟩ := hnow
            rw [hdisjoint k hmarked] at hlinks
            cases hlinks
    intro before k after hsplit hk
    exact hall before.length before rfl k after hsplit hk
  · intro hstep
    have hcomplete := beginning_complete hdisjoint (List.append_nil order).symm
      fun b k a hsplit hk => hstep b k a hsplit hk
    exact ⟨hcomplete.upper, hcomplete.lower⟩

end Complete

end LayeredVisit
