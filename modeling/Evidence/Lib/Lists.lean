/-
The **lists layer**: small facts about lists that several modules share.

A list of values is mostly handled through a list of their keys; these lemmas carry
what is known of the keys (distinct, or those of another list) over a step of building
the list.
-/
import Mathlib.Data.List.Forall2
import Mathlib.Data.List.Nodup

set_option autoImplicit false

namespace Lists

/-- A list with one element more is free of repetitions when the element is new. -/
theorem nodup_snoc {α : Type*} {l : List α} {x : α} : (l ++ [x]).Nodup ↔ l.Nodup ∧ x ∉ l := by
  rw [List.nodup_append_comm, List.singleton_append, List.nodup_cons, and_comm]

/-- The results of one element. -/
theorem filterMap_singleton {α β : Type*} (f : α → Option β) (a : α) :
    [a].filterMap f = (f a).toList := by
  cases h : f a with
  | none => rw [List.filterMap_cons_none h, List.filterMap_nil, Option.toList_none]
  | some b => rw [List.filterMap_cons_some h, List.filterMap_nil, Option.toList_some]

/-- The keys of what a filter keeps are among the keys of the list, in their order. -/
theorem map_filterMap_sublist {α β γ : Type*} {f : α → Option β} {g : β → γ} {h : α → γ}
    (hfg : ∀ a b, f a = some b → g b = h a) (l : List α) :
    ((l.filterMap f).map g).Sublist (l.map h) := by
  induction l with
  | nil => exact .slnil
  | cons a l ih =>
    rw [List.filterMap_cons, List.map_cons]
    cases hf : f a with
    | none => exact ih.cons _
    | some b =>
      rw [List.map_cons, hfg a b hf]
      exact ih.cons_cons _

/-- Related lists filtered alike leave the same keys. -/
theorem map_filterMap_congr {α β γ : Type*} {r : α → β → Prop} {f : α → Option γ}
    {g : β → Option γ} {c : γ → γ} {l : List α} {l' : List β} (h : List.Forall₂ r l l')
    (hfg : ∀ a b, r a b → (f a).map c = (g b).map c) :
    (l.filterMap f).map c = (l'.filterMap g).map c := by
  rw [List.map_filterMap, List.map_filterMap]
  induction h with
  | nil => rfl
  | cons hr _ ih => rw [List.filterMap_cons, List.filterMap_cons, hfg _ _ hr, ih]

/-- An element of an increasing list stands between those below it and those above it. -/
theorem filter_lt_append_filter_gt {α : Type*} {f : α → ℕ} {l : List α}
    (hl : l.Pairwise fun a b => f a < f b) {x : α} (hx : x ∈ l) :
    (l.filter fun a => f a < f x) ++ x :: (l.filter fun a => f x < f a) = l := by
  obtain ⟨below, above, rfl⟩ := List.append_of_mem hx
  obtain ⟨-, hcons, hbelow⟩ := List.pairwise_append.mp hl
  have habove := (List.pairwise_cons.mp hcons).1
  replace hbelow : ∀ a ∈ below, f a < f x := fun a ha => hbelow a ha x List.mem_cons_self
  have hself : ¬ decide (f x < f x) = true := fun h => Nat.lt_irrefl _ (of_decide_eq_true h)
  have hlow : ((below ++ x :: above).filter fun a => f a < f x) = below := by
    rw [List.filter_append, List.filter_cons_of_neg (p := fun a => f a < f x) hself,
      List.filter_eq_self.mpr, List.filter_eq_nil_iff.mpr, List.append_nil]
    · intro a ha h
      exact Nat.lt_asymm (habove a ha) (of_decide_eq_true h)
    · intro a ha
      exact decide_eq_true (hbelow a ha)
  have hhigh : ((below ++ x :: above).filter fun a => f x < f a) = above := by
    rw [List.filter_append, List.filter_cons_of_neg (p := fun a => f x < f a) hself,
      List.filter_eq_nil_iff.mpr, List.filter_eq_self.mpr, List.nil_append]
    · intro a ha
      exact decide_eq_true (habove a ha)
    · intro a ha h
      exact Nat.lt_asymm (hbelow a ha) (of_decide_eq_true h)
  rw [hlow, hhigh]

/-- **With distinct keys, an element is found under its key,** and no other is. -/
theorem find?_eq_some_iff_of_nodup {α β : Type*} [BEq β] [LawfulBEq β] {f : α → β} {l : List α}
    (hnodup : (l.map f).Nodup) {k : β} {a : α} :
    l.find? (fun b => f b == k) = some a ↔ a ∈ l ∧ f a = k := by
  constructor
  · intro h
    exact ⟨List.mem_of_find?_eq_some h, beq_iff_eq.mp (List.find?_some (p := (f · == k)) h)⟩
  · rintro ⟨hmem, hkey⟩
    cases hfind : l.find? fun b => f b == k with
    | none => exact absurd (beq_iff_eq.mpr hkey) (List.find?_eq_none.mp hfind a hmem)
    | some other =>
      have hother := beq_iff_eq.mp (List.find?_some (p := (f · == k)) hfind)
      rw [List.inj_on_of_nodup_map hnodup (List.mem_of_find?_eq_some hfind) hmem
        (hother.trans hkey.symm)]

/-- If the values that a list has are distinct, a value is that of one element. -/
theorem inj_on_of_nodup_filterMap {α β : Type*} {f : α → Option β} {l : List α}
    (hnodup : (l.filterMap f).Nodup) {a b : α} {c : β} (ha : a ∈ l) (hb : b ∈ l)
    (hfa : f a = some c) (hfb : f b = some c) : a = b := by
  have hpairs := List.pairwise_filterMap.mp hnodup
  have hall : ∀ x ∈ l, ∀ y ∈ l, ∀ d, f x = some d → f y = some d → x = y := by
    refine List.Pairwise.forall_of_forall_of_flip (fun _ _ _ _ _ => rfl) ?_ ?_
    · exact hpairs.imp fun hxy d hx hy => absurd rfl (hxy d hx d hy)
    · exact hpairs.imp fun hxy d hy hx => absurd rfl (hxy d hx d hy)
  exact hall a ha b hb c hfa hfb

/-- Lists whose elements are related one by one have the same keys. -/
theorem map_eq_of_forall₂ {α β : Type*} {R : α → α → Prop} {f : α → β}
    (hf : ∀ a b, R a b → f a = f b) {l l' : List α} (h : List.Forall₂ R l l') :
    l.map f = l'.map f := by
  induction h with
  | nil => rfl
  | cons hab _ ih => rw [List.map_cons, List.map_cons, hf _ _ hab, ih]

/-- With distinct keys, the last element of a key is the element of that key. -/
theorem findRev?_of_nodup {α β : Type*} [DecidableEq β] {f : α → β} {l : List α}
    (hnodup : (l.map f).Nodup) {a : α} (ha : a ∈ l) :
    (l.findRev? fun b => f b == f a) = some a := by
  rw [List.findRev?_eq_find?_reverse]
  cases hfind : l.reverse.find? fun b => f b == f a with
  | none =>
    have hnone := List.find?_eq_none.mp hfind a (List.mem_reverse.mpr ha)
    exact absurd (beq_self_eq_true (f a)) hnone
  | some b =>
    have hfound : (f b == f a) = true := List.find?_some (p := fun c => f c == f a) hfind
    have hkey : f b = f a := beq_iff_eq.mp hfound
    have hmem : b ∈ l := List.mem_reverse.mp (List.mem_of_find?_eq_some hfind)
    rw [List.inj_on_of_nodup_map hnodup hmem ha hkey]

/-- With distinct keys, an element is found at the position of its key. -/
theorem getElem?_eq_iff_idxOf {α β : Type*} [DecidableEq β] {f : α → β} {l : List α}
    (hnodup : (l.map f).Nodup) {a : α} {i : ℕ} :
    l[i]? = some a ↔ a ∈ l ∧ (l.map f).idxOf (f a) = i := by
  have hat : ∀ j, l[j]? = some a → (l.map f).idxOf (f a) = j := by
    intro j hj
    obtain ⟨hlt, heq⟩ := List.getElem?_eq_some_iff.mp hj
    have hindex := hnodup.idxOf_getElem j (by rw [List.length_map]; exact hlt)
    rwa [List.getElem_map, heq] at hindex
  constructor
  · intro hi
    exact ⟨List.mem_of_getElem? hi, hat i hi⟩
  · rintro ⟨hmem, hi⟩
    obtain ⟨j, hj⟩ := List.getElem?_of_mem hmem
    rwa [← hi, hat j hj]

/-- Bounded pieces make a bounded list. -/
theorem length_flatMap_le {α β : Type*} {f : α → List β} {n : ℕ} {l : List α}
    (h : ∀ a ∈ l, (f a).length ≤ n) : (l.flatMap f).length ≤ l.length * n := by
  induction l with
  | nil => exact Nat.zero_le _
  | cons a l ih =>
    have hhead := h a List.mem_cons_self
    have htail := ih fun b hb => h b (List.mem_cons_of_mem a hb)
    rw [List.flatMap_cons, List.length_append, List.length_cons, Nat.succ_mul]
    omega

/-- The positions of a list increase. -/
theorem pairwise_zipIdx {α : Type*} (l : List α) (n : ℕ) :
    (l.zipIdx n).Pairwise fun a b => a.2 < b.2 := by
  have hrange : (List.range' n l.length).Pairwise (· < ·) := List.pairwise_lt_range'
  rw [← List.zipIdx_map_snd, List.pairwise_map] at hrange
  exact hrange

/-- Pieces that sort apart from each other, together with their rest. -/
theorem filter_append_perm_of_not {α : Type*} {p q : α → Bool} (hpq : ∀ a, q a = !p a)
    (l : List α) : (l.filter p ++ l.filter q).Perm l := by
  rw [List.filter_congr fun a _ => hpq a]
  exact List.filter_append_perm p l

/-- Elements that give one result each are matched with their results one by one. -/
theorem forall₂_flatMap_iff {α β : Type*} {R : α → β → Prop} {f : α → List β} {l : List α}
    (h : ∀ x ∈ l, ∃ y, f x = [y]) :
    List.Forall₂ R l (l.flatMap f) ↔ ∀ x ∈ l, ∀ y ∈ f x, R x y := by
  induction l with
  | nil => exact iff_of_true .nil fun x hx => absurd hx List.not_mem_nil
  | cons x l ih =>
    obtain ⟨y, hy⟩ := h x List.mem_cons_self
    rw [List.flatMap_cons, hy, List.singleton_append, List.forall₂_cons,
      ih fun z hz => h z (List.mem_cons_of_mem x hz), List.forall_mem_cons, hy,
      List.forall_mem_singleton]

/-! ## The last value of a filtered list -/

/-- The last value comes from an item with no value behind it. -/
theorem exists_last_of_getLast?_filterMap {α β : Type*} {f : α → Option β} {l : List α} {y : β}
    (h : (l.filterMap f).getLast? = some y) :
    ∃ before a after, l = before ++ a :: after ∧ f a = some y ∧ ∀ b ∈ after, f b = none := by
  obtain ⟨values, hvalues⟩ := List.getLast?_eq_some_iff.mp h
  obtain ⟨front, rest, rfl, _, hrest⟩ := List.filterMap_eq_append_iff.mp hvalues
  obtain ⟨skipped, a, after, rfl, _, ha, hafter⟩ := List.filterMap_eq_cons_iff.mp hrest
  refine ⟨front ++ skipped, a, after, by rw [List.append_assoc], ha, fun b hb => ?_⟩
  exact List.filterMap_eq_nil_iff.mp hafter b hb

/-- Where an item has a value, the last value is that or one from behind it. -/
theorem getLast?_filterMap_split {α β : Type*} {f : α → Option β} {before after : List α} {a : α}
    {y : β} (ha : f a = some y) :
    ((before ++ a :: after).filterMap f).getLast? =
      some ((after.filterMap f).getLast?.getD y) := by
  rw [List.filterMap_append, List.filterMap_cons_some ha, List.getLast?_append_of_ne_nil _
    (List.cons_ne_nil _ _), List.getLast?_cons]

/-- **`x` is the last value** exactly when it comes up, and again behind every other value. -/
theorem getLast?_filterMap_eq_iff {α β : Type*} {f : α → Option β} {l : List α} {x : β} :
    (l.filterMap f).getLast? = some x ↔
      (∃ a ∈ l, f a = some x) ∧ ∀ before a after, l = before ++ a :: after →
        ∀ y, f a = some y → y ≠ x → ∃ b ∈ after, f b = some x := by
  constructor
  · intro h
    refine ⟨List.mem_filterMap.mp (List.mem_of_getLast? h), ?_⟩
    rintro before a after rfl y ha hne
    rw [getLast?_filterMap_split ha, Option.some.injEq] at h
    cases hlast : (after.filterMap f).getLast? with
    | none =>
      rw [hlast] at h
      exact absurd h hne
    | some z =>
      rw [hlast, Option.getD_some] at h
      rw [h] at hlast
      exact List.mem_filterMap.mp (List.mem_of_getLast? hlast)
  · rintro ⟨⟨a, hmem, ha⟩, hbehind⟩
    have hne : l.filterMap f ≠ [] := List.ne_nil_of_mem (List.mem_filterMap.mpr ⟨a, hmem, ha⟩)
    obtain ⟨y, hy⟩ := Option.ne_none_iff_exists'.mp fun hnone =>
      hne (List.getLast?_eq_none_iff.mp hnone)
    obtain ⟨before, b, after, hsplit, hb, hafter⟩ := exists_last_of_getLast?_filterMap hy
    by_cases hyx : y = x
    · rw [hy, hyx]
    · obtain ⟨c, hc, hcx⟩ := hbehind before b after hsplit y hb hyx
      rw [hafter c hc] at hcx
      cases hcx

/-- **`x` is not the last value** exactly when behind each of it another value comes up. -/
theorem getLast?_filterMap_ne_iff {α β : Type*} {f : α → Option β} {l : List α} {x : β} :
    (l.filterMap f).getLast? ≠ some x ↔
      ∀ before a after, l = before ++ a :: after → f a = some x →
        ∃ b ∈ after, ∃ y, f b = some y ∧ y ≠ x := by
  constructor
  · rintro h before a after rfl ha
    rw [getLast?_filterMap_split ha, ne_eq, Option.some.injEq] at h
    cases hlast : (after.filterMap f).getLast? with
    | none =>
      rw [hlast] at h
      exact absurd rfl h
    | some y =>
      rw [hlast, Option.getD_some] at h
      obtain ⟨b, hb, hby⟩ := List.mem_filterMap.mp (List.mem_of_getLast? hlast)
      exact ⟨b, hb, y, hby, h⟩
  · intro hbehind h
    obtain ⟨before, a, after, hsplit, ha, hafter⟩ := exists_last_of_getLast?_filterMap h
    obtain ⟨b, hb, y, hby, _⟩ := hbehind before a after hsplit ha
    rw [hafter b hb] at hby
    cases hby

end Lists
