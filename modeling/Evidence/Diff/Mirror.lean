/-
The **mirror of a comparison**: what becomes of the lines when the sides change places.

A line that adds becomes one that removes the same, and the other way round; a line that does
neither becomes another such line. Two lists of lines mirror each other when every line
of one has its mirror in the other. The relation is kept by everything lines are collected
by, and of sorted lists it says that the lines with one sign of one list are, without the
sign, the lines with the other sign of the other.
-/
import Evidence.Diff.AssurancePrecedence

set_option autoImplicit false

namespace Evidence.Diff

open Std Sorting

/-! ## Lines -/

/-- A line without a sign. -/
def Plain (line : String) : Prop := ∃ c rest, line.toList = c :: rest ∧ c ≠ '+' ∧ c ≠ '-'

/-- A line and its mirror: the other sign before the same text, or none on both. -/
def Mirror (x y : String) : Prop :=
  (∃ rest, x.toList = '+' :: rest ∧ y.toList = '-' :: rest) ∨
    (∃ rest, x.toList = '-' :: rest ∧ y.toList = '+' :: rest) ∨ (Plain x ∧ Plain y)

structure LinesMirror (l l' : List String) : Prop where
  left : ∀ x ∈ l, ∃ y ∈ l', Mirror x y
  right : ∀ y ∈ l', ∃ x ∈ l, Mirror x y

theorem Mirror.symm {x y : String} (h : Mirror x y) : Mirror y x := by
  rcases h with ⟨rest, hx, hy⟩ | ⟨rest, hx, hy⟩ | ⟨hx, hy⟩
  · exact .inr (.inl ⟨rest, hy, hx⟩)
  · exact .inl ⟨rest, hy, hx⟩
  · exact .inr (.inr ⟨hy, hx⟩)

theorem Plain.append {x : String} (h : Plain x) (t : String) : Plain (x ++ t) := by
  obtain ⟨c, rest, hx, hc⟩ := h
  refine ⟨c, rest ++ t.toList, ?_, hc⟩
  rw [String.toList_append, hx, List.cons_append]

theorem Plain.mirror {x y : String} (hx : Plain x) (hy : Plain y) : Mirror x y :=
  .inr (.inr ⟨hx, hy⟩)

/-- What is written behind two mirrored lines keeps them so. -/
theorem Mirror.append {x y : String} (h : Mirror x y) (t : String) :
    Mirror (x ++ t) (y ++ t) := by
  rcases h with ⟨rest, hx, hy⟩ | ⟨rest, hx, hy⟩ | ⟨hx, hy⟩
  · refine .inl ⟨rest ++ t.toList, ?_, ?_⟩
    · rw [String.toList_append, hx, List.cons_append]
    · rw [String.toList_append, hy, List.cons_append]
  · refine .inr (.inl ⟨rest ++ t.toList, ?_, ?_⟩)
    · rw [String.toList_append, hx, List.cons_append]
    · rw [String.toList_append, hy, List.cons_append]
  · exact (hx.append t).mirror (hy.append t)

theorem plain_change (t : String) : Plain ("~ " ++ t) := by
  have hsign : Plain "~ " := ⟨'~', [' '], rfl, by decide, by decide⟩
  exact hsign.append t

theorem plain_note (t : String) : Plain ("! " ++ t) := by
  have hsign : Plain "! " := ⟨'!', [' '], rfl, by decide, by decide⟩
  exact hsign.append t

/-! ## Collections of lines -/

namespace LinesMirror

theorem nil : LinesMirror [] [] :=
  ⟨fun _ h => absurd h List.not_mem_nil, fun _ h => absurd h List.not_mem_nil⟩

theorem symm {l l' : List String} (h : LinesMirror l l') : LinesMirror l' l := by
  refine ⟨fun y hy => ?_, fun x hx => ?_⟩
  · obtain ⟨x, hx, hxy⟩ := h.right y hy
    exact ⟨x, hx, hxy.symm⟩
  · obtain ⟨y, hy, hxy⟩ := h.left x hx
    exact ⟨y, hy, hxy.symm⟩

theorem singleton {x y : String} (h : Mirror x y) : LinesMirror [x] [y] := by
  refine ⟨fun z hz => ⟨y, List.mem_singleton_self y, ?_⟩,
    fun z hz => ⟨x, List.mem_singleton_self x, ?_⟩⟩
  · rwa [List.mem_singleton.mp hz]
  · rwa [List.mem_singleton.mp hz]

theorem append {l l' m m' : List String} (h : LinesMirror l l') (h' : LinesMirror m m') :
    LinesMirror (l ++ m) (l' ++ m') := by
  refine ⟨fun x hx => ?_, fun y hy => ?_⟩
  · rcases List.mem_append.mp hx with hx | hx
    · obtain ⟨y, hy, hxy⟩ := h.left x hx
      exact ⟨y, List.mem_append_left _ hy, hxy⟩
    · obtain ⟨y, hy, hxy⟩ := h'.left x hx
      exact ⟨y, List.mem_append_right _ hy, hxy⟩
  · rcases List.mem_append.mp hy with hy | hy
    · obtain ⟨x, hx, hxy⟩ := h.right y hy
      exact ⟨x, List.mem_append_left _ hx, hxy⟩
    · obtain ⟨x, hx, hxy⟩ := h'.right y hy
      exact ⟨x, List.mem_append_right _ hx, hxy⟩

theorem of_mem {l l' m m' : List String} (h : LinesMirror l l') (hl : ∀ x, x ∈ m ↔ x ∈ l)
    (hl' : ∀ y, y ∈ m' ↔ y ∈ l') : LinesMirror m m' := by
  refine ⟨fun x hx => ?_, fun y hy => ?_⟩
  · obtain ⟨y, hy, hxy⟩ := h.left x ((hl x).mp hx)
    exact ⟨y, (hl' y).mpr hy, hxy⟩
  · obtain ⟨x, hx, hxy⟩ := h.right y ((hl' y).mp hy)
    exact ⟨x, (hl x).mpr hx, hxy⟩

theorem flatMap {α : Type} {l l' : List α} {f g : α → List String} (hmem : ∀ a, a ∈ l ↔ a ∈ l')
    (h : ∀ a ∈ l, LinesMirror (f a) (g a)) : LinesMirror (l.flatMap f) (l'.flatMap g) := by
  refine ⟨fun x hx => ?_, fun y hy => ?_⟩
  · obtain ⟨a, ha, hxa⟩ := List.mem_flatMap.mp hx
    obtain ⟨y, hy, hxy⟩ := (h a ha).left x hxa
    exact ⟨y, List.mem_flatMap.mpr ⟨a, (hmem a).mp ha, hy⟩, hxy⟩
  · obtain ⟨a, ha, hya⟩ := List.mem_flatMap.mp hy
    obtain ⟨x, hx, hxy⟩ := (h a ((hmem a).mpr ha)).right y hya
    exact ⟨x, List.mem_flatMap.mpr ⟨a, (hmem a).mpr ha, hx⟩, hxy⟩

theorem map {α : Type} {l : List α} {f g : α → String} (h : ∀ a ∈ l, Mirror (f a) (g a)) :
    LinesMirror (l.map f) (l.map g) := by
  refine ⟨fun x hx => ?_, fun y hy => ?_⟩
  · obtain ⟨a, ha, rfl⟩ := List.mem_map.mp hx
    exact ⟨g a, List.mem_map_of_mem ha, h a ha⟩
  · obtain ⟨a, ha, rfl⟩ := List.mem_map.mp hy
    exact ⟨f a, List.mem_map_of_mem ha, h a ha⟩

theorem of_plain {l l' : List String} (hl : ∀ x ∈ l, Plain x) (hl' : ∀ y ∈ l', Plain y)
    (hnil : l = [] ↔ l' = []) : LinesMirror l l' := by
  refine ⟨fun x hx => ?_, fun y hy => ?_⟩
  · obtain ⟨y, hy⟩ := List.exists_mem_of_ne_nil l' fun h => by simp [hnil.mpr h] at hx
    exact ⟨y, hy, (hl x hx).mirror (hl' y hy)⟩
  · obtain ⟨x, hx⟩ := List.exists_mem_of_ne_nil l fun h => by simp [hnil.mp h] at hy
    exact ⟨x, hx, (hl x hx).mirror (hl' y hy)⟩

theorem eq_nil_iff {l l' : List String} (h : LinesMirror l l') : l = [] ↔ l' = [] := by
  constructor
  · rintro rfl
    refine List.eq_nil_iff_forall_not_mem.mpr fun y hy => ?_
    obtain ⟨x, hx, -⟩ := h.right y hy
    exact List.not_mem_nil hx
  · rintro rfl
    refine List.eq_nil_iff_forall_not_mem.mpr fun x hx => ?_
    obtain ⟨y, hy, -⟩ := h.left x hx
    exact List.not_mem_nil hy

end LinesMirror

/-! ## Signed lines -/

def signed_lines (sign : Char) (details : List String) : List (List Char) :=
  details.filterMap fun line =>
    match line.toList with
    | c :: rest => if c = sign then some rest else none
    | [] => none

theorem mem_signed_lines {sign : Char} {details : List String} {rest : List Char} :
    rest ∈ signed_lines sign details ↔ ∃ line ∈ details, line.toList = sign :: rest := by
  rw [signed_lines, List.mem_filterMap]
  refine exists_congr fun line => and_congr_right fun _ => ?_
  cases line.toList with
  | nil => simp
  | cons c chars =>
    by_cases h : c = sign
    · simp [h]
    · simp [h]

theorem LinesMirror.mem_signed_iff {l l' : List String} (h : LinesMirror l l') (rest : List Char) :
    rest ∈ signed_lines '+' l ↔ rest ∈ signed_lines '-' l' := by
  rw [mem_signed_lines, mem_signed_lines]
  constructor
  · rintro ⟨x, hx, hrest⟩
    obtain ⟨y, hy, hxy⟩ := h.left x hx
    refine ⟨y, hy, ?_⟩
    rcases hxy with ⟨t, hxt, hyt⟩ | ⟨t, hxt, -⟩ | ⟨⟨c, t, hxt, hplus, -⟩, -⟩
    · rw [hrest, List.cons.injEq] at hxt
      rw [hyt, hxt.2]
    · rw [hrest, List.cons.injEq] at hxt
      exact absurd hxt.1 (by decide)
    · rw [hrest, List.cons.injEq] at hxt
      exact absurd hxt.1.symm hplus
  · rintro ⟨y, hy, hrest⟩
    obtain ⟨x, hx, hxy⟩ := h.right y hy
    refine ⟨x, hx, ?_⟩
    rcases hxy with ⟨t, hxt, hyt⟩ | ⟨t, -, hyt⟩ | ⟨-, ⟨c, t, hyt, -, hminus⟩⟩
    · rw [hrest, List.cons.injEq] at hyt
      rw [hxt, hyt.2]
    · rw [hrest, List.cons.injEq] at hyt
      exact absurd hyt.1 (by decide)
    · rw [hrest, List.cons.injEq] at hyt
      exact absurd hyt.1.symm hminus

theorem string_lt_of_compare {x y : String} (h : compare x y = .lt) : x.toList < y.toList := by
  have hcompare : compareOfLessAndEq x y = .lt := h
  unfold compareOfLessAndEq at hcompare
  split at hcompare
  · next hlt => exact hlt
  · split at hcompare <;> cases hcompare

theorem signed_lines_sorted {sign : Char} {details : List String}
    (h : details.Pairwise fun x y => compare x y = .lt) :
    (signed_lines sign details).Pairwise (· < ·) := by
  refine List.Pairwise.filterMap _ (fun x y hxy rest hrest rest' hrest' => ?_) h
  have hlt := string_lt_of_compare hxy
  have hchars : ∀ {line : String} {rest : List Char},
      (match line.toList with
        | c :: rest => if c = sign then some rest else none
        | [] => none) = some rest → line.toList = sign :: rest := by
    intro line rest hline
    cases hlist : line.toList with
    | nil =>
      rw [hlist] at hline
      cases hline
    | cons c chars =>
      rw [hlist] at hline
      by_cases hc : c = sign
      · simp only [hc, if_true, Option.some.injEq] at hline
        rw [hc, hline]
      · simp [hc] at hline
  rw [hchars hrest, hchars hrest', List.cons_lt_cons_self] at hlt
  exact hlt

/-- **The lines that add in one report are the lines that remove in its mirror.** -/
theorem LinesMirror.signed_lines_finish {d d' : CategoryDiff}
    (h : LinesMirror d.details d'.details) :
    signed_lines '+' (finish d).details = signed_lines '-' (finish d').details := by
  have hsorted : ∀ d : CategoryDiff, (finish d).details.Pairwise fun x y => compare x y = .lt :=
    fun d => destutter_sortBy_sorted d.details
  have hmem : ∀ (d : CategoryDiff) (x : String), x ∈ (finish d).details ↔ x ∈ d.details :=
    fun d x => mem_destutter_ne.trans mem_sortBy
  have hplus := @signed_lines_sorted '+' _ (hsorted d)
  have hminus := @signed_lines_sorted '-' _ (hsorted d')
  have hperm : (signed_lines '+' (finish d).details).Perm
      (signed_lines '-' (finish d').details) := by
    refine (List.perm_ext_iff_of_nodup (hplus.imp fun hlt => ?_) (hminus.imp fun hlt => ?_)).mpr
      fun rest => ?_
    · exact fun heq => List.lt_irrefl _ (heq ▸ hlt)
    · exact fun heq => List.lt_irrefl _ (heq ▸ hlt)
    · exact (h.of_mem (hmem d) (hmem d')).mem_signed_iff rest
  exact hperm.eq_of_pairwise (fun x y _ _ hxy hyx => absurd hyx (List.lt_asymm hxy)) hplus hminus

end Evidence.Diff
