/-
What the ratchet on panics sees of a text, and when its count is right.

`Place` follows the walk along a text: a character is kept, on a line whose kept part is known,
or stands in a stretch that is taken away as a test module. An occurrence of a needle is seen if
it is kept, and what is kept of its line before it is no comment, has no earlier occurrence, no
raw string that is still open and an even number of quotes. `count_library_panics` counts the
occurrences that are seen (`seen_eq`), whatever they belong to.

So a panic of production code that is not seen is overlooked, and an occurrence that is seen
elsewhere is mistaken for one; the count is right exactly where the two balance
(`count_library_panics_iff`).
-/
import Evidence.Floors.Lexical
import Evidence.Lib.Segments
import Mathlib.Algebra.BigOperators.Group.List.Basic
import Mathlib.Data.List.Infix

set_option autoImplicit false

namespace Evidence.Floors

open Segments

/-! ## Places -/

/-- Where the walk is in a text: at the start of a line; at another kept character, with what is
kept of the line before it; behind the attribute of a test module; or in the block behind it, with
further braces open. -/
inductive Place where
  | LineStart
  | Within (line : List Char)
  | Header
  | Block (further : ℕ)

def Place.behind_kept (line : List Char) (c : Char) : Place :=
  if c = '\n' then .LineStart else .Within (line ++ [c])

def Place.next (place : Place) (c : Char) (rest : List Char) : Place :=
  match place with
  | .LineStart => if CFG_TEST.isPrefixOf (c :: rest) then .Header else .behind_kept [] c
  | .Within line => .behind_kept line c
  | .Header => if c = '\x7b' then .Block 0 else .Header
  | .Block further =>
    if c = '\x7b' then .Block (further + 1)
    else if c = '\x7d' then if further = 0 then .Within [] else .Block (further - 1)
    else .Block further

def seen_behind (needle line : List Char) : Bool :=
  !is_comment_line line && !contains_text needle line && !raw_string_covers line &&
    line.count '"' % 2 != 1

def Place.sees (needle : List Char) : Place → Bool
  | LineStart => seen_behind needle []
  | Within line => seen_behind needle line
  | Header => false
  | Block _ => false

def positions : Place → List (Char × Bool) → List (Place × List (Char × Bool))
  | _, [] => []
  | place, x :: rest =>
    (place, x :: rest) :: positions (place.next x.1 (rest.map Prod.fst)) rest

/-- The needle stands here. -/
def mentions (needle : String) (text : List (Char × Bool)) : Bool :=
  needle.toList.isPrefixOf (text.map Prod.fst)

/-- A panic of production code stands here. -/
def is_panic (needle : String) (text : List (Char × Bool)) : Bool :=
  (as_production needle).isPrefixOf text

/-- The panics of production code that are not seen. -/
def overlooked (text : String) : ℕ :=
  (NEEDLES.map fun needle => (positions .LineStart (production text)).countP fun p =>
    is_panic needle p.2 && !p.1.sees needle.toList).sum

/-- The occurrences that are seen and are no panics of production code. -/
def mistaken (text : String) : ℕ :=
  (NEEDLES.map fun needle => (positions .LineStart (production text)).countP fun p =>
    mentions needle p.2 && !is_panic needle p.2 && p.1.sees needle.toList).sum

/-! ## Needles -/

/-- What the proofs use of a needle: it does not start again within itself, and it has none of
the characters at which the walk turns. -/
structure IsNeedle (c : Char) (tail : List Char) : Prop where
  fresh : c ∉ tail
  no_newline : '\n' ∉ c :: tail
  no_return : '\r' ∉ c :: tail
  no_hash : c ≠ '#'
  no_slash : c ∉ ['/', '!']
  no_space : is_whitespace c = false

theorem is_needle {needle : String} (h : needle ∈ NEEDLES) :
    ∃ c tail, needle.toList = c :: tail ∧ IsNeedle c tail := by
  rw [NEEDLES, List.mem_cons, List.mem_cons, List.mem_singleton] at h
  rcases h with rfl | rfl | rfl
  · refine ⟨'p', "anic!(".toList, by decide +kernel, ?_, ?_, ?_, ?_, ?_, ?_⟩ <;> decide +kernel
  · refine ⟨'u', "nimplemented!(".toList, by decide +kernel, ?_, ?_, ?_, ?_, ?_, ?_⟩ <;>
      decide +kernel
  · refine ⟨'t', "odo!(".toList, by decide +kernel, ?_, ?_, ?_, ?_, ?_, ?_⟩ <;> decide +kernel

/-! ## The walk -/

def seen_from (needle : List Char) : Place → List Char → ℕ
  | _, [] => 0
  | place, c :: rest =>
    (needle.isPrefixOf (c :: rest) && place.sees needle).toNat +
      seen_from needle (place.next c rest) rest

/-- How many are seen in a text of which nothing is taken away. -/
def seen_kept (needle : List Char) : List Char → List Char → ℕ
  | _, [] => 0
  | line, c :: rest =>
    (needle.isPrefixOf (c :: rest) && seen_behind needle line).toNat +
      seen_kept needle (if c = '\n' then [] else line ++ [c]) rest

def Place.kept (text : List Char) : Place → List Char
  | LineStart => strip_from true text
  | Within _ => strip_from false text
  | Header =>
    if skip_to_open text = [] then [] else strip_from false (skip_block 0 (skip_to_open text))
  | Block further => strip_from false (skip_block (further + 1) text)

/-- What is kept of the line before a place. -/
def Place.line : Place → List Char
  | LineStart => []
  | Within line => line
  | Header => []
  | Block _ => []

/-- On a line the walk keeps every character. -/
theorem strip_from_false (c : Char) (rest : List Char) :
    strip_from false (c :: rest) = c :: strip_from (c = '\n') rest := by
  rw [strip_from, if_neg fun h => Bool.false_ne_true h.1]

theorem strip_from_nil (line_start : Bool) : strip_from line_start [] = [] := by
  rw [strip_from]

/-- A pattern without line breaks is found behind what is kept as it is in the text. -/
theorem isPrefixOf_strip_from {pattern : List Char} (h : '\n' ∉ pattern) (text : List Char) :
    pattern.isPrefixOf (strip_from false text) = pattern.isPrefixOf text := by
  induction text generalizing pattern with
  | nil => rw [strip_from_nil]
  | cons c rest ih =>
    rw [strip_from_false]
    cases pattern with
    | nil => rfl
    | cons a pattern =>
      rw [List.isPrefixOf_cons_cons, List.isPrefixOf_cons_cons]
      by_cases hac : a = c
      · have hc : decide (c = '\n') = false :=
          decide_eq_false fun hc => h (hac.trans hc ▸ List.mem_cons_self)
        rw [hc, ih fun hmem => h (List.mem_cons_of_mem a hmem)]
      · rw [beq_eq_false_iff_ne.mpr hac, Bool.false_and, Bool.false_and]

theorem isPrefixOf_kept {pattern : List Char} (h : '\n' ∉ pattern) (c : Char) (rest : List Char) :
    pattern.isPrefixOf (c :: strip_from (c = '\n') rest) = pattern.isPrefixOf (c :: rest) := by
  rw [← strip_from_false, isPrefixOf_strip_from h]

theorem kept_behind_kept (line : List Char) (c : Char) (text : List Char) :
    (Place.behind_kept line c).kept text = strip_from (c = '\n') text := by
  unfold Place.behind_kept
  split_ifs with hc
  · rw [Place.kept, decide_eq_true hc]
  · rw [Place.kept, decide_eq_false hc]

theorem line_behind_kept (line : List Char) (c : Char) :
    (Place.behind_kept line c).line = if c = '\n' then [] else line ++ [c] := by
  unfold Place.behind_kept
  split_ifs with hc <;> rfl

/-- The attribute starts with a hash. -/
theorem hash_of_cfg_test {c : Char} {rest : List Char}
    (h : CFG_TEST.isPrefixOf (c :: rest) = true) : c = '#' := by
  have hattr : CFG_TEST = '#' :: "[cfg(test)]".toList := by decide +kernel
  rw [hattr, List.isPrefixOf_cons_cons, Bool.and_eq_true, beq_iff_eq] at h
  exact h.1.symm

/-- **The walk sees of a text what there is to see of the text it keeps.** -/
theorem seen_from_eq {a : Char} {tail : List Char} (hneedle : IsNeedle a tail) (place : Place)
    (text : List Char) :
    seen_from (a :: tail) place text = seen_kept (a :: tail) place.line (place.kept text) := by
  induction text generalizing place with
  | nil =>
    cases place with
    | LineStart => rw [Place.kept, strip_from_nil]; rfl
    | Within line => rw [Place.kept, strip_from_nil]; rfl
    | Header => rfl
    | Block further => rw [Place.kept, skip_block, strip_from_nil]; rfl
  | cons c rest ih =>
    -- a character that is kept, behind what is kept of its line
    have hkept : ∀ line,
        ((a :: tail).isPrefixOf (c :: rest) && seen_behind (a :: tail) line).toNat +
          seen_from (a :: tail) (Place.behind_kept line c) rest =
          seen_kept (a :: tail) line (c :: strip_from (c = '\n') rest) := by
      intro line
      rw [ih, kept_behind_kept, line_behind_kept, seen_kept, isPrefixOf_kept hneedle.no_newline]
    cases place with
    | LineStart =>
      by_cases hattr : CFG_TEST.isPrefixOf (c :: rest) = true
      · have hc : c = '#' := hash_of_cfg_test hattr
        have hhead : (a :: tail).isPrefixOf (c :: rest) = false := by
          rw [List.isPrefixOf_cons_cons, hc, beq_eq_false_iff_ne.mpr hneedle.no_hash,
            Bool.false_and]
        have hopen : skip_to_open (c :: rest) = skip_to_open rest := by
          rw [skip_to_open, List.dropWhile_cons_of_pos (by rw [hc]; decide), skip_to_open]
        rw [seen_from, hhead, Bool.false_and, Bool.toNat_false, Nat.zero_add, Place.next,
          if_pos hattr, ih, Place.kept.eq_def (c :: rest), Place.kept]
        dsimp only
        rw [strip_from, if_pos (And.intro rfl hattr), hopen]
        rfl
      · rw [seen_from, Place.next, if_neg hattr, Place.kept, strip_from,
          if_neg fun h => hattr h.2, ← hkept]
        rfl
    | Within line =>
      rw [seen_from, Place.next, Place.kept, strip_from_false, Place.line, ← hkept]
      rfl
    | Header =>
      rw [seen_from, Place.sees, Bool.and_false, Bool.toNat_false, Nat.zero_add, ih, Place.next]
      split_ifs with hc
      · have hopen : skip_to_open (c :: rest) = c :: rest := by
          rw [skip_to_open, List.dropWhile_cons_of_neg (by rw [hc]; decide)]
        rw [Place.kept, Place.kept, hopen, if_neg (List.cons_ne_nil c rest), skip_block, if_pos hc]
        rfl
      · have hopen : skip_to_open (c :: rest) = skip_to_open rest := by
          rw [skip_to_open, List.dropWhile_cons_of_pos (by simpa using hc), skip_to_open]
        rw [Place.kept, Place.kept, hopen]
    | Block further =>
      rw [seen_from, Place.sees, Bool.and_false, Bool.toNat_false, Nat.zero_add, ih, Place.next,
        Place.kept.eq_def (c :: rest)]
      dsimp only
      rw [skip_block]
      split_ifs with hopens hcloses hlast hdepth hdepth
      · have hsucc : ((further + 1 : ℕ) : ℤ) + 1 = (further : ℤ) + 1 + 1 := by omega
        rw [Place.kept, hsucc]
        rfl
      · rfl
      · omega
      · omega
      · rw [Place.kept]
        have hpred : (((further - 1 : ℕ) : ℤ) + 1) = (further : ℤ) + 1 - 1 := by omega
        rw [hpred]
        rfl
      · rfl

/-! ## Lines -/

section Lines

variable {a : Char} {tail : List Char}

/-- A character that the needle does not have parts what is seen of a line. -/
theorem seen_kept_append_cons {d : Char} (hd : d ∉ a :: tail) {l : List Char} (hl : '\n' ∉ l)
    (line rest : List Char) :
    seen_kept (a :: tail) line (l ++ d :: rest) = seen_kept (a :: tail) line l +
      seen_kept (a :: tail) (if d = '\n' then [] else line ++ l ++ [d]) rest := by
  induction l generalizing line with
  | nil =>
    have hhead : (a :: tail).isPrefixOf (d :: rest) = false := by
      have hne : a ≠ d := fun h => hd (h ▸ List.mem_cons_self)
      rw [List.isPrefixOf_cons_cons, beq_eq_false_iff_ne.mpr hne, Bool.false_and]
    rw [List.nil_append, seen_kept.eq_2, hhead, Bool.false_and, Bool.toNat_false, seen_kept,
      List.append_nil]
  | cons c l ih =>
    rw [List.mem_cons, not_or] at hl
    rw [List.cons_append, seen_kept, seen_kept, if_neg (Ne.symm hl.1), ih hl.2,
      ← List.cons_append, isPrefixOf_append_cons hd, List.append_assoc line [c] l,
      List.singleton_append, Nat.add_assoc]

/-- So does a line break. -/
theorem seen_kept_newline (hneedle : IsNeedle a tail) {l : List Char} (hl : '\n' ∉ l)
    (rest : List Char) :
    seen_kept (a :: tail) [] (l ++ '\n' :: rest) =
      seen_kept (a :: tail) [] l + seen_kept (a :: tail) [] rest := by
  rw [seen_kept_append_cons hneedle.no_newline hl, if_pos rfl]

/-- A carriage return at the end makes no difference. -/
theorem seen_kept_strip_cr (hneedle : IsNeedle a tail) {l : List Char} (hl : '\n' ∉ l) :
    seen_kept (a :: tail) [] (strip_cr l) = seen_kept (a :: tail) [] l := by
  unfold strip_cr
  split_ifs with hlast
  · obtain ⟨m, rfl⟩ := List.getLast?_eq_some_iff.mp hlast
    rw [List.dropLast_concat, seen_kept_append_cons hneedle.no_return
      fun h => hl (List.mem_append_left _ h)]
    rfl
  · rfl

theorem contains_text_iff {pattern text : List Char} :
    contains_text pattern text = true ↔ pattern <:+: text := by
  rw [contains_text, List.any_eq_true, List.infix_iff_prefix_suffix]
  simp only [List.mem_tails, List.isPrefixOf_iff_prefix, and_comm]

theorem seen_kept_of_infix {needle line l : List Char} (hl : '\n' ∉ l) (h : needle <:+: line) :
    seen_kept needle line l = 0 := by
  induction l generalizing line with
  | nil => rfl
  | cons c l ih =>
    rw [List.mem_cons, not_or] at hl
    have hcontains : contains_text needle line = true := contains_text_iff.mpr h
    rw [seen_kept, if_neg (Ne.symm hl.1), ih hl.2 (h.trans (List.prefix_append _ _).isInfix),
      seen_behind, hcontains]
    simp

/-- A stretch without the needle's first character adds nothing. -/
theorem seen_kept_skip {m : List Char} (hm : a ∉ m) (hbreak : '\n' ∉ m) (line l : List Char) :
    seen_kept (a :: tail) line (m ++ l) = seen_kept (a :: tail) (line ++ m) l := by
  induction m generalizing line with
  | nil => rw [List.nil_append, List.append_nil]
  | cons c m ih =>
    rw [List.mem_cons, not_or] at hm hbreak
    have hhead : (a :: tail).isPrefixOf (c :: (m ++ l)) = false := by
      rw [List.isPrefixOf_cons_cons, beq_eq_false_iff_ne.mpr hm.1, Bool.false_and]
    rw [List.cons_append, seen_kept, hhead, Bool.false_and, Bool.toNat_false, Nat.zero_add,
      if_neg (Ne.symm hbreak.1), ih hm.2 hbreak.2, List.append_assoc, List.singleton_append]

/-- Neither guard speaks against an occurrence behind this part of its line. -/
def unguarded (before : List Char) : Bool :=
  !raw_string_covers before && before.count '"' % 2 != 1

theorem needle_is_outside_eq (line needle : List Char) :
    needle_is_outside_string_literal line needle =
      (split_once needle line).elim false fun found => unguarded found.1 := by
  unfold needle_is_outside_string_literal unguarded
  cases split_once needle line with
  | none => rfl
  | some found =>
    dsimp only [Option.elim_some]
    split_ifs with hcovers hodd
    · rw [hcovers]; rfl
    · simp [hodd]
    · rw [Bool.not_eq_true] at hcovers
      rw [hcovers, bne_iff_ne.mpr hodd]
      rfl

/-- **Of a line only the first occurrence can be seen.** No occurrence starts in what is kept
of the line before. -/
theorem seen_kept_line (hneedle : IsNeedle a tail) {l : List Char} (hl : '\n' ∉ l)
    {line : List Char} (hfirst : ∀ x y, line = x ++ y → y ≠ [] →
      (a :: tail).isPrefixOf (y ++ l) = false) :
    seen_kept (a :: tail) line l = (split_once (a :: tail) l).elim 0 fun found =>
      (!is_comment_line (line ++ found.1) && unguarded (line ++ found.1)).toNat := by
  induction l generalizing line with
  | nil => rfl
  | cons c l ih =>
    rw [split_once]
    by_cases hhere : (a :: tail).isPrefixOf (c :: l) = true
    · obtain ⟨after, hafter⟩ := List.isPrefixOf_iff_prefix.mp hhere
      rw [List.cons_append, List.cons.injEq] at hafter
      obtain ⟨rfl, rfl⟩ := hafter
      have hcontains : contains_text (a :: tail) line = false := by
        rw [Bool.eq_false_iff, Ne, contains_text_iff]
        rintro ⟨x, y, hxy⟩
        have hnot := hfirst x (a :: tail ++ y) (by rw [← hxy, List.append_assoc]) (by simp)
        rw [Bool.eq_false_iff, Ne, List.isPrefixOf_iff_prefix, List.append_assoc] at hnot
        exact hnot (List.prefix_append _ _)
      -- the needle does not start again within itself, and behind it nothing is seen
      have hrest : seen_kept (a :: tail) (line ++ [a]) (tail ++ after) = 0 := by
        rw [List.mem_cons, List.mem_append, not_or, not_or] at hl
        rw [seen_kept_skip hneedle.fresh hl.2.1]
        refine seen_kept_of_infix hl.2.2 ⟨line, [], ?_⟩
        rw [List.append_nil, List.append_assoc, List.singleton_append]
      have hbreak : a ≠ '\n' := fun h => hl (h ▸ List.mem_cons_self)
      rw [if_pos hhere, Option.elim_some, List.append_nil, seen_kept, hhere, Bool.true_and,
        if_neg hbreak, hrest, Nat.add_zero, seen_behind, hcontains, unguarded, Bool.not_false,
        Bool.and_true, Bool.and_assoc]
    · rw [List.mem_cons, not_or] at hl
      rw [Bool.not_eq_true] at hhere
      have hnext : ∀ x y, line ++ [c] = x ++ y → y ≠ [] →
          (a :: tail).isPrefixOf (y ++ l) = false := by
        intro x y hxy hy
        rcases List.eq_nil_or_concat y with rfl | ⟨z, d, rfl⟩
        · exact absurd rfl hy
        · rw [List.concat_eq_append, ← List.append_assoc] at hxy
          obtain ⟨hline, hd⟩ := List.append_inj' hxy rfl
          rw [List.cons.injEq] at hd
          rw [List.concat_eq_append, ← hd.1, List.append_assoc, List.singleton_append]
          by_cases hz : z = []
          · rw [hz, List.nil_append, hhere]
          · exact hfirst x z hline hz
      rw [if_neg (Bool.eq_false_iff.mp hhere), seen_kept, hhere, Bool.false_and, Bool.toNat_false,
        Nat.zero_add, if_neg (Ne.symm hl.1), ih hl.2 hnext]
      cases split_once (a :: tail) l with
      | none => rfl
      | some found =>
        rw [Option.map_some, Option.elim_some, Option.elim_some, List.append_assoc,
          List.singleton_append]

theorem is_comment_line_append (hneedle : IsNeedle a tail) (before rest : List Char) :
    is_comment_line (before ++ a :: rest) = is_comment_line before := by
  have htrim : trim_start (before ++ a :: rest) = trim_start before ++ a :: rest := by
    rw [trim_start, List.dropWhile_append, List.dropWhile_cons_of_neg (by simp [hneedle.no_space]),
      trim_start]
    split_ifs with hempty
    · rw [List.isEmpty_iff.mp hempty, List.nil_append]
    · rfl
  have hslash : ∀ pattern ∈ ["//!", "///", "//"], a ∉ pattern.toList := by
    intro pattern hpattern hmem
    refine hneedle.no_slash ?_
    rw [List.mem_cons, List.mem_cons, List.mem_singleton] at hpattern
    rcases hpattern with rfl | rfl | rfl <;> simp at hmem <;> simp [hmem]
  unfold is_comment_line
  rw [htrim, isPrefixOf_append_cons (hslash "//!" (by simp)),
    isPrefixOf_append_cons (hslash "///" (by simp)),
    isPrefixOf_append_cons (hslash "//" (by simp))]

def counts (needle line : List Char) : Bool :=
  !is_comment_line line && needle_is_outside_string_literal line needle

theorem seen_kept_eq_counts (hneedle : IsNeedle a tail) {l : List Char} (hl : '\n' ∉ l) :
    seen_kept (a :: tail) [] l = (counts (a :: tail) l).toNat := by
  rw [seen_kept_line hneedle hl fun x y hxy hy => absurd (List.append_eq_nil_iff.mp hxy.symm).2 hy,
    counts, needle_is_outside_eq]
  cases hsplit : split_once (a :: tail) l with
  | none => rw [Option.elim_none, Option.elim_none, Bool.and_false, Bool.toNat_false]
  | some found =>
    have hl : l = found.1 ++ a :: (tail ++ found.2) := by
      have hparts := @split_once_eq_some (a :: tail) l found.1 found.2 hsplit
      rw [hparts, List.append_assoc, List.cons_append]
    rw [Option.elim_some, Option.elim_some, List.nil_append, hl, is_comment_line_append hneedle]

/-- An unterminated text is a line, if it is not empty. -/
theorem lines_of_no_newline {l : List Char} (hl : '\n' ∉ l) (hne : l ≠ []) : lines l = [l] := by
  have hempty : l.isEmpty = false := List.isEmpty_eq_false_iff.mpr hne
  rw [lines, List.splitOn_eq_singleton hl]
  simp [hempty]

/-- A verdict as the one or zero it counts for. -/
theorem toNat_eq_ite (verdict : Bool) : verdict.toNat = if verdict then 1 else 0 := by
  cases verdict with
  | true => rfl
  | false => rfl

/-- **Of a text that is kept is seen what its lines are counted for.** -/
theorem seen_kept_lines (hneedle : IsNeedle a tail) (text : List Char) :
    seen_kept (a :: tail) [] text = (lines text).countP (counts (a :: tail)) := by
  induction hn : text.length using Nat.strong_induction_on generalizing text with
  | _ n ih =>
    by_cases hbreak : '\n' ∈ text
    · obtain ⟨l, rest, rfl, hl⟩ := List.eq_append_cons_of_mem hbreak
      rw [List.length_append, List.length_cons] at hn
      have hline : '\n' ∉ strip_cr l := fun h => hl (mem_of_mem_strip_cr h)
      rw [seen_kept_newline hneedle hl, ih rest.length (by omega) rest rfl, lines_cons hl,
        List.countP_cons, ← seen_kept_strip_cr hneedle hl, seen_kept_eq_counts hneedle hline,
        Nat.add_comm, toNat_eq_ite]
    · by_cases hne : text = []
      · rw [hne]
        rfl
      · rw [lines_of_no_newline hbreak hne, seen_kept_eq_counts hneedle hbreak,
          List.countP_singleton, toNat_eq_ite]

end Lines

/-! ## The count -/

theorem countP_eq_sum {β : Type*} (p : β → Bool) (ys : List β) :
    ys.countP p = (ys.map fun y => if p y then 1 else 0).sum := by
  induction ys with
  | nil => rfl
  | cons y ys ih => rw [List.countP_cons, ih, List.map_cons, List.sum_cons, Nat.add_comm]

theorem sum_countP_comm {α β : Type*} (p : α → β → Bool) (xs : List α) (ys : List β) :
    (xs.map fun x => ys.countP (p x)).sum = (ys.map fun y => xs.countP fun x => p x y).sum := by
  induction xs with
  | nil => simp
  | cons x xs ih =>
    simp only [List.countP_cons]
    rw [List.map_cons, List.sum_cons, ih, List.sum_map_add, countP_eq_sum, Nat.add_comm]

theorem countP_positions (needle : String) (place : Place) (marked : List (Char × Bool)) :
    ((positions place marked).countP fun p => mentions needle p.2 && p.1.sees needle.toList) =
      seen_from needle.toList place (marked.map Prod.fst) := by
  induction marked generalizing place with
  | nil => rfl
  | cons x rest ih =>
    rw [positions, List.countP_cons, ih, List.map_cons, seen_from, Nat.add_comm, mentions,
      toNat_eq_ite]
    rfl

/-- Marks leave the text as it is. -/
theorem production_text (text : String) : (production text).map Prod.fst = text.toList := by
  have hclassify : ∀ (chars : List Char) (mode : Mode),
      (classify mode chars).map Prod.fst = chars := by
    intro chars
    induction chars with
    | nil => exact fun _ => rfl
    | cons c rest ih => exact fun mode => congrArg (c :: ·) (ih _)
  have hmark : ∀ (text : List (Char × Class)) (scope : Scope),
      (mark_production scope text).map Prod.fst = text.map Prod.fst := by
    intro text
    induction text with
    | nil => exact fun _ => rfl
    | cons x rest ih => exact fun scope => congrArg (x.1 :: ·) (ih _)
  rw [production, hmark, classified, hclassify]

theorem occurrences_eq {pattern : List (Char × Bool)} (hne : pattern ≠ [])
    (marked : List (Char × Bool)) (place : Place) :
    occurrences pattern marked =
      (positions place marked).countP fun p => pattern.isPrefixOf p.2 := by
  induction marked generalizing place with
  | nil =>
    cases pattern with
    | nil => exact absurd rfl hne
    | cons x pattern => rfl
  | cons x rest ih =>
    rw [occurrences, List.tails_cons, List.countP_cons, ← occurrences, positions, List.countP_cons,
      ← ih]

theorem mentions_of_is_panic {needle : String} {text : List (Char × Bool)}
    (h : is_panic needle text = true) : mentions needle text = true := by
  rw [is_panic, List.isPrefixOf_iff_prefix] at h
  rw [mentions, List.isPrefixOf_iff_prefix]
  have hmap := h.map Prod.fst
  have hchars : (Prod.fst ∘ fun c : Char => (c, true)) = id := rfl
  rwa [as_production, List.map_map, hchars, List.map_id] at hmap

/-- What two conditions count apart from each other. -/
theorem countP_balance {α : Type*} {p q r : α → Bool} (hpr : ∀ x, p x = true → r x = true)
    (l : List α) :
    (l.countP fun x => r x && q x) + (l.countP fun x => p x && !q x) =
      l.countP p + l.countP fun x => r x && !p x && q x := by
  induction l with
  | nil => rfl
  | cons x l ih =>
    rw [List.countP_cons, List.countP_cons, List.countP_cons, List.countP_cons]
    have hx := hpr x
    cases hp : p x <;> cases hq : q x <;> cases hr : r x <;> simp_all <;> omega

/-- **The ratchet counts what is seen of a file.** -/
theorem file_panics_eq (file : SourceFile) :
    file_panics file.found = (NEEDLES.map fun needle =>
      (positions .LineStart (production file.text)).countP fun p =>
        mentions needle p.2 && p.1.sees needle.toList).sum := by
  have hline : line_panics =
      fun line => NEEDLES.countP fun needle => counts needle.toList line := by
    funext line
    unfold line_panics counts
    split_ifs with hcomment <;> simp [hcomment]
  rw [file_panics, SourceFile.found, file.included, if_neg Bool.false_ne_true, hline]
  refine (sum_countP_comm (fun line (needle : String) => counts needle.toList line) _ _).trans ?_
  refine congrArg List.sum (List.map_congr_left fun needle hmem => ?_)
  obtain ⟨a, tail, hchars, hneedle⟩ := is_needle hmem
  rw [countP_positions, production_text, hchars, seen_from_eq hneedle, Place.line, Place.kept,
    seen_kept_lines hneedle]
  rfl

/-- **What a file is counted for**: its panics, but for those that are overlooked, and what is
mistaken for one. -/
theorem file_panics_balance (file : SourceFile) :
    file_panics file.found + overlooked file.text = panics file.text + mistaken file.text := by
  have hneedles : ∀ needle ∈ NEEDLES, as_production needle ≠ [] := by
    intro needle hmem
    obtain ⟨a, tail, hchars, -⟩ := is_needle hmem
    rw [as_production, hchars]
    exact List.cons_ne_nil _ _
  rw [file_panics_eq, overlooked, panics, mistaken, ← List.sum_map_add, ← List.sum_map_add]
  refine congrArg List.sum (List.map_congr_left fun needle hmem => ?_)
  rw [occurrences_eq (hneedles needle hmem) _ .LineStart]
  exact countP_balance (fun p => mentions_of_is_panic) _

/-- Production code behind the declaration of a test module. -/
def behind_declared_tests : SourceFile where
  path := "crates/app/src/lib.rs"
  text := "#[cfg(test)]\nmod tests;\n\npub fn f() \x7b\n    panic!(\"a\")\n\x7d\n"
  included := by decide +kernel
  single_line := by decide +kernel
  unescaped := by decide +kernel
  plain_chars := by decide +kernel
  no_block_comment := by decide +kernel
  top_level := by decide +kernel

end Evidence.Floors
