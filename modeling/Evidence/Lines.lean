/-
The parts of Rust's `str` that read line-oriented output: `lines`, `trim`,
`split_whitespace`, `splitn`, `rfind`, `replace` and `parse::<u64>`, on the
characters of a text.

`lines` drops the line terminators, LF or CRLF, and a last line need not have
one. What the readers of this development rely on is that a text put together
from lines is taken apart into the same lines, up to a carriage return at the
end of one, which `trim` does not see.
-/
import Evidence.Lib.Segments
import Evidence.Text

set_option autoImplicit false

namespace Evidence

open Segments

/-- A statement about the characters of a text is decided along the text. -/
instance (priority := 2000) decidableForallMemText (text : List Char) (p : Char → Prop)
    [DecidablePred p] : Decidable (∀ c ∈ text, p c) :=
  List.decidableBAll p text

/-- So is one about a character that may be there. -/
instance (priority := 2000) decidableForallMemChar (c? : Option Char) (p : Char → Prop)
    [DecidablePred p] : Decidable (∀ c ∈ c?, p c) :=
  Option.decidableForallMem c?

/-! ## Lines -/

/-- `line.strip_suffix('\r')`, or the line itself. -/
def strip_cr (line : List Char) : List Char :=
  if line.getLast? = some '\r' then line.dropLast else line

/-- `str::lines`. Only a terminated line loses a carriage return. -/
def lines (text : List Char) : List (List Char) :=
  let parts := text.splitOn '\n'
  parts.dropLast.map strip_cr ++ parts.getLast?.toList.filter fun last => !last.isEmpty

/-- `text.replace("\r\n", "\n")`. -/
def replace_crlf : List Char → List Char
  | c :: d :: rest =>
    if c = '\r' ∧ d = '\n' then '\n' :: replace_crlf rest else c :: replace_crlf (d :: rest)
  | [c] => [c]
  | [] => []

@[simp] theorem lines_nil : lines [] = [] := rfl

/-- A terminated line is read up to its terminator. -/
theorem lines_cons {line : List Char} (hline : '\n' ∉ line) (rest : List Char) :
    lines (line ++ '\n' :: rest) = strip_cr line :: lines rest := by
  have hne : rest.splitOn '\n' ≠ [] := List.splitOn_ne_nil '\n' rest
  rw [lines, List.splitOn_append_cons_self_of_not_mem hline, List.dropLast_cons_of_ne_nil hne,
    List.getLast?_cons_of_ne_nil hne, List.map_cons, List.cons_append, lines]

/-- **Terminated lines are read back**, up to a carriage return at the end of one. -/
theorem lines_flatMap {ls : List (List Char)} (hls : ∀ l ∈ ls, '\n' ∉ l) :
    lines (ls.flatMap (· ++ ['\n'])) = ls.map strip_cr := by
  induction ls with
  | nil => rfl
  | cons l ls ih =>
    rw [List.flatMap_cons, List.append_assoc, List.cons_append, List.nil_append,
      lines_cons (hls l List.mem_cons_self), ih fun m hm => hls m (List.mem_cons_of_mem _ hm),
      List.map_cons]

theorem strip_cr_cons_cons (c d : Char) (m : List Char) :
    strip_cr (c :: d :: m) = c :: strip_cr (d :: m) := by
  unfold strip_cr
  rw [List.getLast?_cons_cons, List.dropLast_cons_cons]
  split <;> rfl

/-- The end of a text is the end of its last part. -/
theorem strip_cr_append (l : List Char) {m : List Char} (hm : m ≠ []) :
    strip_cr (l ++ m) = l ++ strip_cr m := by
  unfold strip_cr
  rw [List.getLast?_append_of_ne_nil l hm, List.dropLast_append_of_ne_nil hm]
  split <;> rfl

theorem mem_of_mem_strip_cr {c : Char} {line : List Char} (h : c ∈ strip_cr line) : c ∈ line := by
  unfold strip_cr at h
  split at h
  · exact List.dropLast_subset line h
  · exact h

theorem replace_crlf_cons {c d : Char} (hd : d ≠ '\n') (rest : List Char) :
    replace_crlf (c :: d :: rest) = c :: replace_crlf (d :: rest) := by
  rw [replace_crlf, if_neg fun h => hd h.2]

theorem replace_crlf_newline (rest : List Char) :
    replace_crlf ('\n' :: rest) = '\n' :: replace_crlf rest := by
  cases rest with
  | nil => rfl
  | cons d rest => rw [replace_crlf, if_neg fun h => absurd h.1 (by decide)]

/-- Normalization leaves a line that ends in CRLF with its LF. -/
theorem replace_crlf_append_crlf {line : List Char} (hline : '\n' ∉ line) (rest : List Char) :
    replace_crlf (line ++ '\r' :: '\n' :: rest) = line ++ '\n' :: replace_crlf rest := by
  induction line with
  | nil => rw [List.nil_append, replace_crlf, if_pos ⟨rfl, rfl⟩, List.nil_append]
  | cons c line ih =>
    have hrest := ih fun h => hline (List.mem_cons_of_mem c h)
    cases line with
    | nil =>
      rw [List.nil_append] at hrest
      rw [List.cons_append, List.nil_append, replace_crlf_cons (by decide), hrest,
        List.nil_append, List.cons_append, List.nil_append]
    | cons d line =>
      have hd : d ≠ '\n' := fun h => hline (by rw [h]; exact .tail c (.head line))
      rw [List.cons_append, List.cons_append, replace_crlf_cons hd, ← List.cons_append, hrest,
        List.cons_append, List.cons_append, List.cons_append]

/-- Normalization takes a carriage return at the end of a line that ends in LF. -/
theorem replace_crlf_append_lf {line : List Char} (hline : '\n' ∉ line) (rest : List Char) :
    replace_crlf (line ++ '\n' :: rest) = strip_cr line ++ '\n' :: replace_crlf rest := by
  induction line with
  | nil => exact replace_crlf_newline rest
  | cons c line ih =>
    have hrest := ih fun h => hline (List.mem_cons_of_mem c h)
    cases line with
    | nil =>
      by_cases hc : c = '\r'
      · rw [hc, List.cons_append, List.nil_append, replace_crlf, if_pos ⟨rfl, rfl⟩]
        rfl
      · rw [List.cons_append, List.nil_append, replace_crlf, if_neg fun h => hc h.1,
          replace_crlf_newline, strip_cr, List.getLast?_singleton,
          if_neg fun h => hc (Option.some.inj h), List.cons_append, List.nil_append]
    | cons d line =>
      have hd : d ≠ '\n' := fun h => hline (by rw [h]; exact .tail c (.head line))
      rw [List.cons_append, List.cons_append, replace_crlf_cons hd, ← List.cons_append, hrest,
        strip_cr_cons_cons, List.cons_append]

theorem of_mem_lines {text line : List Char} (h : line ∈ lines text) :
    '\n' ∉ line ∧ line ⊆ text := by
  rcases List.mem_append.mp h with h | h
  · obtain ⟨part, hpart, rfl⟩ := List.mem_map.mp h
    obtain ⟨hbreak, hsub⟩ := of_mem_splitOn (List.dropLast_subset _ hpart)
    exact ⟨fun hmem => hbreak (mem_of_mem_strip_cr hmem), fun c hc => hsub (mem_of_mem_strip_cr hc)⟩
  · have hlast := List.mem_of_mem_filter h
    rw [Option.mem_toList] at hlast
    exact of_mem_splitOn (List.mem_of_getLast? hlast)

/-! ## Line ends -/

inductive LineEnd where
  | Lf
  | Crlf
deriving DecidableEq

def LineEnd.chars : LineEnd → List Char
  | Lf => ['\n']
  | Crlf => ['\r', '\n']

def LineEnd.normalized : LineEnd → List Char → List Char
  | Lf, line => strip_cr line
  | Crlf, line => line

/-- Lines as a text. -/
def unlines (line_end : LineEnd) (ls : List (List Char)) : List Char :=
  ls.flatMap (· ++ line_end.chars)

theorem LineEnd.not_mem_normalized {line_end : LineEnd} {line : List Char} (h : '\n' ∉ line) :
    '\n' ∉ line_end.normalized line := by
  cases line_end with
  | Lf => exact fun hmem => h (mem_of_mem_strip_cr hmem)
  | Crlf => exact h

theorem replace_crlf_unlines (line_end : LineEnd) {ls : List (List Char)}
    (hls : ∀ l ∈ ls, '\n' ∉ l) :
    replace_crlf (unlines line_end ls) =
      (ls.map line_end.normalized).flatMap (· ++ ['\n']) := by
  induction ls with
  | nil => rfl
  | cons l ls ih =>
    have hrest := ih fun m hm => hls m (List.mem_cons_of_mem _ hm)
    have hl := hls l List.mem_cons_self
    rw [unlines] at hrest
    rw [unlines, List.flatMap_cons, List.map_cons, List.flatMap_cons, ← hrest]
    cases line_end with
    | Lf =>
      rw [LineEnd.chars, List.append_assoc, List.append_assoc, List.cons_append, List.nil_append,
        replace_crlf_append_lf hl, List.cons_append, List.nil_append]
      rfl
    | Crlf =>
      rw [LineEnd.chars, List.append_assoc, List.append_assoc, List.cons_append, List.cons_append,
        List.nil_append, replace_crlf_append_crlf hl, List.cons_append, List.nil_append]
      rfl

/-! ## Trimming -/

/-- `str::trim`. -/
def trim_chars (line : List Char) : List Char := strip is_whitespace line

/-- `trim` does not see a carriage return at the end. -/
theorem trim_strip_cr (line : List Char) : trim_chars (strip_cr line) = trim_chars line := by
  unfold strip_cr
  split
  · next hlast =>
    obtain ⟨init, hinit⟩ := List.getLast?_eq_some_iff.mp hlast
    rw [hinit, List.dropLast_concat, trim_chars, trim_chars, strip_concat (by decide)]
  · rfl

/-- **A text of lines is read back trimmed**, whatever its line ends. -/
theorem trimmed_lines_unlines (line_end : LineEnd) {ls : List (List Char)}
    (hls : ∀ l ∈ ls, '\n' ∉ l) :
    (lines (replace_crlf (unlines line_end ls))).map trim_chars = ls.map trim_chars := by
  have hnone : ∀ l ∈ ls.map line_end.normalized, '\n' ∉ l := by
    intro l hl
    obtain ⟨m, hm, rfl⟩ := List.mem_map.mp hl
    exact LineEnd.not_mem_normalized (hls m hm)
  rw [replace_crlf_unlines line_end hls, lines_flatMap hnone, List.map_map, List.map_map]
  refine List.map_congr_left fun l _ => ?_
  rw [Function.comp_apply, Function.comp_apply, trim_strip_cr]
  cases line_end with
  | Lf => exact trim_strip_cr l
  | Crlf => rfl

/-! ## Tokens -/

/-- `str::split_whitespace`. -/
def split_whitespace (line : List Char) : List (List Char) := tokens is_whitespace line

/-- `str::rfind` of one character, as the number of characters before it. -/
def rfind (c : Char) (text : List Char) : Option ℕ := lastIndex c text

/-- `line.strip_prefix(pattern)`. -/
def strip_text (pattern line : List Char) : Option (List Char) :=
  if pattern.isPrefixOf line then some (line.drop pattern.length) else none

theorem strip_text_append (pattern rest : List Char) :
    strip_text pattern (pattern ++ rest) = some rest := by
  rw [strip_text, List.isPrefixOf_iff_prefix.mpr (List.prefix_append pattern rest), if_pos rfl,
    List.drop_left]

theorem split_once_cons {pattern : List Char} {c d : Char} (h : c ≠ d) (text : List Char) :
    split_once (c :: pattern) (d :: text) =
      (split_once (c :: pattern) text).map fun (before, after) => (d :: before, after) := by
  have hne : (c :: pattern).isPrefixOf (d :: text) = false := by
    rw [List.isPrefixOf_cons_cons, beq_eq_false_iff_ne.mpr h, Bool.false_and]
  rw [split_once, hne, if_neg Bool.false_ne_true]

theorem split_once_append {pattern : List Char} {c : Char} {before : List Char}
    (hbefore : c ∉ before) (text : List Char) :
    split_once (c :: pattern) (before ++ text) =
      (split_once (c :: pattern) text).map fun (first, after) => (before ++ first, after) := by
  induction before with
  | nil => simp
  | cons d before ih =>
    have hcd : c ≠ d := fun h => hbefore (h ▸ List.mem_cons_self)
    rw [List.cons_append, split_once_cons hcd, ih fun h => hbefore (List.mem_cons_of_mem d h),
      Option.map_map]
    rfl

theorem split_once_eq_some {pattern text before after : List Char}
    (h : split_once pattern text = some (before, after)) : text = before ++ pattern ++ after := by
  induction text generalizing before with
  | nil =>
    unfold split_once at h
    split at h
    · next hempty =>
      rw [List.isEmpty_iff.mp hempty]
      rw [Option.some.injEq, Prod.mk.injEq] at h
      rw [← h.1, ← h.2]
      rfl
    · exact nomatch h
  | cons c text ih =>
    unfold split_once at h
    split at h
    · next hprefix =>
      obtain ⟨rest, hrest⟩ := List.isPrefixOf_iff_prefix.mp hprefix
      rw [Option.some.injEq, Prod.mk.injEq] at h
      rw [← h.1, ← h.2, ← hrest, List.drop_left, List.nil_append]
    · obtain ⟨⟨first, after'⟩, hsplit, hpair⟩ := Option.map_eq_some_iff.mp h
      rw [Prod.mk.injEq] at hpair
      obtain ⟨rfl, rfl⟩ := hpair
      rw [ih hsplit, List.cons_append, List.cons_append]

/-- `str::rsplit_once`: `split_once` from the other end. -/
def rsplit_once (pattern text : List Char) : Option (List Char × List Char) :=
  (split_once pattern.reverse text.reverse).map fun (after, before) =>
    (before.reverse, after.reverse)

/-! ## Numbers -/

/-- `str::parse::<u64>`: an optional plus sign and decimal digits. -/
def parse_u64 (text : List Char) : Option UInt64 :=
  let digits := if text.head? = some '+' then text.tail else text
  if digits.isEmpty || !digits.all Char.isDigit then none
  else
    let n := Nat.ofDigitChars 10 digits 0
    if n < 2 ^ 64 then some (UInt64.ofNat n) else none

/-- `u64::saturating_add`. -/
def saturating_add (a b : UInt64) : UInt64 :=
  if a.toNat + b.toNat < 2 ^ 64 then a + b else UInt64.ofNat (2 ^ 64 - 1)

/-- A sum that fits is exact. -/
theorem toNat_saturating_add {a b : UInt64} (h : a.toNat + b.toNat < 2 ^ 64) :
    (saturating_add a b).toNat = a.toNat + b.toNat := by
  rw [saturating_add, if_pos h, UInt64.toNat_add, Nat.mod_eq_of_lt h]

/-- `u32::saturating_add`. -/
def saturating_add_u32 (a b : UInt32) : UInt32 :=
  if a.toNat + b.toNat < 2 ^ 32 then a + b else UInt32.ofNat (2 ^ 32 - 1)

/-- A saturating sum is the sum, cut off at the largest number. -/
theorem toNat_saturating_add_u32 (a b : UInt32) :
    (saturating_add_u32 a b).toNat = min (a.toNat + b.toNat) (2 ^ 32 - 1) := by
  unfold saturating_add_u32
  by_cases h : a.toNat + b.toNat < 2 ^ 32
  · rw [if_pos h, UInt32.toNat_add, Nat.mod_eq_of_lt h]
    omega
  · rw [if_neg h, UInt32.toNat_ofNat_of_lt' (by decide)]
    omega

theorem saturating_add_u32_right_comm (a b c : UInt32) :
    saturating_add_u32 (saturating_add_u32 a b) c =
      saturating_add_u32 (saturating_add_u32 a c) b := by
  apply UInt32.toNat_inj.mp
  simp only [toNat_saturating_add_u32]
  omega

theorem decimal_toList (n : ℕ) : (decimal n).toList = Nat.toDigits 10 n := by
  rw [decimal, Nat.repr, String.toList_ofList]

/-- Numbers are written differently. -/
theorem decimal_inj {m n : ℕ} : decimal m = decimal n ↔ m = n := by
  constructor
  · intro h
    have hvalue := congrArg (fun text => Nat.ofDigitChars 10 (String.toList text) 0) h
    simpa only [decimal_toList, Nat.ofDigitChars_ten_toDigits] using hvalue
  · exact congrArg decimal

theorem isDigit_of_mem_decimal {n : ℕ} {c : Char} (h : c ∈ (decimal n).toList) :
    c.isDigit = true := by
  rw [decimal_toList] at h
  exact Nat.isDigit_of_mem_toDigits (by decide) (by decide) h

theorem decimal_ne_nil (n : ℕ) : (decimal n).toList ≠ [] := by
  rw [decimal_toList]
  exact Nat.toDigits_ne_nil

theorem is_whitespace_of_isDigit {c : Char} (h : c.isDigit = true) : is_whitespace c = false := by
  rw [Char.isDigit, Bool.and_eq_true, decide_eq_true_eq, decide_eq_true_eq, ge_iff_le,
    UInt32.le_iff_toNat_le, UInt32.le_iff_toNat_le] at h
  have hlow : 48 ≤ c.toNat := h.1
  have hhigh : c.toNat ≤ 57 := h.2
  simp only [is_whitespace, Bool.or_eq_false_iff, Bool.and_eq_false_iff, decide_eq_false_iff_not,
    beq_eq_false_iff_ne]
  omega

/-- **A number that fits is read back.** -/
theorem parse_u64_decimal {n : ℕ} (hn : n < 2 ^ 64) :
    parse_u64 (decimal n).toList = some (UInt64.ofNat n) := by
  have hplus : (decimal n).toList.head? ≠ some '+' := by
    intro h
    have hdigit := isDigit_of_mem_decimal (List.mem_of_mem_head? h)
    exact absurd hdigit (by decide)
  have hempty : (decimal n).toList.isEmpty = false :=
    List.isEmpty_eq_false_iff.mpr (decimal_ne_nil n)
  have hall : (decimal n).toList.all Char.isDigit = true :=
    List.all_eq_true.mpr fun c hc => isDigit_of_mem_decimal hc
  have hvalue : Nat.ofDigitChars 10 (decimal n).toList 0 = n := by
    rw [decimal_toList, Nat.ofDigitChars_ten_toDigits]
  rw [parse_u64, if_neg hplus, hempty, hall]
  simp only [Bool.not_true, Bool.or_self, Bool.false_eq_true, if_false, hvalue, if_pos hn]

end Evidence
