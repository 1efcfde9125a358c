/-
`floors.rs`, `floors/walker.rs` -- the ratchet on panics in library code.

`count_library_panics` reads source files. From each it takes away what it holds for the test
modules: from a `#[cfg(test)]` at the start of a line to the brace that closes the first one
behind it. Of what remains it counts the lines that are not comments, once for each of three
needles, where the first occurrence of the needle is not taken to be in a string literal: a raw
one that is still open, or one that an odd number of quotes tells of.

The code works on bytes; those of a character outside ASCII are none of the ones it looks for.
-/
import Evidence.Lines
import Mathlib.Algebra.Ring.Nat

set_option autoImplicit false

namespace Evidence.Floors

/-! ## Test modules -/

/-- The attribute that a test module has. -/
def CFG_TEST : List Char := "#[cfg(test)]".toList

/-- What is behind the brace that closes a block; `depth` are open. -/
def skip_block : ℤ → List Char → List Char
  | _, [] => []
  | depth, c :: rest =>
    if c = '\x7b' then skip_block (depth + 1) rest
    else if c = '\x7d' then
      if depth - 1 = 0 then rest else skip_block (depth - 1) rest
    else skip_block depth rest

theorem length_skip_block (depth : ℤ) (text : List Char) :
    (skip_block depth text).length ≤ text.length := by
  induction text generalizing depth with
  | nil => exact le_rfl
  | cons c rest ih =>
    rw [skip_block]
    split_ifs
    · exact (ih _).trans (Nat.le_succ _)
    · exact Nat.le_succ _
    · exact (ih _).trans (Nat.le_succ _)
    · exact (ih _).trans (Nat.le_succ _)

/-- From the next opening brace on. -/
def skip_to_open (text : List Char) : List Char := text.dropWhile (· ≠ '\x7b')

theorem length_skip_block_lt {text : List Char} (h : skip_to_open text ≠ []) :
    (skip_block 0 (skip_to_open text)).length < text.length := by
  have hle : (skip_to_open text).length ≤ text.length := (List.dropWhile_sublist _).length_le
  rcases hopen : skip_to_open text with _ | ⟨c, rest⟩
  · exact absurd hopen h
  · rw [hopen, List.length_cons] at hle
    have hopens : c = '\x7b' := by
      have hhead := List.head?_dropWhile_not (fun d => decide (d ≠ '\x7b')) text
      rw [skip_to_open] at hopen
      rw [hopen] at hhead
      simpa using hhead
    rw [skip_block, if_pos hopens]
    exact (Nat.lt_succ_of_le (length_skip_block _ rest)).trans_le hle

/-- The walk along a text; `line_start` says that no character is before, or a line break. -/
def strip_from (line_start : Bool) : List Char → List Char
  | [] => []
  | c :: rest =>
    if line_start ∧ CFG_TEST.isPrefixOf (c :: rest) then
      if _hnone : skip_to_open (c :: rest) = [] then []
      -- a closing brace is before what follows
      else strip_from false (skip_block 0 (skip_to_open (c :: rest)))
    else c :: strip_from (c = '\n') rest
termination_by text => text.length
decreasing_by
  · exact length_skip_block_lt _hnone
  · exact Nat.lt_succ_self _

def strip_cfg_test_modules (text : List Char) : List Char := strip_from true text

/-! ## String literals -/

/-- `u8::is_ascii_alphanumeric`, or an underscore. -/
def is_ident_char (c : Char) : Bool := c.isAlphanum || c == '_'

/-- How many hashes a text starts with. -/
def count_hashes (text : List Char) : ℕ := (text.takeWhile (· = '#')).length

/-- What is behind the closer of a raw string: a quote and as many hashes as the opener has. -/
def find_closer (hashes : ℕ) : List Char → Option (List Char)
  | [] => none
  | c :: rest =>
    if c = '"' ∧ hashes ≤ count_hashes rest then some (rest.drop hashes)
    else find_closer hashes rest

theorem length_find_closer {hashes : ℕ} {text behind : List Char}
    (h : find_closer hashes text = some behind) : behind.length < text.length := by
  induction text with
  | nil => cases h
  | cons c rest ih =>
    rw [find_closer] at h
    split_ifs at h with hclose
    · rw [← Option.some.inj h, List.length_drop, List.length_cons]
      omega
    · exact (ih h).trans (Nat.lt_succ_self _)

/-- What an opener of a raw string with those hashes has behind it. -/
def raw_body (hashes : ℕ) (text : List Char) : Option (List Char) :=
  match text.drop hashes with
  | [] => none
  | c :: body => if c = '"' then some body else none

theorem length_raw_body {hashes : ℕ} {text body : List Char}
    (h : raw_body hashes text = some body) : body.length < text.length := by
  have hle : (text.drop hashes).length ≤ text.length := (List.drop_sublist _ _).length_le
  rw [raw_body] at h
  split at h
  · cases h
  · next c rest hdrop =>
    rw [hdrop, List.length_cons] at hle
    split_ifs at h
    rw [← Option.some.inj h]
    omega

def raw_string_scan (preceded_by_ident : Bool) : List Char → Bool
  | [] => false
  | c :: rest =>
    if c = 'r' ∧ preceded_by_ident = false then
      match _hbody : raw_body (count_hashes rest) rest with
      | some body =>
        match _hclose : find_closer (count_hashes rest) body with
        | none => true
        -- a quote or a hash is before what follows
        | some behind => raw_string_scan false behind
      | none => raw_string_scan (is_ident_char c) rest
    else raw_string_scan (is_ident_char c) rest
termination_by text => text.length
decreasing_by
  · have hlt := (length_find_closer _hclose).trans (length_raw_body _hbody)
    exact hlt.trans (Nat.lt_succ_self _)
  · exact Nat.lt_succ_self _
  · exact Nat.lt_succ_self _

/-- A raw string that is opened in `before` is not closed in it. -/
def raw_string_covers (before : List Char) : Bool := raw_string_scan false before

def needle_is_outside_string_literal (line needle : List Char) : Bool :=
  match split_once needle line with
  | none => false
  | some (before, _) =>
    if raw_string_covers before then false
    else if before.count '"' % 2 = 1 then false
    else true

/-! ## The count -/

/-- The macros that the ratchet counts. -/
def NEEDLES : List String := ["panic!(", "unimplemented!(", "todo!("]

def trim_start (line : List Char) : List Char := line.dropWhile is_whitespace

def is_comment_line (line : List Char) : Bool :=
  "//!".toList.isPrefixOf (trim_start line) || "///".toList.isPrefixOf (trim_start line) ||
    "//".toList.isPrefixOf (trim_start line)

def line_panics (line : List Char) : ℕ :=
  if is_comment_line line then 0
  else NEEDLES.countP fun needle => needle_is_outside_string_literal line needle.toList

/-- A file that the walk finds; one that cannot be read has no content. -/
structure RustFile where
  path : String
  content : Option String

/-- `str::contains`. -/
def contains_text (pattern text : List Char) : Bool := text.tails.any pattern.isPrefixOf

/-- The files of tests, and those of the binary. -/
def is_exempt (path : String) : Bool :=
  let normalized := path.toList.map fun c => if c = '\\' then '/' else c
  let name := ((rsplit_once ['/'] path.toList).map Prod.snd).getD path.toList
  contains_text "/tests/".toList normalized || "/tests.rs".toList.isSuffixOf normalized ||
    name == "main.rs".toList

def file_panics (file : RustFile) : ℕ :=
  if is_exempt file.path then 0
  else
    match file.content with
    | none => 0
    | some content =>
      ((lines (strip_cfg_test_modules content.toList)).map line_panics).sum

def count_library_panics (files : List RustFile) : ℕ := (files.map file_panics).sum

end Evidence.Floors
