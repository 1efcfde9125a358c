/-
`cli/check.rs` -- what a source-mode check does with the output of `cargo test`.

The two streams of the run are decoded lossily and put together. Where the text has no result
line and the run failed, the check reports a runtime failure with the tail of the text: its last
2048 bytes, cut off by a slice. A slice at an index inside a character panics, so the report comes
about exactly when the text has a tail of whole characters of that length
(`check_source_reported_iff`).
-/
import Evidence.Bundle.TestTotals
import Evidence.Cli.Verify
import Evidence.Verify.TestSummaryCheck

set_option autoImplicit false

namespace Evidence.Cli

open Evidence.Bundle (Outcomes parse_cargo_test_output_with_outcomes)
open Verify (from_utf8_lossy)

/-! ## Slices -/

/-- The characters from a byte index on. There are none where the index lies inside a character,
or behind the end. -/
def chars_from : ℕ → List Char → Option (List Char)
  | 0, chars => some chars
  | _ + 1, [] => none
  | index + 1, c :: chars =>
    if c.utf8Size ≤ index + 1 then chars_from (index + 1 - c.utf8Size) chars else none

/-- `&text[index..]`, with `none` for a panic. -/
def slice_from (index : ℕ) (text : String) : Option String :=
  (chars_from index text.toList).map String.ofList

/-! ## The run -/

structure CargoTestRun where
  combined : String
  exit_success : Bool
  exit_code : Option ℤ
deriving DecidableEq

/-- What is captured of a run; it succeeded if it exited with zero. -/
def run_cargo_test (stdout stderr : List UInt8) (exit_code : Option ℤ) : CargoTestRun where
  combined := from_utf8_lossy stdout ++ from_utf8_lossy stderr
  exit_success := exit_code == some 0
  exit_code := exit_code

def display_code (code : ℤ) : String :=
  if code < 0 then "-" ++ decimal code.natAbs else decimal code.natAbs

/-- The length that a tail is clamped to. -/
def TAIL_BYTES : ℕ := 2048

def runtime_failure (run : CargoTestRun) (tail : String) : Diagnostic where
  code := "CHECK_TEST_RUNTIME_FAILURE"
  severity := .Error
  message := "cargo test exited with status " ++ (run.exit_code.map display_code).getD "signal" ++
    " and produced no parseable `test result:` line — build failure or runtime crash. Tail of " ++
    "combined stdout+stderr:\n" ++ tail
  location := none
  fix_hint := none
  root_cause_uid := none

/-- The diagnostic of a run without a result line; `none` is a panic. -/
def check_test_runtime_failure_diagnostic (run : CargoTestRun) : Option Diagnostic :=
  let tail_len := min TAIL_BYTES (str_len run.combined)
  (slice_from (str_len run.combined - tail_len) run.combined).map (runtime_failure run)

def terminal_check_fail (message : String) : Diagnostic where
  code := "VERIFY_FAIL"
  severity := .Error
  message := message
  location := none
  fix_hint := none
  root_cause_uid := none

/-- How the check goes on behind the run of the tests. -/
inductive TestPhase where
  | Parsed (outcomes : Outcomes)
  | InvalidArgument (reason : String)
  | RuntimeFailure (diagnostic terminal : Diagnostic)

/-- The second phase of `cmd_check_source`; `none` is a panic. -/
def cmd_check_source (run : CargoTestRun) : Option TestPhase :=
  match parse_cargo_test_output_with_outcomes run.combined with
  | some (_, outcomes) => some (.Parsed outcomes)
  | none =>
    if run.exit_success then
      some (.InvalidArgument ("cargo test produced no parseable `test result:` line (is this a " ++
        "Rust workspace with testable crates?)"))
    else
      (check_test_runtime_failure_diagnostic run).map fun diagnostic =>
        .RuntimeFailure diagnostic (terminal_check_fail ("cargo test exited " ++
          (run.exit_code.map display_code).getD "on signal" ++
          " without producing parseable output"))

/-! ## What a slice is -/

/-- The bytes of characters, counted. -/
theorem str_len_ofList_cons (c : Char) (chars : List Char) :
    str_len (String.ofList (c :: chars)) = c.utf8Size + str_len (String.ofList chars) := by
  rw [str_len, str_len, String.ofList_cons, String.utf8ByteSize_append,
    String.utf8ByteSize_singleton]

theorem str_len_append (s t : String) : str_len (s ++ t) = str_len s + str_len t :=
  String.utf8ByteSize_append

/-- Characters that take no byte are none. -/
theorem eq_nil_of_str_len_zero {chars : List Char} (h : str_len (String.ofList chars) = 0) :
    chars = [] := by
  cases chars with
  | nil => rfl
  | cons c chars =>
    rw [str_len_ofList_cons] at h
    have hpos := c.utf8Size_pos
    omega

/-- **The characters from an index on** are those behind characters of as many bytes. -/
theorem chars_from_iff {index : ℕ} {chars tail : List Char} :
    chars_from index chars = some tail ↔
      ∃ before, chars = before ++ tail ∧ str_len (String.ofList before) = index := by
  induction chars generalizing index with
  | nil =>
    cases index with
    | zero =>
      rw [chars_from, Option.some.injEq]
      constructor
      · rintro rfl
        exact ⟨[], rfl, rfl⟩
      · rintro ⟨before, hsplit, -⟩
        exact (List.nil_eq_append_iff.mp hsplit).2.symm
    | succ index =>
      refine iff_of_false (Option.some_ne_none _).symm ?_
      rintro ⟨before, hsplit, hlen⟩
      rw [(List.nil_eq_append_iff.mp hsplit).1] at hlen
      cases hlen
  | cons c chars ih =>
    have hpos := c.utf8Size_pos
    cases index with
    | zero =>
      rw [chars_from, Option.some.injEq]
      constructor
      · rintro rfl
        exact ⟨[], rfl, rfl⟩
      · rintro ⟨before, hsplit, hlen⟩
        rw [hsplit, eq_nil_of_str_len_zero hlen, List.nil_append]
    | succ index =>
      rw [chars_from, Option.ite_none_right_eq_some, ih]
      constructor
      · rintro ⟨hle, before, rfl, hlen⟩
        refine ⟨c :: before, rfl, ?_⟩
        rw [str_len_ofList_cons]
        omega
      · rintro ⟨before, hsplit, hlen⟩
        cases before with
        | nil => cases hlen
        | cons d before =>
          obtain ⟨rfl, rfl⟩ := List.cons.inj hsplit
          rw [str_len_ofList_cons] at hlen
          exact ⟨by omega, before, rfl, by omega⟩

/-- **A slice** is what stands behind as many bytes as its index says. -/
theorem slice_from_iff {index : ℕ} {text tail : String} :
    slice_from index text = some tail ↔
      ∃ before, text = before ++ tail ∧ str_len before = index := by
  rw [slice_from, Option.map_eq_some_iff]
  simp only [chars_from_iff]
  constructor
  · rintro ⟨chars, ⟨before, hsplit, hlen⟩, rfl⟩
    refine ⟨String.ofList before, ?_, hlen⟩
    rw [← String.ofList_append, ← hsplit, String.ofList_toList]
  · rintro ⟨before, rfl, hlen⟩
    refine ⟨tail.toList, ⟨before.toList, String.toList_append, ?_⟩, String.ofList_toList⟩
    rw [String.ofList_toList]
    exact hlen

/-! ## The claim -/

/-- The text of a run ends in whole characters that are as long as the tail is to be. -/
def EndsWhole (text : String) : Prop :=
  ∃ before tail, text = before ++ tail ∧ str_len tail = min TAIL_BYTES (str_len text)

/-- The report of a run comes about, with a tail of its text that is not too long. -/
def Reported (run : CargoTestRun) : Prop :=
  ∃ before tail, run.combined = before ++ tail ∧ str_len tail ≤ TAIL_BYTES ∧
    check_test_runtime_failure_diagnostic run = some (runtime_failure run tail)

/-- A tail is cut off exactly where the text ends in whole characters. -/
theorem tail_iff {text tail : String} :
    slice_from (str_len text - min TAIL_BYTES (str_len text)) text = some tail ↔
      ∃ before, text = before ++ tail ∧ str_len tail = min TAIL_BYTES (str_len text) := by
  rw [slice_from_iff]
  refine exists_congr fun before => and_congr_right fun hsplit => ?_
  have hlen : str_len text = str_len before + str_len tail := by
    rw [hsplit, str_len_append]
  omega

theorem diagnostic_isSome_iff (run : CargoTestRun) :
    (check_test_runtime_failure_diagnostic run).isSome = true ↔ EndsWhole run.combined := by
  rw [check_test_runtime_failure_diagnostic, Option.isSome_map, Option.isSome_iff_exists, EndsWhole,
    exists_comm]
  exact exists_congr fun tail => tail_iff

theorem reported_run_iff (run : CargoTestRun) : Reported run ↔ EndsWhole run.combined := by
  constructor
  · rintro ⟨before, tail, -, -, hdiagnostic⟩
    rw [← diagnostic_isSome_iff, hdiagnostic]
    rfl
  · rintro ⟨before, tail, hsplit, hlen⟩
    refine ⟨before, tail, hsplit, hlen.le.trans (min_le_left _ _), ?_⟩
    rw [check_test_runtime_failure_diagnostic, tail_iff.mpr ⟨before, hsplit, hlen⟩, Option.map_some]

/-- **A failing run is reported exactly when its text ends in whole characters.** For any two byte
strings and any exit, the diagnostic is built, with a suffix of the decoded text of at most 2048
bytes, if and only if the text has a suffix of exactly as many bytes as the tail is to have. The
check panics at a run that failed without a result line and has no such suffix, and nowhere
else. -/
theorem check_source_reported_iff (stdout stderr : List UInt8) (exit_code : Option ℤ) :
    (Reported (run_cargo_test stdout stderr exit_code) ↔
      EndsWhole (from_utf8_lossy stdout ++ from_utf8_lossy stderr)) ∧
    (cmd_check_source (run_cargo_test stdout stderr exit_code) = none ↔
      parse_cargo_test_output_with_outcomes (from_utf8_lossy stdout ++ from_utf8_lossy stderr) =
          none ∧
        exit_code ≠ some 0 ∧ ¬ EndsWhole (from_utf8_lossy stdout ++ from_utf8_lossy stderr)) := by
  have hcombined : (run_cargo_test stdout stderr exit_code).combined =
      from_utf8_lossy stdout ++ from_utf8_lossy stderr := rfl
  have hsuccess : (run_cargo_test stdout stderr exit_code).exit_success = true ↔
      exit_code = some 0 := beq_iff_eq
  generalize run_cargo_test stdout stderr exit_code = run at hcombined hsuccess
  rw [← hcombined]
  refine ⟨reported_run_iff run, ?_⟩
  rw [← diagnostic_isSome_iff, cmd_check_source, Ne, ← hsuccess]
  cases parse_cargo_test_output_with_outcomes run.combined with
  | some parsed => simp
  | none =>
    cases run.exit_success with
    | true => simp
    | false =>
      simp only [Bool.false_eq_true, if_false, Option.map_eq_none_iff, true_and, not_false_eq_true,
        Option.not_isSome_iff_eq_none]

/-! ## An accent in front of the tail -/

theorem not_ends_whole_of_cut {c : Char} {chars : List Char} (hc : 1 < c.utf8Size)
    (hlength : str_len (String.ofList (c :: chars)) = 2049) :
    ¬ EndsWhole (String.ofList (c :: chars)) := by
  rintro ⟨before, tail, hsplit, hlen⟩
  have hsum := congrArg str_len hsplit
  rw [hlength, str_len_append] at hsum
  rw [hlength, TAIL_BYTES] at hlen
  -- one byte is left for what stands before the tail
  have hchars := congrArg String.toList hsplit
  rw [String.toList_ofList, String.toList_append] at hchars
  cases hfirst : before.toList with
  | nil =>
    rw [← String.ofList_toList (s := before), hfirst] at hsum
    have hempty : str_len (String.ofList []) = 0 := rfl
    omega
  | cons d rest =>
    rw [hfirst, List.cons_append] at hchars
    rw [← String.ofList_toList (s := before), hfirst, str_len_ofList_cons,
      ← (List.cons.inj hchars).1] at hsum
    omega

/-- A line as a compiler prints it: a character of three bytes, and 2045 letters. -/
def drawn_line : List Char := '─' :: List.replicate 2045 'a'

def drawn_output : String := String.ofList (unlines .Lf [drawn_line])

theorem drawn_output_not_whole : ¬ EndsWhole drawn_output := by
  have hthree : Char.utf8Size '─' = 3 := rfl
  have hletters (n : ℕ) : str_len (String.ofList (List.replicate n 'a' ++ ['\n'])) = n + 1 := by
    induction n with
    | zero => rfl
    | succ n ih =>
      have hone : Char.utf8Size 'a' = 1 := rfl
      rw [List.replicate_succ, List.cons_append, str_len_ofList_cons, ih, hone]
      omega
  have houtput : drawn_output = String.ofList ('─' :: (List.replicate 2045 'a' ++ ['\n'])) := by
    rw [drawn_output, unlines, List.flatMap_singleton, drawn_line, List.cons_append]
    rfl
  rw [houtput]
  refine not_ends_whole_of_cut (by decide) ?_
  rw [str_len_ofList_cons, hthree, hletters]

/-- The line is no result line. -/
theorem drawn_output_unparsed : parse_cargo_test_output_with_outcomes drawn_output = none := by
  have hbreak : ∀ line ∈ [drawn_line], '\n' ∉ line := by
    intro line hline
    rw [List.mem_singleton.mp hline, drawn_line, List.mem_cons, List.mem_replicate]
    decide
  have hlines : Bundle.trimmed_lines drawn_output = [trim_chars drawn_line] := by
    rw [Bundle.trimmed_lines, drawn_output, String.toList_ofList, trimmed_lines_unlines .Lf hbreak,
      List.map_singleton]
  have hother : ("test result:".toList.isPrefixOf (trim_chars drawn_line)) = false := by
    have hchar : ∀ c ∈ drawn_line, is_whitespace c = false := by
      intro c hc
      rcases List.mem_cons.mp hc with rfl | hletter
      · decide
      · rw [List.eq_of_mem_replicate hletter]
        decide
    have htrim : trim_chars drawn_line = drawn_line :=
      Segments.strip_eq_self (fun c hc => hchar c (List.mem_of_mem_head? hc))
        fun c hc => hchar c (List.mem_of_getLast? hc)
    rw [htrim, drawn_line, Bool.eq_false_iff]
    intro hprefix
    obtain ⟨rest, hrest⟩ := List.isPrefixOf_iff_prefix.mp hprefix
    exact absurd (List.cons.inj hrest).1 (by decide)
  have hfound : (Bundle.scan_output drawn_output).found = false := by
    rw [Bundle.found_scan_output, hlines, List.any_cons, Bundle.result_segments_eq_none hother]
    rfl
  have hparse := Bundle.parse_cargo_test_output_eq drawn_output
  rw [hfound, if_neg Bool.false_ne_true] at hparse
  exact Option.map_eq_none_iff.mp hparse

/-- **The check panics at output that a build prints.** -/
theorem check_source_panics :
    ¬ Reported (run_cargo_test (str_bytes drawn_output) [] (some 101)) ∧
      cmd_check_source (run_cargo_test (str_bytes drawn_output) [] (some 101)) = none := by
  have hcombined : (run_cargo_test (str_bytes drawn_output) [] (some 101)).combined =
      drawn_output := by
    have hempty : from_utf8_lossy [] = "" := rfl
    rw [run_cargo_test, from_utf8_lossy, Bundle.from_utf8_str_bytes, hempty, Option.getD_some,
      String.append_empty]
  have hnone : check_test_runtime_failure_diagnostic
      (run_cargo_test (str_bytes drawn_output) [] (some 101)) = none := by
    rw [← Option.not_isSome_iff_eq_none, diagnostic_isSome_iff, hcombined]
    exact drawn_output_not_whole
  constructor
  · rw [reported_run_iff, hcombined]
    exact drawn_output_not_whole
  · rw [cmd_check_source, hcombined, drawn_output_unparsed, hnone]
    rfl

end Evidence.Cli
