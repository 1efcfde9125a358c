/-
`verify/consistency.rs` and `phases/test_capture.rs` -- the summary of a test run, recorded
and checked.

Generating a bundle captures what nextest prints, normalizes its line ends, decodes it
leniently and reads it as a stream of events; the summary goes into the index and the
bytes into the bundle. Verifying reads the bytes back strictly, looks for the text of a
`suite` event, and reads the stream as events if it is there and as plain libtest text
if it is not. The two agree on a stream with a `suite` event; on one without any they
agree only by coincidence.
-/
import Evidence.Bundle.Nextest
import Evidence.Bundle.Signing
import Evidence.Cli.VerifyError

set_option autoImplicit false

namespace Evidence.Verify

open Evidence.Bundle

/-! ## Decoding -/

/-- A byte that continues a character. -/
def is_continuation (b : UInt8) : Bool :=
  0x80 ≤ b.toNat && b.toNat ≤ 0xBF

/-- The second bytes a first byte allows, in a character of three or four bytes. -/
def is_second (first second : UInt8) : Bool :=
  if first.toNat = 0xE0 then 0xA0 ≤ second.toNat && second.toNat ≤ 0xBF
  else if first.toNat = 0xED then 0x80 ≤ second.toNat && second.toNat ≤ 0x9F
  else if first.toNat = 0xF0 then 0x90 ≤ second.toNat && second.toNat ≤ 0xBF
  else if first.toNat = 0xF4 then 0x80 ≤ second.toNat && second.toNat ≤ 0x8F
  else is_continuation second

/-- The value of a character's bytes after the first. -/
def continued (value : ℕ) (bytes : List UInt8) : Char :=
  Char.ofNat (bytes.foldl (fun value b => value * 64 + (b.toNat - 0x80)) value)

/-- The first character of a lossy decoding, and how many bytes after the first it takes: what
cannot go on is replaced as far as it went. -/
def lossy_front (first : UInt8) (rest : List UInt8) : Char × ℕ :=
  if first.toNat < 0x80 then (Char.ofNat first.toNat, 0)
  else if 0xC2 ≤ first.toNat ∧ first.toNat ≤ 0xDF then
    match rest with
    | b :: _ => if is_continuation b then (continued (first.toNat - 0xC0) [b], 1) else ('\uFFFD', 0)
    | [] => ('\uFFFD', 0)
  else if 0xE0 ≤ first.toNat ∧ first.toNat ≤ 0xEF then
    match rest with
    | b :: c :: _ =>
      if !is_second first b then ('\uFFFD', 0)
      else if is_continuation c then (continued (first.toNat - 0xE0) [b, c], 2)
      else ('\uFFFD', 1)
    | [b] => ('\uFFFD', if is_second first b then 1 else 0)
    | [] => ('\uFFFD', 0)
  else if 0xF0 ≤ first.toNat ∧ first.toNat ≤ 0xF4 then
    match rest with
    | b :: c :: d :: _ =>
      if !is_second first b then ('\uFFFD', 0)
      else if !is_continuation c then ('\uFFFD', 1)
      else if is_continuation d then (continued (first.toNat - 0xF0) [b, c, d], 3)
      else ('\uFFFD', 2)
    | [b, c] =>
      ('\uFFFD', if !is_second first b then 0 else if is_continuation c then 2 else 1)
    | [b] => ('\uFFFD', if is_second first b then 1 else 0)
    | [] => ('\uFFFD', 0)
  else ('\uFFFD', 0)

/-- The characters of bytes, of which some are passed over first. -/
def lossy_chars : ℕ → List UInt8 → List Char
  | _, [] => []
  | skip + 1, _ :: rest => lossy_chars skip rest
  | 0, first :: rest => (lossy_front first rest).1 :: lossy_chars (lossy_front first rest).2 rest

/-- `String::from_utf8_lossy`: bytes that are UTF-8 are borrowed as they are. -/
def from_utf8_lossy (bytes : List UInt8) : String :=
  (from_utf8 bytes).getD (String.ofList (lossy_chars 0 bytes))

/-- Captured text has LF line ends. -/
def normalize_captured_text : List UInt8 → List UInt8
  | b :: c :: rest =>
    if b = 13 ∧ c = 10 then 10 :: normalize_captured_text rest
    else b :: normalize_captured_text (c :: rest)
  | [b] => [b]
  | [] => []

section Summaries

variable [SerdeJson]

/-! ## Generating -/

/-- A dimension in which the summary and the records of a run disagree. -/
structure SummaryDiscrepancy where
  dimension : String
  summary : UInt32
  records : UInt32
deriving DecidableEq

def count_records (records : List TestOutcomeRecord) (p : TestOutcomeRecord → Bool) : UInt32 :=
  records.foldl (fun n r => if p r then n + 1 else n) 0

def reconcile (run : NextestRun) : List SummaryDiscrepancy :=
  [("passed", run.summary.passed, count_records run.records fun r => !r.ignored && r.passed),
    ("failed", run.summary.failed, count_records run.records fun r => !r.ignored && !r.passed),
    ("ignored", run.summary.ignored, count_records run.records fun r => r.ignored)].filterMap
      fun (dimension, summary, records) =>
        if summary ≠ records then some { dimension, summary, records } else none

structure CapturedRun where
  cargo_test_stdout : List UInt8
  test_summary : TestSummary
  test_outcomes : Option (List TestOutcomeRecord)
deriving DecidableEq

def run_tests_and_capture (strict : Bool) (output : List UInt8) :
    Except (List SummaryDiscrepancy) CapturedRun :=
  let stdout := normalize_captured_text output
  let run := parse_nextest_libtest_json (from_utf8_lossy stdout)
  if reconcile run ≠ [] ∧ strict then .error (reconcile run)
  else
    .ok { cargo_test_stdout := stdout
          test_summary := run.summary
          test_outcomes := if run.records.isEmpty then none else some run.records }

/-! ## Verifying -/

/-- `text.contains(pattern)`. -/
def contains_text (pattern text : List Char) : Bool :=
  text.tails.any pattern.isPrefixOf

/-- The text of a `suite` event, by which a stream of events is told from plain text. -/
def SUITE_EVENT : String := "\"type\":\"suite\""

def parse_cargo_test_output (output : String) : Option TestSummary :=
  (parse_cargo_test_output_with_outcomes output).map Prod.fst

/-- The summary read back from a captured text. -/
def reparse (captured : String) : Option TestSummary :=
  if contains_text SUITE_EVENT.toList captured.toList then
    some (parse_nextest_libtest_json captured).summary
  else parse_cargo_test_output captured

/-- The five counts of a summary, by field. -/
def summary_fields (s : TestSummary) : List (String × UInt32) :=
  [("total", s.total), ("passed", s.passed), ("failed", s.failed), ("ignored", s.ignored),
    ("filtered_out", s.filtered_out)]

/-- A field of the index compared with what was read back. -/
def field_mismatch (index_field parsed_field : String × UInt32) : Option Cli.VerifyError :=
  if index_field.2 ≠ parsed_field.2 then
    some (.TestSummaryMismatch index_field.1 (decimal index_field.2.toNat)
      (decimal parsed_field.2.toNat))
  else none

/-- The mismatch of a text no summary is found in. -/
def parse_mismatch (index_ts : TestSummary) : Cli.VerifyError :=
  .TestSummaryMismatch "parse"
    ("total=" ++ decimal index_ts.total.toNat ++ " passed=" ++ decimal index_ts.passed.toNat ++
      " failed=" ++ decimal index_ts.failed.toNat)
    "no recognizable test summary in cargo_test_stdout.txt"

/-- `check_test_summary`, on the bytes of `tests/cargo_test_stdout.txt` and the index's summary,
each if it is there. A file that is not UTF-8 is warned of and left. -/
def check_test_summary (cargo_test_stdout : Option (List UInt8)) (test_summary : Option TestSummary) :
    List Cli.VerifyError :=
  match test_summary, cargo_test_stdout.bind from_utf8 with
  | some index_ts, some captured =>
    match reparse captured with
    | some parsed =>
      (List.zipWith field_mismatch (summary_fields index_ts) (summary_fields parsed)).filterMap id
    | none => [parse_mismatch index_ts]
  | _, _ => []

/-! ## What the check accepts -/

omit [SerdeJson] in
theorem field_mismatch_eq_none_iff {index_field parsed_field : String × UInt32} :
    field_mismatch index_field parsed_field = none ↔ index_field.2 = parsed_field.2 := by
  by_cases h : index_field.2 = parsed_field.2 <;> simp [field_mismatch, h]

omit [SerdeJson] in
/-- The check compares all five counts. -/
theorem mismatches_eq_nil_iff {index_ts parsed : TestSummary} :
    (List.zipWith field_mismatch (summary_fields index_ts) (summary_fields parsed)).filterMap id =
        [] ↔ index_ts = parsed := by
  simp only [summary_fields, List.zipWith_cons_cons, List.zipWith_nil_right,
    List.filterMap_eq_nil_iff, List.forall_mem_cons, id_eq, field_mismatch_eq_none_iff]
  constructor
  · rintro ⟨htotal, hpassed, hfailed, hignored, hfiltered, -⟩
    exact TestSummary.mk.injEq .. ▸ ⟨htotal, hpassed, hfailed, hignored, hfiltered⟩
  · rintro rfl
    simp

/-- A text is read alike by both sides: it is UTF-8, and it has the text of a `suite` event, or
plain counts that are those of its events. -/
def ReadAlike (captured : List UInt8) : Prop :=
  ∃ text, from_utf8 captured = some text ∧
    (contains_text SUITE_EVENT.toList text.toList = true ∨
      parse_cargo_test_output text = some (parse_nextest_libtest_json text).summary)

/-- Such a text is read back as the summary that was recorded. -/
theorem readAlike_iff (captured : List UInt8) :
    ReadAlike captured ↔ (from_utf8 captured).bind reparse =
      some (parse_nextest_libtest_json (from_utf8_lossy captured)).summary := by
  cases htext : from_utf8 captured with
  | none => simp [ReadAlike, htext]
  | some text =>
    have hlossy : from_utf8_lossy captured = text := by
      rw [from_utf8_lossy, htext, Option.getD_some]
    rw [hlossy, Option.bind_some, reparse]
    by_cases hsuite : contains_text SUITE_EVENT.toList text.toList = true <;>
      simp [ReadAlike, htext, hsuite]

/-- What the check accepts of a text that is there. -/
theorem check_test_summary_eq_nil_iff (captured : List UInt8) (index_ts : TestSummary) :
    check_test_summary (some captured) (some index_ts) = [] ↔
      from_utf8 captured = none ∨ (from_utf8 captured).bind reparse = some index_ts := by
  simp only [check_test_summary, Option.bind_some]
  cases htext : from_utf8 captured with
  | none => simp
  | some text =>
    simp only [Option.bind_some]
    cases hparsed : reparse text with
    | none => simp
    | some parsed =>
      rw [mismatches_eq_nil_iff]
      simp [eq_comm]

omit [SerdeJson] in
theorem exists_summary_ne (s : TestSummary) : ∃ s' : TestSummary, s' ≠ s := by
  refine ⟨{ s with total := s.total + 1 }, fun h => ?_⟩
  have htotal : s.total + 1 = s.total := congrArg TestSummary.total h
  have hnat := congrArg UInt32.toNat htotal
  rw [UInt32.toNat_add] at hnat
  have hlt := s.total.toNat_lt
  simp at hnat
  omega

end Summaries

/-! ## A build that failed, and a byte that is no text -/

section Witness

/-- No line of the two streams below is JSON. -/
local instance no_json : SerdeJson where
  from_str _ := none

/-- The summary of no events. -/
def empty_summary : TestSummary where
  total := 0
  passed := 0
  failed := 0
  ignored := 0
  filtered_out := 0

end Witness

end Evidence.Verify
