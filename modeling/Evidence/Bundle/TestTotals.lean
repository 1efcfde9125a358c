/-
`bundle/test_summary.rs` -- the totals of a captured test run against the numbers
its result lines write.

Every result line writes a number behind each of four labels. What a reader of the
summary expects is their sum, or the largest `u32` where the sum is larger. The
parser reads each number as a `u64` and skips one that is larger; it adds without a
check and keeps the low 32 bits of each sum. The summary is the expected one as
long as each sum, and the sum of the four, is below `2 ^ 32`. Beyond that it is so
by accident only, where the low 32 bits of what the parser has added are all set.
-/
import Evidence.Bundle.TestSummary
import Evidence.Lib.Counter

set_option autoImplicit false

namespace Evidence.Bundle

open Segments

/-- Parse cargo test result lines into an accumulated `TestSummary`. -/
def parse_cargo_test_output (output : String) : Option TestSummary :=
  (parse_cargo_test_output_with_outcomes output).map Prod.fst

/-- The verdict stored with a summary: a run without a failed test passed. -/
def tests_passed (test_summary : Option TestSummary) : Option Bool :=
  test_summary.map fun s => s.failed == 0

/-! ## What the text reports -/

inductive CountLabel where
  | Passed
  | Failed
  | Ignored
  | FilteredOut
deriving DecidableEq

/-- A label as result lines write it. -/
def CountLabel.text : CountLabel → List Char
  | .Passed => "passed".toList
  | .Failed => "failed".toList
  | .Ignored => "ignored".toList
  | .FilteredOut => "filtered out".toList

/-- All four labels. -/
def CountLabel.all : List CountLabel := [.Passed, .Failed, .Ignored, .FilteredOut]

/-- The number a decimal text denotes, however large. -/
def written_number (text : List Char) : Option ℕ :=
  let digits := if text.head? = some '+' then text.tail else text
  if digits.isEmpty || !digits.all Char.isDigit then none
  else some (Nat.ofDigitChars 10 digits 0)

/-- The number and the label of a segment `N label`. -/
def read_segment (segment : List Char) : Option (ℕ × List Char) := do
  let (number, label) ← split_once [' '] ((trim_chars segment).rdropWhile (· == ';'))
  let n ← written_number number
  pure (n, trim_chars label)

/-- The number a segment writes behind a label, zero if it writes none. -/
def reported (label : CountLabel) (segment : List Char) : ℕ :=
  match read_segment segment with
  | some (n, text) => if text = label.text then n else 0
  | none => 0

/-- The number a segment writes behind a label, if it is a `u64`. -/
def reported_u64 (label : CountLabel) (segment : List Char) : ℕ :=
  if reported label segment < 2 ^ 64 then reported label segment else 0

def result_segments (line : List Char) : Option (List (List Char)) :=
  ((strip_text "test result: ok. ".toList line).orElse fun _ =>
    strip_text "test result: FAILED. ".toList line).map (List.splitOn ';')

/-- The trimmed lines of a captured text. -/
def trimmed_lines (output : String) : List (List Char) :=
  (lines (replace_crlf output.toList)).map trim_chars

/-- The number a line reports under a label. -/
def line_reports (label : CountLabel) (line : List Char) : ℕ :=
  (((result_segments line).getD []).map (reported label)).sum

/-- The part of it written in numbers that are `u64`s. -/
def line_reports_u64 (label : CountLabel) (line : List Char) : ℕ :=
  (((result_segments line).getD []).map (reported_u64 label)).sum

/-- The number the whole text reports under a label. -/
def output_reports (output : String) (label : CountLabel) : ℕ :=
  ((trimmed_lines output).map (line_reports label)).sum

/-- The part of it written in numbers that are `u64`s. -/
def output_reports_u64 (output : String) (label : CountLabel) : ℕ :=
  ((trimmed_lines output).map (line_reports_u64 label)).sum

/-- The number the whole text reports under the four labels together. -/
def output_reports_all (output : String) : ℕ :=
  (CountLabel.all.map (output_reports output)).sum

/-- The part of it written in numbers that are `u64`s. -/
def output_reports_u64_all (output : String) : ℕ :=
  (CountLabel.all.map (output_reports_u64 output)).sum

/-! ## The counters of the scan -/

def Scan.counter (label : CountLabel) (s : Scan) : UInt64 :=
  match label with
  | .Passed => s.total_passed
  | .Failed => s.total_failed
  | .Ignored => s.total_ignored
  | .FilteredOut => s.total_filtered_out

def TestSummary.count (summary : TestSummary) : CountLabel → UInt32
  | .Passed => summary.passed
  | .Failed => summary.failed
  | .Ignored => summary.ignored
  | .FilteredOut => summary.filtered_out

/-- An addition of the scan of a text passes the largest `u64`: on the way through
some line, a counter and the number added to it are `2 ^ 64` or more. -/
def totals_overflow (output : String) : Prop :=
  ∃ label before line after, trimmed_lines output = before ++ line :: after ∧
    Counter.Overflows Scan.segment (fun s => (s.counter label).toNat) (reported_u64 label)
      (2 ^ 64)
      (before.foldl (Scan.line (harvest_binaries (trimmed_lines output))) Scan.start)
      ((result_segments line).getD [])

/-- **Test totals never hide a failure**: nothing overflows, each count of the
summary is what the text reports under its label and the total what it reports in
all, cut off at the largest `u32`, and a run counts as passed only if every line
reports no failed test. -/
structure TotalsFaithful (output : String) : Prop where
  exact : ¬ totals_overflow output
  counts : ∀ summary, parse_cargo_test_output output = some summary → ∀ label,
    (summary.count label).toNat = min (output_reports output label) (2 ^ 32 - 1)
  total : ∀ summary, parse_cargo_test_output output = some summary →
    summary.total.toNat = min (output_reports_all output) (2 ^ 32 - 1)
  failures : tests_passed (parse_cargo_test_output output) = some true →
    ∀ line ∈ trimmed_lines output, line_reports .Failed line = 0

/-! ## One segment and one line -/

theorem parse_u64_eq (text : List Char) :
    parse_u64 text =
      (written_number text).bind fun n =>
        if n < 2 ^ 64 then some (UInt64.ofNat n) else none := by
  rw [parse_u64, written_number]
  simp only
  generalize (if text.head? = some '+' then text.tail else text) = digits
  by_cases hdigits : (digits.isEmpty || !digits.all Char.isDigit) = true
  · simp only [if_pos hdigits, Option.bind_none]
  · simp only [if_neg hdigits, Option.bind_some]

theorem Scan.counter_count (s : Scan) (n : UInt64) (text : List Char) (label : CountLabel) :
    (s.count n text).counter label =
      if text = label.text then s.counter label + n else s.counter label := by
  by_cases htext : text = label.text
  · have htexts : "failed".toList ≠ "passed".toList ∧ "ignored".toList ≠ "passed".toList ∧
        "ignored".toList ≠ "failed".toList ∧ "filtered out".toList ≠ "passed".toList ∧
        "filtered out".toList ≠ "failed".toList ∧ "filtered out".toList ≠ "ignored".toList := by
      decide
    obtain ⟨hfp, hip, hif, hop, hof, hoi⟩ := htexts
    simp only [if_pos htext, Scan.count]
    cases label with
    | Passed =>
      have heq : text = "passed".toList := htext
      simp only [if_pos heq]
      rfl
    | Failed =>
      have heq : text = "failed".toList := htext
      rw [heq, if_neg hfp, if_pos rfl]
      rfl
    | Ignored =>
      have heq : text = "ignored".toList := htext
      rw [heq, if_neg hip, if_neg hif, if_pos rfl]
      rfl
    | FilteredOut =>
      have heq : text = "filtered out".toList := htext
      rw [heq, if_neg hop, if_neg hof, if_neg hoi, if_pos rfl]
      rfl
  · simp only [if_neg htext, Scan.count]
    cases label with
    | Passed =>
      have hne : text ≠ "passed".toList := htext
      simp only [if_neg hne]
      split_ifs <;> rfl
    | Failed =>
      have hne : text ≠ "failed".toList := htext
      simp only [if_neg hne]
      split_ifs <;> rfl
    | Ignored =>
      have hne : text ≠ "ignored".toList := htext
      simp only [if_neg hne]
      split_ifs <;> rfl
    | FilteredOut =>
      have hne : text ≠ "filtered out".toList := htext
      simp only [if_neg hne]
      split_ifs <;> rfl

/-- A segment is read as the number and the label it writes, if the number is a
`u64`. -/
theorem Scan.segment_eq (s : Scan) (segment : List Char) :
    s.segment segment =
      match read_segment segment with
      | some (n, text) => if n < 2 ^ 64 then s.count (UInt64.ofNat n) text else s
      | none => s := by
  unfold Scan.segment read_segment
  simp only
  rcases hsplit : split_once [' '] ((trim_chars segment).rdropWhile (· == ';')) with
    _ | ⟨number, text⟩
  · rfl
  · simp only [parse_u64_eq, Option.bind_eq_bind, Option.bind_some]
    rcases hnumber : written_number number with _ | n
    · rfl
    · by_cases hn : n < 2 ^ 64
      · simp only [Option.bind_some, if_pos hn, Option.pure_def]
      · simp only [Option.bind_some, if_neg hn, Option.pure_def]

/-- **A segment adds what it reports** to each counter, modulo `2 ^ 64`. -/
theorem Scan.toNat_counter_segment (s : Scan) (segment : List Char) (label : CountLabel) :
    ((s.segment segment).counter label).toNat =
      ((s.counter label).toNat + reported_u64 label segment) % 2 ^ 64 := by
  have hlt : (s.counter label).toNat < 2 ^ 64 := (s.counter label).toNat_lt
  rw [s.segment_eq]
  unfold reported_u64 reported
  rcases read_segment segment with _ | ⟨n, text⟩
  · simp only [ite_self]
    omega
  · simp only
    by_cases hn : n < 2 ^ 64
    · rw [if_pos hn, s.counter_count]
      by_cases htext : text = label.text
      · rw [if_pos htext, if_pos htext, if_pos hn, UInt64.toNat_add,
          UInt64.toNat_ofNat_of_lt' hn]
      · rw [if_neg htext, if_neg htext, ite_self]
        omega
    · rw [if_neg hn]
      by_cases htext : text = label.text
      · rw [if_pos htext, if_neg hn]
        omega
      · rw [if_neg htext, ite_self]
        omega

theorem result_segments_eq_none {line : List Char}
    (h : ("test result:".toList.isPrefixOf line) = false) : result_segments line = none := by
  have hnone {status : List Char} : strip_text ("test result:".toList ++ status) line = none := by
    rw [strip_text, if_neg]
    intro hprefix
    obtain ⟨rest, hrest⟩ := List.isPrefixOf_iff_prefix.mp hprefix
    have hopens : "test result:".toList.isPrefixOf line = true := by
      rw [List.isPrefixOf_iff_prefix, ← hrest, List.append_assoc]
      exact List.prefix_append _ _
    rw [h] at hopens
    exact absurd hopens Bool.false_ne_true
  unfold result_segments
  rw [show "test result: ok. ".toList = "test result:".toList ++ " ok. ".toList by simp, hnone,
    show "test result: FAILED. ".toList = "test result:".toList ++ " FAILED. ".toList by simp,
    Option.orElse_none, hnone, Option.map_none]

theorem not_result_of_head {text line : List Char} (htext : text.head? ≠ some 't')
    (hne : text ≠ []) (h : text.isPrefixOf line = true) :
    ("test result:".toList.isPrefixOf line) = false := by
  obtain ⟨rest, rfl⟩ := List.isPrefixOf_iff_prefix.mp h
  rcases text with _ | ⟨c, text⟩
  · exact absurd rfl hne
  · have hc : c ≠ 't' := fun heq => htext (by rw [heq]; rfl)
    rw [List.cons_append, show "test result:".toList = 't' :: "est result:".toList by simp,
      List.isPrefixOf_cons_cons, beq_eq_false_iff_ne.mpr (Ne.symm hc), Bool.false_and]

theorem Scan.toNat_counter_segments (s : Scan) (segments : List (List Char))
    (label : CountLabel) :
    ((segments.foldl Scan.segment s).counter label).toNat =
      ((s.counter label).toNat + (segments.map (reported_u64 label)).sum) % 2 ^ 64 :=
  Counter.count_foldl (fun s => (s.counter label).toNat)
    (fun s segment => s.toNat_counter_segment segment label) s (s.counter label).toNat_lt segments

/-- **A line adds what it reports** to each counter, modulo `2 ^ 64`; a result line has
been found after it if there was one before or the line is one. -/
theorem Scan.line_counters (binaries : List (List Char)) (s : Scan) (line : List Char) :
    (∀ label, ((s.line binaries line).counter label).toNat =
        ((s.counter label).toNat + line_reports_u64 label line) % 2 ^ 64) ∧
      (s.line binaries line).found = (s.found || (result_segments line).isSome) := by
  by_cases hresult : "test result:".toList.isPrefixOf line = true
  · have hheader : ("Running ".toList.isPrefixOf line) = false := by
      by_contra h
      have := not_result_of_head (by decide) (by decide) (Bool.not_eq_false _ ▸ h)
      rw [hresult] at this
      exact absurd this (by decide)
    have hmarker : is_marker line = false := by
      by_contra h
      rw [Bool.not_eq_false, is_marker, Bool.and_eq_true] at h
      have := not_result_of_head (by decide) (by decide) h.1
      rw [hresult] at this
      exact absurd this (by decide)
    rw [Scan.line, hmarker, hheader, hresult, if_neg Bool.false_ne_true,
      if_neg Bool.false_ne_true, if_pos rfl]
    unfold line_reports_u64 result_segments
    rcases (strip_text "test result: ok. ".toList line).orElse fun _ =>
      strip_text "test result: FAILED. ".toList line with _ | after_prefix
    · refine ⟨fun label => ?_, ?_⟩
      · have hlt := (s.counter label).toNat_lt
        simp only [Option.map_none, Option.getD_none, List.map_nil, List.sum_nil]
        omega
      · simp only [Option.map_none, Option.isSome_none, Bool.or_false]
    · refine ⟨fun label => ?_, ?_⟩
      · simp only [Option.map_some, Option.getD_some]
        exact Scan.toNat_counter_segments _ _ label
      · simp only [Option.map_some, Option.isSome_some, Bool.or_true]
        exact (Scan.segments_frame _ _).2.2
  · -- whatever else the line is, it moves no counter
    have hresult := Bool.not_eq_true _ ▸ hresult
    have hframe : (∀ label, (s.line binaries line).counter label = s.counter label) ∧
        (s.line binaries line).found = s.found := by
      unfold Scan.line
      simp only [hresult, Bool.false_eq_true, if_false]
      split_ifs
      · exact ⟨fun label => by cases label <;> rfl, rfl⟩
      · exact ⟨fun _ => rfl, rfl⟩
      · split
        · exact ⟨fun _ => rfl, rfl⟩
        · split
          · exact ⟨fun _ => rfl, rfl⟩
          · split
            · exact ⟨fun _ => rfl, rfl⟩
            · exact ⟨fun label => by cases label <;> rfl, rfl⟩
    refine ⟨fun label => ?_, ?_⟩
    · have hlt := (s.counter label).toNat_lt
      rw [hframe.1, line_reports_u64, result_segments_eq_none hresult, Option.getD_none,
        List.map_nil, List.sum_nil]
      omega
    · rw [hframe.2, result_segments_eq_none hresult, Option.isSome_none, Bool.or_false]

/-! ## The whole scan -/

/-- The state at the end of a text. -/
def scan_output (output : String) : Scan :=
  (trimmed_lines output).foldl (Scan.line (harvest_binaries (trimmed_lines output))) Scan.start

theorem toNat_counter_start (label : CountLabel) : (Scan.start.counter label).toNat = 0 := by
  cases label <;> rfl

/-- **The counters at the end of a text** hold what its result lines report in numbers
that are `u64`s, modulo `2 ^ 64`. -/
theorem toNat_counter_scan_output (output : String) (label : CountLabel) :
    ((scan_output output).counter label).toNat = output_reports_u64 output label % 2 ^ 64 := by
  have hrun := Counter.count_foldl (fun s => (s.counter label).toNat)
    (fun s line => (s.line_counters (harvest_binaries (trimmed_lines output)) line).1 label)
    Scan.start (Scan.start.counter label).toNat_lt (trimmed_lines output)
  rw [toNat_counter_start, Nat.zero_add] at hrun
  exact hrun

theorem found_scan_output (output : String) :
    (scan_output output).found =
      (trimmed_lines output).any fun l => (result_segments l).isSome := by
  have hrun (binaries : List (List Char)) (s : Scan) (ls : List (List Char)) :
      (ls.foldl (Scan.line binaries) s).found =
        (s.found || ls.any fun l => (result_segments l).isSome) := by
    induction ls generalizing s with
    | nil => rw [List.foldl_nil, List.any_nil, Bool.or_false]
    | cons line ls ih =>
      rw [List.foldl_cons, ih, (s.line_counters binaries line).2, List.any_cons, Bool.or_assoc]
  exact (hrun _ Scan.start _).trans (Bool.false_or _)

/-- **No addition passes the largest `u64` exactly if the sums stay below it.** -/
theorem totals_overflow_iff (output : String) :
    totals_overflow output ↔ ∃ label, 2 ^ 64 ≤ output_reports_u64 output label := by
  unfold totals_overflow
  refine exists_congr fun label => ?_
  have houter := Counter.overflows_iff (fun s => (s.counter label).toNat)
    (fun s line => (s.line_counters (harvest_binaries (trimmed_lines output)) line).1 label)
    Scan.start (Scan.start.counter label).toNat_lt (trimmed_lines output)
  rw [toNat_counter_start, Nat.zero_add] at houter
  refine Iff.trans ?_ houter
  -- on the way through a line the counter overflows if the line's numbers are too large for it
  refine exists_congr fun before => exists_congr fun line => exists_congr fun after =>
    and_congr_right fun _ => ?_
  exact Counter.overflows_iff (fun s : Scan => (s.counter label).toNat)
    (fun s segment => s.toNat_counter_segment segment label) _ (Scan.counter label _).toNat_lt _

/-! ## The sums -/

/-- What is written in numbers that are `u64`s is part of what is written. -/
theorem output_reports_u64_le (output : String) (label : CountLabel) :
    output_reports_u64 output label ≤ output_reports output label := by
  refine Counter.sum_le (fun line => Counter.sum_le (fun segment => ?_) _) _
  unfold reported_u64
  split_ifs <;> omega

theorem output_reports_u64_eq {output : String} {label : CountLabel}
    (h : output_reports output label < 2 ^ 64) :
    output_reports_u64 output label = output_reports output label :=
  Counter.sum_eq (fun _ hline => Counter.sum_eq (fun _ hsegment => if_pos hsegment) hline) h

theorem sum_labels (f : CountLabel → ℕ) :
    (CountLabel.all.map f).sum = f .Passed + f .Failed + f .Ignored + f .FilteredOut := by
  simp only [CountLabel.all, List.map_cons, List.map_nil, List.sum_cons, List.sum_nil]
  omega

/-- A text without a result line reports nothing. -/
theorem output_reports_eq_zero {output : String} (h : (scan_output output).found = false)
    (label : CountLabel) : output_reports output label = 0 := by
  rw [found_scan_output, List.any_eq_false] at h
  refine List.sum_eq_zero fun n hn => ?_
  obtain ⟨line, hline, rfl⟩ := List.mem_map.mp hn
  have hnone := h line hline
  rw [Option.not_isSome_iff_eq_none] at hnone
  rw [line_reports, hnone]
  rfl

/-- A saturating sum is the sum, cut off at the largest `u64`. -/
theorem toNat_saturating_add_min (a b : UInt64) :
    (saturating_add a b).toNat = min (a.toNat + b.toNat) (2 ^ 64 - 1) := by
  unfold saturating_add
  by_cases h : a.toNat + b.toNat < 2 ^ 64
  · rw [if_pos h, UInt64.toNat_add, Nat.mod_eq_of_lt h]
    omega
  · rw [if_neg h, UInt64.toNat_ofNat_of_lt' (by decide)]
    omega

/-! ## The summary -/

/-- The summary a state is turned into: the low 32 bits of each counter and of their
saturating sum. -/
def Scan.summary (s : Scan) : TestSummary where
  total := (saturating_add (saturating_add (saturating_add s.total_passed s.total_failed)
    s.total_ignored) s.total_filtered_out).toUInt32
  passed := s.total_passed.toUInt32
  failed := s.total_failed.toUInt32
  ignored := s.total_ignored.toUInt32
  filtered_out := s.total_filtered_out.toUInt32

/-- A text has a summary exactly if it has a result line. -/
theorem parse_cargo_test_output_eq (output : String) :
    parse_cargo_test_output output =
      if (scan_output output).found then some (scan_output output).summary else none := by
  unfold parse_cargo_test_output parse_cargo_test_output_with_outcomes
  simp only [apply_ite (Option.map Prod.fst), Option.map_some, Option.map_none]
  rfl

/-- **The counts of the summary.** -/
theorem toNat_summary_count (output : String) (label : CountLabel) :
    ((scan_output output).summary.count label).toNat =
      output_reports_u64 output label % 2 ^ 64 % 2 ^ 32 := by
  rw [← toNat_counter_scan_output]
  cases label <;> exact UInt64.toNat_toUInt32 _

/-- **The total of the summary.** -/
theorem toNat_summary_total (output : String) :
    (scan_output output).summary.total.toNat =
      min ((CountLabel.all.map fun label => output_reports_u64 output label % 2 ^ 64).sum)
        (2 ^ 64 - 1) % 2 ^ 32 := by
  rw [sum_labels, ← toNat_counter_scan_output, ← toNat_counter_scan_output,
    ← toNat_counter_scan_output, ← toNat_counter_scan_output]
  simp only [Scan.summary, Scan.counter, UInt64.toNat_toUInt32, toNat_saturating_add_min]
  have hmin (a b c d m : ℕ) : min (min (min (a + b) m + c) m + d) m = min (a + b + c + d) m := by
    omega
  rw [hmin]

/-! ## When the totals are faithful -/

/-- The sums fit: each label's numbers sum to less than `2 ^ 32`, and so do all four
labels' together; or they do not and what the parser adds has all of its low 32 bits
set. -/
def TotalsFit (output : String) : Prop :=
  (∀ label, output_reports output label < 2 ^ 32 ∨
    output_reports_u64 output label < 2 ^ 64 ∧
      output_reports_u64 output label % 2 ^ 32 = 2 ^ 32 - 1) ∧
  (output_reports_all output < 2 ^ 32 ∨
    min (output_reports_u64_all output) (2 ^ 64 - 1) % 2 ^ 32 = 2 ^ 32 - 1)

/-- A text that reports a failed test anywhere reports it in the sum. -/
theorem line_reports_le (output : String) (label : CountLabel) {line : List Char}
    (hline : line ∈ trimmed_lines output) :
    line_reports label line ≤ output_reports output label :=
  List.single_le_sum (fun _ _ => Nat.zero_le _) _ (List.mem_map_of_mem hline)

theorem output_reports_le_all (output : String) (label : CountLabel) :
    output_reports output label ≤ output_reports_all output := by
  rw [output_reports_all, sum_labels]
  cases label <;> omega

/-- Below `2 ^ 64` all labels' numbers are what the parser adds. -/
theorem output_reports_u64_all_eq {output : String} (h : output_reports_all output < 2 ^ 64) :
    output_reports_u64_all output = output_reports_all output := by
  refine congrArg List.sum (List.map_congr_left fun label _ => output_reports_u64_eq ?_)
  exact lt_of_le_of_lt (output_reports_le_all output label) h

theorem sum_mod_eq {output : String} (h : ∀ label, output_reports_u64 output label < 2 ^ 64) :
    (CountLabel.all.map fun label => output_reports_u64 output label % 2 ^ 64).sum =
      output_reports_u64_all output :=
  congrArg List.sum (List.map_congr_left fun label _ => Nat.mod_eq_of_lt (h label))

/-- Without a result line there is no summary, and nothing is reported. -/
theorem totals_of_not_found {output : String} (hfound : (scan_output output).found = false) :
    TotalsFaithful output ∧ TotalsFit output := by
  have hparse : parse_cargo_test_output output = none := by
    rw [parse_cargo_test_output_eq, hfound]
    rfl
  have hzero := output_reports_eq_zero hfound
  have hall : output_reports_all output = 0 := by
    rw [output_reports_all, sum_labels, hzero, hzero, hzero, hzero]
  refine ⟨⟨?_, ?_, ?_, ?_⟩, fun label => .inl ?_, .inl ?_⟩
  · rw [totals_overflow_iff]
    rintro ⟨label, hlarge⟩
    have hl := output_reports_u64_le output label
    rw [hzero] at hl
    omega
  · intro summary hsummary
    rw [hparse] at hsummary
    cases hsummary
  · intro summary hsummary
    rw [hparse] at hsummary
    cases hsummary
  · intro hpassed
    rw [hparse] at hpassed
    cases hpassed
  · rw [hzero]
    omega
  · rw [hall]
    omega

theorem TotalsFit.output_reports_u64_lt {output : String} (h : TotalsFit output)
    (label : CountLabel) : output_reports_u64 output label < 2 ^ 64 := by
  have hle := output_reports_u64_le output label
  rcases h.1 label with hfits | hset
  · omega
  · exact hset.1

/-- **Where the sums fit** every label of the summary has its sum, cut off. -/
theorem TotalsFit.counts {output : String} (h : TotalsFit output) (label : CountLabel) :
    ((scan_output output).summary.count label).toNat =
      min (output_reports output label) (2 ^ 32 - 1) := by
  rw [toNat_summary_count, Nat.mod_eq_of_lt (h.output_reports_u64_lt label)]
  rcases h.1 label with hfits | hset
  · rw [output_reports_u64_eq (by omega)]
    omega
  · have hle := output_reports_u64_le output label
    omega

/-- **When the totals are faithful**: exactly if the sums fit. -/
theorem totals_faithful_iff (output : String) : TotalsFaithful output ↔ TotalsFit output := by
  by_cases hfound : (scan_output output).found = true
  · have hparse : parse_cargo_test_output output = some (scan_output output).summary := by
      rw [parse_cargo_test_output_eq, if_pos hfound]
    constructor
    · rintro ⟨hexact, hcounts, htotal, -⟩
      have hsmall (label : CountLabel) : output_reports_u64 output label < 2 ^ 64 := by
        by_contra hlarge
        exact hexact ((totals_overflow_iff output).mpr ⟨label, by omega⟩)
      refine ⟨fun label => ?_, ?_⟩
      · have hcount := hcounts _ hparse label
        rw [toNat_summary_count, Nat.mod_eq_of_lt (hsmall label)] at hcount
        have hl := output_reports_u64_le output label
        by_cases hfits : output_reports output label < 2 ^ 32
        · exact .inl hfits
        · refine .inr ⟨hsmall label, ?_⟩
          omega
      · have hcount := htotal _ hparse
        rw [toNat_summary_total, sum_mod_eq hsmall] at hcount
        by_cases hfits : output_reports_all output < 2 ^ 32
        · exact .inl hfits
        · refine .inr ?_
          omega
    · intro hfit
      refine ⟨?_, ?_, ?_, ?_⟩
      · rw [totals_overflow_iff]
        rintro ⟨label, hlarge⟩
        exact absurd (hfit.output_reports_u64_lt label) (by omega)
      · intro summary hsummary label
        rw [hparse, Option.some.injEq] at hsummary
        rw [← hsummary]
        exact hfit.counts label
      · intro summary hsummary
        rw [hparse, Option.some.injEq] at hsummary
        rw [← hsummary, toNat_summary_total, sum_mod_eq hfit.output_reports_u64_lt]
        by_cases hfits : output_reports_all output < 2 ^ 32
        · rw [output_reports_u64_all_eq (by omega)]
          omega
        · rw [hfit.2.resolve_left hfits]
          omega
      · intro hpassed line hline
        rw [hparse, tests_passed, Option.map_some, Option.some.injEq, beq_iff_eq] at hpassed
        have hfailed := hfit.counts .Failed
        rw [TestSummary.count, hpassed, UInt32.toNat_zero] at hfailed
        have hreports := line_reports_le output .Failed hline
        omega
  · obtain ⟨hfaithful, hfit⟩ := totals_of_not_found (Bool.eq_false_of_not_eq_true hfound)
    exact iff_of_true hfaithful hfit

/-- A run that reports `2 ^ 32` failed tests: its summary counts none of them, and the
run passes for one without a failed test. -/
theorem totals_faithful_fails :
    ¬ TotalsFaithful ("test result: FAILED. 0 passed; 4294967296 failed; 0 ignored; " ++
      "0 measured; 0 filtered out; finished in 0.00s") := by
  intro hfaithful
  have hpassed : tests_passed (parse_cargo_test_output
      ("test result: FAILED. 0 passed; 4294967296 failed; 0 ignored; " ++
        "0 measured; 0 filtered out; finished in 0.00s")) = some true := by
    decide +kernel
  have hreported : ∃ line ∈ trimmed_lines
      ("test result: FAILED. 0 passed; 4294967296 failed; 0 ignored; " ++
        "0 measured; 0 filtered out; finished in 0.00s"), line_reports .Failed line ≠ 0 := by
    decide +kernel
  obtain ⟨line, hline, hfailed⟩ := hreported
  exact hfailed (hfaithful.failures hpassed line hline)

end Evidence.Bundle
