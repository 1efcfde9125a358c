/-
The text libtest and cargo print for a run of test binaries, and what
`parse_cargo_test_output_with_outcomes` reads out of it.

A run is a list of binaries, each with its tests. Cargo prints one header per
binary on stderr, libtest prints the rest on stdout, and a caller captures the
two streams interleaved or one behind the other. The names are Rust's: no blank
in the path of a test, no slash or bracket in the name of a binary.

Pass 2 sees the tests of one binary between two markers, so the induction is on
the binaries, with the index of the next header as its invariant; within a
binary it is on the tests. What the scan ends in is then a fold over the tests
that were not lost, and the claim is a comparison of that fold with the run.
-/
import Evidence.Bundle.TestSummary

set_option autoImplicit false

namespace Evidence.Bundle

open Segments

/-! ## Runs -/

inductive Reported where
  | passed
  | failed
  | ignored (reason : Option String)
deriving DecidableEq

def Reported.outcome : Reported → TestOutcome
  | passed => .Passed
  | failed => .Failed
  | ignored _ => .Ignored

/-- A test of a binary: its path, its attributes and what became of it. -/
structure TestCase where
  name : String
  should_panic : Bool
  reported : Reported
  /-- A path has no blank, and a line has no line break. -/
  name_plain : ' ' ∉ name.toList ∧ '\n' ∉ name.toList
  reason_plain : ∀ reason, reported = .ignored (some reason) → '\n' ∉ reason.toList

structure TestBinary where
  name : String
  /-- What the header says is being run. -/
  described : String
  dir : String
  hash : String
  tests : List TestCase
  filtered_out : ℕ
  /-- The seconds the run took. -/
  duration : String
  name_ne : name.toList ≠ []
  name_plain : '/' ∉ name.toList ∧ '(' ∉ name.toList ∧ '\n' ∉ name.toList
  hash_plain : '/' ∉ hash.toList ∧ '(' ∉ hash.toList ∧ '-' ∉ hash.toList ∧ '\n' ∉ hash.toList
  header_plain : '\n' ∉ described.toList ∧ '\n' ∉ dir.toList
  duration_plain : ';' ∉ duration.toList ∧ '\n' ∉ duration.toList

/-- How the two streams were captured. -/
inductive StreamOrder where
  | Interleaved
  | Concatenated
deriving DecidableEq

/-! ## Their text -/

def Reported.tail : Reported → List Char
  | passed => "ok".toList
  | failed => "FAILED".toList
  | ignored none => "ignored".toList
  | ignored (some reason) => "ignored, ".toList ++ reason.toList

/-- What libtest appends to the name of a `should_panic` test. -/
def TestCase.suffix (t : TestCase) : List Char :=
  if t.should_panic then " - should panic".toList else []

def TestCase.line (t : TestCase) : List Char :=
  "test ".toList ++ (t.name.toList ++ (t.suffix ++ (" ... ".toList ++ t.reported.tail)))

def TestBinary.header (b : TestBinary) : List Char :=
  "     Running ".toList ++ (b.described.toList ++ (" (".toList ++ (b.dir.toList ++
    ('/' :: (b.name.toList ++ ('-' :: (b.hash.toList ++ [')'])))))))

def TestBinary.count (b : TestBinary) (o : TestOutcome) : ℕ :=
  b.tests.countP fun t => t.reported.outcome == o

/-- The line that opens a binary's tests. -/
def TestBinary.running_line (b : TestBinary) : List Char :=
  "running ".toList ++ ((decimal b.tests.length).toList ++
    ' ' :: (if b.tests.length = 1 then "test".toList else "tests".toList))

/-- A number with what it counts. -/
def labelled (n : ℕ) (label : String) : List Char := (decimal n).toList ++ ' ' :: label.toList

/-- The segments of the line that closes them. -/
def TestBinary.result_segments (b : TestBinary) : List (List Char) :=
  [labelled (b.count .Passed) "passed", ' ' :: labelled (b.count .Failed) "failed",
    ' ' :: labelled (b.count .Ignored) "ignored", ' ' :: labelled 0 "measured",
    ' ' :: labelled b.filtered_out "filtered out",
    " finished in ".toList ++ (b.duration.toList ++ ['s'])]

/-- The line that closes a binary's tests. -/
def TestBinary.result_line (b : TestBinary) : List Char :=
  "test result: ".toList ++ ((if b.count .Failed = 0 then "ok".toList else "FAILED".toList) ++
    (". ".toList ++ [';'].intercalate b.result_segments))

def TestBinary.stdout (b : TestBinary) : List (List Char) :=
  [] :: b.running_line :: (b.tests.map TestCase.line ++ [[], b.result_line, []])

def captured_lines (order : StreamOrder) (run : List TestBinary) : List (List Char) :=
  match order with
  | .Interleaved => run.flatMap fun b => b.header :: b.stdout
  | .Concatenated => run.flatMap TestBinary.stdout ++ run.map TestBinary.header

def captured_text (order : StreamOrder) (line_end : LineEnd) (run : List TestBinary) : String :=
  String.ofList (unlines line_end (captured_lines order run))

/-! ## What a run comes to -/

def run_entries (run : List TestBinary) : List (String × TestOutcome) :=
  run.flatMap fun b => b.tests.map fun t =>
    (b.name ++ "::" ++ t.name, t.reported.outcome)

def run_count (run : List TestBinary) (o : TestOutcome) : ℕ :=
  (run.map fun b => b.count o).sum

/-- The number of tests a filter left out. -/
def run_filtered (run : List TestBinary) : ℕ := (run.map TestBinary.filtered_out).sum

/-- The number of tests in all. -/
def run_total (run : List TestBinary) : ℕ :=
  run_count run .Passed + run_count run .Failed + run_count run .Ignored + run_filtered run

/-- A result is faithful to a run: one entry per test with its outcome, and the counts. -/
def Faithful (run : List TestBinary) (result : Option (TestSummary × Outcomes)) : Prop :=
  ∃ summary outcomes, result = some (summary, outcomes) ∧
    outcomes.values.Perm (run_entries run) ∧
    summary.total.toNat = run_total run ∧
    summary.passed.toNat = run_count run .Passed ∧
    summary.failed.toNat = run_count run .Failed ∧
    summary.ignored.toNat = run_count run .Ignored ∧
    summary.filtered_out.toNat = run_filtered run

/-- A test whose line is read as it is meant. -/
def TestCase.Ordinary (t : TestCase) : Prop :=
  t.should_panic = false ∧ (∀ reason, t.reported ≠ .ignored (some reason)) ∧
    "result:".toList.isPrefixOf t.name.toList = false

/-! ## The lines as they are read -/

/-- The outcome a tail is read as. -/
def Reported.announced : Reported → Option TestOutcome
  | ignored (some _) => none
  | reported => some reported.outcome

/-- The entry a test is filed under, if it is. -/
def TestCase.filed (bin : List Char) (t : TestCase) : Option (String × TestOutcome) :=
  if "result:".toList.isPrefixOf t.name.toList then none
  else t.reported.announced.map fun o => (outcome_key bin (t.name.toList ++ t.suffix), o)

theorem TestCase.suffix_cases (t : TestCase) :
    t.suffix = [] ∨ t.suffix = " - should panic".toList := by
  unfold TestCase.suffix
  split
  · exact .inr rfl
  · exact .inl rfl

theorem TestCase.trim_line (t : TestCase) :
    ∃ tail, trim_chars t.line =
        "test ".toList ++ (t.name.toList ++ (t.suffix ++ (" ... ".toList ++ tail))) ∧
      outcome_of_tail tail = t.reported.announced := by
  unfold TestCase.line
  have hkept (tail : List Char) (last : Char) (hlast : tail.getLast? = some last)
      (hword : is_whitespace last = false) :
      trim_chars ("test ".toList ++ (t.name.toList ++ (t.suffix ++ (" ... ".toList ++ tail)))) =
        "test ".toList ++ (t.name.toList ++ (t.suffix ++ (" ... ".toList ++ tail))) := by
    have hend : ("test ".toList ++ (t.name.toList ++ (t.suffix ++
        (" ... ".toList ++ tail)))).getLast? = some last := by
      simp only [List.getLast?_append, hlast, Option.some_or]
    exact strip_framed rfl hend (by decide : is_whitespace 't' = false) hword
  rcases t.reported with _ | _ | _ | reason
  · exact ⟨_, hkept _ 'k' (by decide) (by decide), outcome_of_tail_ok⟩
  · exact ⟨_, hkept _ 'D' (by decide) (by decide), outcome_of_tail_failed⟩
  · exact ⟨_, hkept _ 'd' (by decide) (by decide), outcome_of_tail_ignored⟩
  · refine ⟨"ignored,".toList ++ (' ' :: reason.toList).rdropWhile is_whitespace, ?_,
      outcome_of_tail_reason _⟩
    have hcut := @strip_between _ is_whitespace 't' ',' (by decide) (by decide)
      ("est ".toList ++ (t.name.toList ++ (t.suffix ++ " ... ignored".toList)))
      (' ' :: reason.toList)
    unfold Reported.tail
    simpa [trim_chars] using hcut

theorem TestBinary.trim_header (b : TestBinary) :
    trim_chars b.header =
      "Running ".toList ++ (b.described.toList ++ (" (".toList ++ (b.dir.toList ++
        ('/' :: (b.name.toList ++ ('-' :: (b.hash.toList ++ [')']))))))) := by
  have hlead : "     Running ".toList = "     ".toList ++ "Running ".toList := by simp
  unfold TestBinary.header trim_chars
  rw [hlead, List.append_assoc, strip_append_left (by decide)]
  refine strip_framed (a := 'R') (b := ')') ?_ ?_ (by decide) (by decide)
  · rfl
  · simp only [List.getLast?_append, List.getLast?_cons, List.getLast?_nil, Option.getD_some,
      Option.getD_none, Option.some_or]

theorem TestBinary.trim_running_line (b : TestBinary) :
    trim_chars b.running_line = b.running_line := by
  unfold TestBinary.running_line trim_chars
  have hlast : ∃ last, (if b.tests.length = 1 then "test".toList else "tests".toList).getLast? =
      some last ∧ is_whitespace last = false := by
    split
    · exact ⟨'t', by decide, by decide⟩
    · exact ⟨'s', by decide, by decide⟩
  obtain ⟨last, hlast, hword⟩ := hlast
  refine strip_framed (a := 'r') (b := last) ?_ ?_ (by decide) hword
  · rfl
  · rw [List.getLast?_append, List.getLast?_append, List.getLast?_cons, hlast]
    rfl

theorem TestBinary.trim_result_line (b : TestBinary) :
    trim_chars b.result_line = b.result_line := by
  have hlast : ([';'].intercalate b.result_segments).getLast? = some 's' := by
    unfold TestBinary.result_segments
    simp only [List.intercalate_cons_cons, List.intercalate_singleton, List.getLast?_append,
      List.getLast?_singleton, Option.some_or]
  unfold TestBinary.result_line trim_chars
  refine strip_framed (a := 't') (b := 's') ?_ ?_ (by decide) (by decide)
  · rfl
  · simp only [List.getLast?_append, hlast, Option.some_or]

/-- **The binary's name is read out of its header**, whatever stands in front of it. -/
theorem TestBinary.extract_header (b : TestBinary) :
    extract_binary_name (trim_chars b.header) = some b.name.toList := by
  obtain ⟨hslash, hparen, -⟩ := b.name_plain
  obtain ⟨hslash', hparen', hdash, -⟩ := b.hash_plain
  -- the bracket that opens the path may be one of the directory's
  have hmem : '(' ∈ "Running ".toList ++ (b.described.toList ++ (" (".toList ++ b.dir.toList)) := by
    simp
  obtain ⟨before, after, hfront, hafter⟩ := exists_last_split hmem
  have hpath : trim_chars b.header =
      (before ++ '(' :: (after ++ '/' :: (b.name.toList ++ '-' :: b.hash.toList))) ++ [')'] := by
    have happend := congrArg (· ++ '/' :: (b.name.toList ++ '-' :: b.hash.toList) ++ [')']) hfront
    rw [b.trim_header]
    simpa only [List.append_assoc, List.cons_append, List.nil_append] using happend
  have hopening : rfind '(' (trim_chars b.header) = some before.length := by
    have hnone : '(' ∉ after ++ '/' :: (b.name.toList ++ '-' :: b.hash.toList) ++ [')'] := by
      simp [hafter, hparen, hparen']
    rw [hpath, List.append_assoc, List.cons_append]
    exact lastIndex_append_cons hnone before
  have hclosing : rfind ')' (trim_chars b.header) =
      some (before ++ '(' :: (after ++ '/' :: (b.name.toList ++ '-' :: b.hash.toList))).length := by
    rw [hpath]
    exact lastIndex_append_cons List.not_mem_nil _
  have hcut : rfind '-' (b.name.toList ++ '-' :: b.hash.toList) = some b.name.toList.length :=
    lastIndex_append_cons hdash _
  have hbase : ((after ++ '/' :: (b.name.toList ++ '-' :: b.hash.toList)).splitOn '/').getLast? =
      some (b.name.toList ++ '-' :: b.hash.toList) := by
    have hnone : '/' ∉ b.name.toList ++ '-' :: b.hash.toList := by simp [hslash, hslash']
    rw [List.splitOn_append_cons_self, List.splitOn_eq_singleton hnone, List.getLast?_append,
      List.getLast?_singleton, Option.some_or]
  have htake : (trim_chars b.header).take
      (before ++ '(' :: (after ++ '/' :: (b.name.toList ++ '-' :: b.hash.toList))).length =
        before ++ '(' :: (after ++ '/' :: (b.name.toList ++ '-' :: b.hash.toList)) := by
    rw [hpath, List.take_left]
  have hdrop : (before ++ '(' :: (after ++ '/' :: (b.name.toList ++ '-' :: b.hash.toList))).drop
      (before.length + 1) = after ++ '/' :: (b.name.toList ++ '-' :: b.hash.toList) := by
    rw [List.append_cons, List.drop_left' (by rw [List.length_append, List.length_singleton])]
  have hlong : ¬ (before ++ '(' :: (after ++ '/' :: (b.name.toList ++ '-' ::
      b.hash.toList))).length ≤ before.length + 1 := by
    simp only [List.length_append, List.length_cons]
    omega
  have hname : b.name.toList.isEmpty = false := List.isEmpty_eq_false_iff.mpr b.name_ne
  unfold extract_binary_name
  simp only [hopening, hclosing, Option.bind_eq_bind, Option.bind_some, if_neg hlong, htake, hdrop,
    hbase, hcut, List.take_left, hname, Bool.false_eq_true, if_false]

/-! ## The two passes -/

theorem TestCase.line_no_break (t : TestCase) : '\n' ∉ t.line := by
  have hsuffix : '\n' ∉ t.suffix := by
    rcases t.suffix_cases with h | h <;> rw [h] <;> decide
  have htail : '\n' ∉ t.reported.tail := by
    rcases hreported : t.reported with _ | _ | _ | reason
    · decide
    · decide
    · decide
    · exact List.not_mem_append (by decide) (t.reason_plain reason hreported)
  exact List.not_mem_append (by decide) (List.not_mem_append t.name_plain.2
    (List.not_mem_append hsuffix (List.not_mem_append (by decide) htail)))

theorem TestBinary.header_no_break (b : TestBinary) : '\n' ∉ b.header := by
  obtain ⟨hdescribed, hdir⟩ := b.header_plain
  obtain ⟨-, -, hname⟩ := b.name_plain
  obtain ⟨-, -, -, hhash⟩ := b.hash_plain
  unfold TestBinary.header
  refine List.not_mem_append (by decide) (List.not_mem_append hdescribed
    (List.not_mem_append (by decide) (List.not_mem_append hdir ?_)))
  simp [hname, hhash]

private theorem decimal_no_break (n : ℕ) : '\n' ∉ (decimal n).toList :=
  fun h => absurd (isDigit_of_mem_decimal h) (by decide)

private theorem labelled_plain {c : Char} (hc : c = '\n' ∨ c = ';') (n : ℕ) {label : String}
    (hlabel : c ∉ ' ' :: label.toList) : c ∉ labelled n label := by
  refine List.not_mem_append (fun h => ?_) hlabel
  rcases hc with rfl | rfl <;> exact absurd (isDigit_of_mem_decimal h) (by decide)

/-- A segment of the result line holds neither a line break nor a semicolon. -/
theorem TestBinary.segments_plain (b : TestBinary) {c : Char} (hc : c = '\n' ∨ c = ';') :
    ∀ l ∈ b.result_segments, c ∉ l := by
  have hduration : c ∉ b.duration.toList := by
    rcases hc with rfl | rfl
    · exact b.duration_plain.2
    · exact b.duration_plain.1
  have hblank : c ≠ ' ' := by rcases hc with rfl | rfl <;> decide
  have hcount (n : ℕ) {label : String} (hlabel : c ∉ ' ' :: label.toList) :
      c ∉ ' ' :: labelled n label :=
    List.not_mem_cons_of_ne_of_not_mem hblank (labelled_plain hc n hlabel)
  have hwords : c ∉ " passed".toList ∧ c ∉ " failed".toList ∧ c ∉ " ignored".toList ∧
      c ∉ " measured".toList ∧ c ∉ " filtered out".toList ∧ c ∉ " finished in ".toList ∧
      c ∉ ['s'] := by
    rcases hc with rfl | rfl <;> decide
  obtain ⟨hpassed, hfailed, hignored, hmeasured, hfiltered, hfinished, hs⟩ := hwords
  unfold TestBinary.result_segments
  simp only [List.forall_mem_cons, List.not_mem_nil, false_implies, implies_true, and_true]
  exact ⟨labelled_plain hc _ hpassed, hcount _ hfailed, hcount _ hignored, hcount _ hmeasured,
    hcount _ hfiltered, List.not_mem_append hfinished (List.not_mem_append hduration hs)⟩

theorem TestBinary.stdout_no_break (b : TestBinary) : ∀ l ∈ b.stdout, '\n' ∉ l := by
  have hrunning : '\n' ∉ b.running_line := by
    unfold TestBinary.running_line
    refine List.not_mem_append (by decide) (List.not_mem_append (decimal_no_break _) ?_)
    split <;> decide
  have hresult : '\n' ∉ b.result_line := by
    have hsegments := not_mem_intercalate (by decide : '\n' ≠ ';') (b.segments_plain (.inl rfl))
    unfold TestBinary.result_line
    refine List.not_mem_append (by decide) (List.not_mem_append ?_
      (List.not_mem_append (by decide) hsegments))
    split <;> decide
  intro l hl
  simp only [TestBinary.stdout, List.mem_cons, List.mem_append, List.mem_map, List.not_mem_nil,
    or_false] at hl
  rcases hl with rfl | rfl | ⟨t, -, rfl⟩ | rfl | rfl | rfl
  · exact List.not_mem_nil
  · exact hrunning
  · exact t.line_no_break
  · exact List.not_mem_nil
  · exact hresult
  · exact List.not_mem_nil

theorem captured_lines_no_break (order : StreamOrder) (run : List TestBinary) :
    ∀ l ∈ captured_lines order run, '\n' ∉ l := by
  intro l hl
  cases order with
  | Interleaved =>
    obtain ⟨b, -, hl⟩ := List.mem_flatMap.mp hl
    rcases List.mem_cons.mp hl with rfl | hl
    · exact b.header_no_break
    · exact b.stdout_no_break l hl
  | Concatenated =>
    rcases List.mem_append.mp hl with hl | hl
    · obtain ⟨b, -, hl⟩ := List.mem_flatMap.mp hl
      exact b.stdout_no_break l hl
    · obtain ⟨b, -, rfl⟩ := List.mem_map.mp hl
      exact b.header_no_break

theorem harvest_append (l m : List (List Char)) :
    harvest_binaries (l ++ m) = harvest_binaries l ++ harvest_binaries m := by
  rw [harvest_binaries, harvest_binaries, harvest_binaries, List.filter_append,
    List.filterMap_append]

theorem harvest_header (b : TestBinary) :
    harvest_binaries [trim_chars b.header] = [b.name.toList] := by
  have hname := b.extract_header
  have hheader : "Running ".toList.isPrefixOf (trim_chars b.header) = true := by
    rw [b.trim_header, List.isPrefixOf_iff_prefix]
    exact List.prefix_append _ _
  rw [harvest_binaries, List.filter_cons_of_pos hheader, List.filter_nil,
    List.filterMap_cons_some hname, List.filterMap_nil]

/-- Stdout gives none. -/
theorem harvest_stdout (b : TestBinary) : harvest_binaries (b.stdout.map trim_chars) = [] := by
  have hnone : ∀ l ∈ b.stdout.map trim_chars, "Running ".toList.isPrefixOf l = false := by
    intro l hl
    obtain ⟨m, hm, rfl⟩ := List.mem_map.mp hl
    simp only [TestBinary.stdout, List.mem_cons, List.mem_append, List.mem_map, List.not_mem_nil,
      or_false] at hm
    rcases hm with rfl | rfl | ⟨t, -, rfl⟩ | rfl | rfl | rfl
    · rfl
    · rw [b.trim_running_line]
      rfl
    · obtain ⟨tail, htail, -⟩ := t.trim_line
      rw [htail]
      rfl
    · rfl
    · rw [b.trim_result_line]
      rfl
    · rfl
  rw [harvest_binaries, List.filter_eq_nil_iff.mpr fun l hl => by
    rw [hnone l hl]; exact Bool.false_ne_true, List.filterMap_nil]

theorem harvest_captured (order : StreamOrder) (run : List TestBinary) :
    harvest_binaries ((captured_lines order run).map trim_chars) =
      run.map fun b => b.name.toList := by
  cases order with
  | Interleaved =>
    unfold captured_lines
    induction run with
    | nil => rfl
    | cons b run ih =>
      rw [List.flatMap_cons, List.map_append, harvest_append, ih, List.map_cons, List.map_cons,
        ← List.singleton_append, harvest_append, harvest_header, harvest_stdout]
      rfl
  | Concatenated =>
    have hstdout : harvest_binaries ((run.flatMap TestBinary.stdout).map trim_chars) = [] := by
      induction run with
      | nil => rfl
      | cons b run ih =>
        rw [List.flatMap_cons, List.map_append, harvest_append, harvest_stdout, ih,
          List.nil_append]
    unfold captured_lines
    rw [List.map_append, harvest_append, hstdout, List.nil_append]
    clear hstdout
    induction run with
    | nil => rfl
    | cons b run ih =>
      rw [List.map_cons, List.map_cons, List.map_cons, ← List.singleton_append, harvest_append,
        harvest_header, ih, List.singleton_append]

/-! ## The scan -/

section Scan

variable (binaries : List (List Char))

/-- File entries one after another. -/
def file_all (outcomes : Outcomes) (entries : List (String × TestOutcome)) : Outcomes :=
  entries.foldl (fun filed entry => record_outcome filed entry.1 entry.2) outcomes

/-- The entries of a binary's tests that are not lost. -/
def TestBinary.seen (b : TestBinary) : List (String × TestOutcome) :=
  b.tests.filterMap (TestCase.filed b.name.toList)

theorem Scan.test_line (s : Scan) (t : TestCase) :
    s.line binaries (trim_chars t.line) =
      { s with outcomes := file_all s.outcomes (t.filed (s.binary binaries)).toList } := by
  obtain ⟨tail, hline, htail⟩ := t.trim_line
  rw [hline, s.line_test binaries t.name_plain.1 t.suffix_cases, htail, TestCase.filed]
  split
  · rfl
  · cases t.reported.announced <;> rfl

theorem Scan.test_lines (s : Scan) (ts : List TestCase) :
    (ts.map fun t => trim_chars t.line).foldl (Scan.line binaries) s =
      { s with
        outcomes := file_all s.outcomes (ts.filterMap (TestCase.filed (s.binary binaries))) } := by
  induction ts generalizing s with
  | nil => rfl
  | cons t ts ih =>
    rw [List.map_cons, List.foldl_cons, s.test_line binaries t, ih, List.filterMap_cons]
    cases t.filed (s.binary binaries) <;> rfl

theorem Scan.segments_counts (s : Scan) (b : TestBinary) (hfit : ∀ o, b.count o < 2 ^ 64)
    (hfiltered : b.filtered_out < 2 ^ 64) :
    b.result_segments.foldl Scan.segment s =
      { s with
        total_passed := s.total_passed + UInt64.ofNat (b.count .Passed)
        total_failed := s.total_failed + UInt64.ofNat (b.count .Failed)
        total_ignored := s.total_ignored + UInt64.ofNat (b.count .Ignored)
        total_filtered_out := s.total_filtered_out + UInt64.ofNat b.filtered_out } := by
  have hblank : ∀ c ∈ [' '], is_whitespace c = true := by decide
  have hpassed (s : Scan) : s.segment (labelled (b.count .Passed) "passed") =
      s.count (UInt64.ofNat (b.count .Passed)) "passed".toList :=
    @Scan.segment_count s [] _ (by decide) (by decide) (by decide) (by decide) _ (hfit _)
  have hfailed (s : Scan) : s.segment (' ' :: labelled (b.count .Failed) "failed") =
      s.count (UInt64.ofNat (b.count .Failed)) "failed".toList :=
    @Scan.segment_count s [' '] _ hblank (by decide) (by decide) (by decide) _ (hfit _)
  have hignored (s : Scan) : s.segment (' ' :: labelled (b.count .Ignored) "ignored") =
      s.count (UInt64.ofNat (b.count .Ignored)) "ignored".toList :=
    @Scan.segment_count s [' '] _ hblank (by decide) (by decide) (by decide) _ (hfit _)
  have hmeasured (s : Scan) : s.segment (' ' :: labelled 0 "measured") =
      s.count (UInt64.ofNat 0) "measured".toList :=
    @Scan.segment_count s [' '] _ hblank (by decide) (by decide) (by decide) _ (by decide)
  have hfilter (s : Scan) : s.segment (' ' :: labelled b.filtered_out "filtered out") =
      s.count (UInt64.ofNat b.filtered_out) "filtered out".toList :=
    @Scan.segment_count s [' '] _ hblank (by decide) (by decide) (by decide) _ hfiltered
  have hfinished (s : Scan) : s.segment (" finished in ".toList ++ (b.duration.toList ++ ['s'])) =
      s := s.segment_finished (' ' :: (b.duration.toList ++ ['s']))
  unfold TestBinary.result_segments
  rw [List.foldl_cons, List.foldl_cons, List.foldl_cons, List.foldl_cons, List.foldl_cons,
    List.foldl_cons, List.foldl_nil, hpassed, hfailed, hignored, hmeasured, hfilter, hfinished]
  rfl

theorem Scan.result_line (s : Scan) (b : TestBinary) :
    s.line binaries (trim_chars b.result_line) =
      b.result_segments.foldl Scan.segment { s with found := true } := by
  have hstatus (status : List Char) (h : status = "ok".toList ∨ status = "FAILED".toList) :
      s.line binaries ("test result: ".toList ++ (status ++ (". ".toList ++
        [';'].intercalate b.result_segments))) =
        b.result_segments.foldl Scan.segment { s with found := true } := by
    rw [s.line_result binaries h, List.splitOn_intercalate ';' (b.segments_plain (.inr rfl))
      (List.cons_ne_nil _ _)]
  rw [b.trim_result_line]
  refine hstatus _ ?_
  split
  · exact .inl rfl
  · exact .inr rfl

theorem Scan.stdout (s : Scan) (b : TestBinary) :
    (b.stdout.map trim_chars).foldl (Scan.line binaries) s =
      b.result_segments.foldl Scan.segment
        { s with
          binary_idx := s.binary_idx + 1
          outcomes := file_all s.outcomes (b.tests.filterMap (TestCase.filed
            (({ s with binary_idx := s.binary_idx + 1 } : Scan).binary binaries)))
          found := true } := by
  have hblank : trim_chars [] = [] := rfl
  have hnoun : (if b.tests.length = 1 then "test".toList else "tests".toList) = "test".toList ∨
      (if b.tests.length = 1 then "test".toList else "tests".toList) = "tests".toList := by
    split
    · exact .inl rfl
    · exact .inr rfl
  have hmarker : s.line binaries (trim_chars b.running_line) =
      { s with binary_idx := s.binary_idx + 1 } := by
    rw [b.trim_running_line]
    exact s.line_marker binaries b.tests.length hnoun
  unfold TestBinary.stdout
  rw [List.map_cons, List.map_cons, List.map_append, List.map_map, List.map_cons, List.map_cons,
    List.map_cons, List.map_nil, hblank, List.foldl_cons, Scan.line_blank, List.foldl_cons, hmarker,
    List.foldl_append]
  have htests := Scan.test_lines binaries { s with binary_idx := s.binary_idx + 1 } b.tests
  rw [show trim_chars ∘ TestCase.line = fun t => trim_chars t.line from rfl, htests,
    List.foldl_cons, Scan.line_blank, List.foldl_cons, Scan.result_line, List.foldl_cons,
    Scan.line_blank, List.foldl_nil]

/-- The entries of a run that are not lost. -/
def run_seen (run : List TestBinary) : List (String × TestOutcome) := run.flatMap TestBinary.seen

theorem file_all_append (outcomes : Outcomes) (l m : List (String × TestOutcome)) :
    file_all outcomes (l ++ m) = file_all (file_all outcomes l) m := List.foldl_append

/-- Pass 2 does not see the headers. -/
theorem scan_captured (order : StreamOrder) (run : List TestBinary) (s : Scan) :
    ((captured_lines order run).map trim_chars).foldl (Scan.line binaries) s =
      ((run.flatMap TestBinary.stdout).map trim_chars).foldl (Scan.line binaries) s := by
  have hheader (s : Scan) (b : TestBinary) : s.line binaries (trim_chars b.header) = s := by
    rw [b.trim_header]
    exact s.line_header binaries _
  cases order with
  | Interleaved =>
    unfold captured_lines
    induction run generalizing s with
    | nil => rfl
    | cons b run ih =>
      rw [List.flatMap_cons, List.flatMap_cons, List.map_append, List.map_append,
        List.foldl_append, List.foldl_append, List.map_cons, List.foldl_cons, hheader, ih]
  | Concatenated =>
    have hheaders (s : Scan) (run : List TestBinary) :
        ((run.map TestBinary.header).map trim_chars).foldl (Scan.line binaries) s = s := by
      induction run with
      | nil => rfl
      | cons b run ih => rw [List.map_cons, List.map_cons, List.foldl_cons, hheader, ih]
    unfold captured_lines
    rw [List.map_append, List.foldl_append, hheaders]

/-- **A run of binaries.** The index of the next header is the invariant: behind `i` binaries
the scan is at the names of the others, and it leaves the entries of their tests filed. -/
theorem Scan.run (s : Scan) {before : List (List Char)} {run : List TestBinary}
    (hbinaries : binaries = before ++ run.map fun b => b.name.toList)
    (hidx : s.binary_idx = before.length - 1) :
    let t := ((run.flatMap TestBinary.stdout).map trim_chars).foldl (Scan.line binaries) s
    t.outcomes = file_all s.outcomes (run_seen run) ∧ t.found = (s.found || !run.isEmpty) ∧
      ((∀ b ∈ run, (∀ o, b.count o < 2 ^ 64) ∧ b.filtered_out < 2 ^ 64) →
        t.total_passed = s.total_passed + UInt64.ofNat (run_count run .Passed) ∧
        t.total_failed = s.total_failed + UInt64.ofNat (run_count run .Failed) ∧
        t.total_ignored = s.total_ignored + UInt64.ofNat (run_count run .Ignored) ∧
        t.total_filtered_out = s.total_filtered_out + UInt64.ofNat (run_filtered run)) := by
  induction run generalizing s before with
  | nil => simp [run_seen, file_all, run_count, run_filtered]
  | cons b run ih =>
    have hname : ({ s with binary_idx := s.binary_idx + 1 } : Scan).binary binaries =
        b.name.toList := by
      have hnat : (s.binary_idx + 1).toNat = before.length := by omega
      rw [Scan.binary, if_pos (show 0 ≤ s.binary_idx + 1 by omega), hnat, hbinaries,
        List.getElem?_append_right (le_refl _), Nat.sub_self]
      rfl
    have hstep := Scan.stdout binaries s b
    rw [hname, ← TestBinary.seen] at hstep
    obtain ⟨hidx', houtcomes', hfound'⟩ := Scan.segments_frame
      { s with
        binary_idx := s.binary_idx + 1
        outcomes := file_all s.outcomes b.seen
        found := true } b.result_segments
    have hrest := @ih ((b.stdout.map trim_chars).foldl (Scan.line binaries) s)
      (before ++ [b.name.toList]) (by rw [hbinaries, List.append_assoc]; rfl)
      (by rw [hstep, List.length_append, List.length_singleton]; exact hidx'.trans (by simp [hidx]))
    rw [List.flatMap_cons, List.map_append, List.foldl_append]
    obtain ⟨houtcomes, hfound, hcounts⟩ := hrest
    refine ⟨?_, ?_, fun hfit => ?_⟩
    · rw [houtcomes, hstep, houtcomes', run_seen, run_seen, List.flatMap_cons, file_all_append]
    · rw [hfound, hstep, hfound']
      simp
    · obtain ⟨hb, hbf⟩ := hfit b List.mem_cons_self
      obtain ⟨hpassed, hfailed, hignored, hfiltered⟩ :=
        hcounts fun c hc => hfit c (List.mem_cons_of_mem b hc)
      rw [hpassed, hfailed, hignored, hfiltered, hstep, Scan.segments_counts _ b hb hbf]
      simp only [run_count, run_filtered, List.map_cons, List.sum_cons, UInt64.ofNat_add,
        UInt64.add_assoc, and_self]

end Scan

end Evidence.Bundle
