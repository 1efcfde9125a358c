/-
The text of a test run with the output of its failing tests, and what the two scans of
`bundle/test_summary` read of it.

Behind the tests of a binary libtest prints, for each failing test that wrote
something, a block with the test's name and what the test wrote, and then the names
of all that failed. What a test wrote is any text: a line of it may be one at which
the scan for blocks ends one or opens another.

The scan for outcomes looks at few lines only, so it reads what it would read without
the failures if no test wrote such a line. The scan for blocks finds those of the
binaries one behind the other, each cut at the lines of its own text that end one.
-/
import Evidence.Bundle.FailureBlocks
import Evidence.Bundle.TestRun
import Evidence.Bundle.TestTotals

set_option autoImplicit false

namespace Evidence.Bundle

open Segments

/-! ## Runs with captured output -/

structure FailureBlock where
  name : String
  text : List (List Char)
  name_ne : name.toList ≠ []
  name_plain : '\n' ∉ name.toList
  text_plain : ∀ l ∈ text, '\n' ∉ l

structure BinaryOutput where
  binary : TestBinary
  blocks : List FailureBlock
  /-- A test has one block. -/
  blocks_nodup : (blocks.map FailureBlock.name).Nodup
  /-- The name of a binary is the name of a crate. -/
  crate_name : ':' ∉ binary.name.toList

def FailureBlock.header (k : FailureBlock) : List Char :=
  "---- ".toList ++ (k.name.toList ++ " stdout ----".toList)

def FailureBlock.lines (k : FailureBlock) : List (List Char) := k.header :: k.text

def BinaryOutput.failed (b : BinaryOutput) : List TestCase :=
  b.binary.tests.filter fun t => t.reported == .failed

/-- The part of stdout that reports failures. -/
def BinaryOutput.failures (b : BinaryOutput) : List (List Char) :=
  if b.failed.isEmpty && b.blocks.isEmpty then []
  else
    [[], "failures:".toList] ++
      (if b.blocks.isEmpty then [] else [] :: b.blocks.flatMap FailureBlock.lines) ++
      ([[], "failures:".toList] ++ b.failed.map fun t => "    ".toList ++ t.name.toList)

def BinaryOutput.stdout (b : BinaryOutput) : List (List Char) :=
  [] :: b.binary.running_line :: (b.binary.tests.map TestCase.line ++
    (b.failures ++ [[], b.binary.result_line, []]))

def output_lines (order : StreamOrder) (run : List BinaryOutput) : List (List Char) :=
  match order with
  | .Interleaved => run.flatMap fun b => b.binary.header :: b.stdout
  | .Concatenated => run.flatMap BinaryOutput.stdout ++ run.map fun b => b.binary.header

def output_text (order : StreamOrder) (line_end : LineEnd) (run : List BinaryOutput) : String :=
  String.ofList (unlines line_end (output_lines order run))

/-! ## The lines as they are read -/

/-- A line as a reader of the text sees it: without the carriage returns that belong to
its line end. -/
def as_read (line_end : LineEnd) (line : List Char) : List Char :=
  strip_cr (line_end.normalized line)

/-- The blocks the scan finds in a printed block: its own up to the first line that ends
one, and those its lines open. -/
def FailureBlock.pieces (line_end : LineEnd) (k : FailureBlock) : List (String × String) :=
  found_texts (k.lines.map (as_read line_end))

/-- The blocks the scan finds in a run. -/
def run_pieces (line_end : LineEnd) (run : List BinaryOutput) : List (String × String) :=
  run.flatMap fun b => b.blocks.flatMap (FailureBlock.pieces line_end)

/-- The name and the outcome a line is filed under. -/
def reads_outcome (line : List Char) : Option (List Char × TestOutcome) := do
  let rest ← strip_text "test ".toList line
  let (name, outcome_tail) ← split_once " ... ".toList rest
  let o ← outcome_of_tail outcome_tail
  pure (name, o)

/-- A line of captured output that the scan for outcomes takes for cargo's or libtest's. -/
def is_harness_line (line : List Char) : Bool :=
  is_marker line ||
    (if "Running ".toList.isPrefixOf line then (extract_binary_name line).isSome
    else !"test result:".toList.isPrefixOf line && (reads_outcome line).isSome)

/-- No test wrote a line that the scan for outcomes takes for cargo's or libtest's. -/
def TestsQuiet (run : List BinaryOutput) : Prop :=
  ∀ b ∈ run, ∀ k ∈ b.blocks, ∀ l ∈ k.text, is_harness_line (trim_chars l) = false

/-! ## The lines as the two scans read them -/

theorem trim_as_read (line_end : LineEnd) (line : List Char) :
    trim_chars (as_read line_end line) = trim_chars line := by
  rw [as_read, trim_strip_cr]
  cases line_end with
  | Lf => exact trim_strip_cr line
  | Crlf => rfl

theorem opened_name_as_read (line_end : LineEnd) (line : List Char) :
    opened_name (as_read line_end line) = opened_name line := by
  rw [opened_name, trim_as_read, opened_name]

/-- Nothing but a line that begins with a dash opens a block. -/
theorem opened_name_eq_none {line : List Char} (h : (trim_chars line).head? ≠ some '-') :
    opened_name line = none := by
  have hprefix : strip_text "---- ".toList (trim_chars line) = none := by
    rw [strip_text, if_neg]
    intro hprefix
    obtain ⟨rest, hrest⟩ := List.isPrefixOf_iff_prefix.mp hprefix
    exact h (by rw [← hrest]; rfl)
  rw [opened_name, parse_failure_header, hprefix]
  rfl

theorem not_prefix_of_no_blank {pattern line : List Char} (hpattern : ' ' ∈ pattern)
    (hline : ' ' ∉ line) : pattern.isPrefixOf line = false := by
  by_contra h
  rw [Bool.not_eq_false] at h
  exact hline ((List.isPrefixOf_iff_prefix.mp h).subset hpattern)

theorem no_blank_of_name_line (t : TestCase) :
    ' ' ∉ trim_chars ("    ".toList ++ t.name.toList) := by
  have hsub : trim_chars t.name.toList ⊆ t.name.toList := by
    intro c hc
    exact (List.dropWhile_sublist _).subset ((List.rdropWhile_prefix _ _).subset hc)
  rw [trim_chars, strip_append_left (by decide)]
  exact fun h => t.name_plain.1 (hsub h)

theorem FailureBlock.trim_header (k : FailureBlock) : trim_chars k.header = k.header := by
  unfold FailureBlock.header trim_chars
  refine strip_framed (a := '-') (b := '-') rfl ?_ (by decide) (by decide)
  simp only [List.getLast?_append]
  rfl

theorem strip_end_append (pattern line : List Char) :
    strip_end pattern (line ++ pattern) = some line := by
  rw [strip_end, if_pos (List.isSuffixOf_iff_suffix.mpr (List.suffix_append _ _)),
    List.length_append, Nat.add_sub_cancel, List.take_left]

/-- **A header opens its block.** -/
theorem FailureBlock.opened_header (k : FailureBlock) :
    opened_name k.header = some k.name.toList := by
  have hend : k.name.toList ++ " stdout ----".toList =
      (k.name.toList ++ " stdout".toList) ++ " ----".toList := by
    rw [List.append_assoc]
    rfl
  have hname : k.name.toList.isEmpty = false := List.isEmpty_eq_false_iff.mpr k.name_ne
  rw [opened_name, k.trim_header, FailureBlock.header, parse_failure_header, strip_text_append]
  simp only [Option.bind_eq_bind, Option.bind_some, hend, strip_end_append, hname,
    Bool.false_eq_true, if_false]

/-- A line that does not begin like one of cargo's or libtest's is none. -/
theorem not_harness_of_not_prefix {line : List Char}
    (hrunning : "running ".toList.isPrefixOf line = false)
    (hheader : "Running ".toList.isPrefixOf line = false)
    (htest : "test ".toList.isPrefixOf line = false) : is_harness_line line = false := by
  have hreads : reads_outcome line = none := by
    rw [reads_outcome, strip_text, htest, if_neg Bool.false_ne_true]
    rfl
  rw [is_harness_line, is_marker, hrunning, hheader, hreads, if_neg Bool.false_ne_true,
    Bool.false_and, Option.isSome_none, Bool.and_false, Bool.or_self]

theorem not_harness_of_no_blank {line : List Char} (h : ' ' ∉ line) :
    is_harness_line line = false :=
  not_harness_of_not_prefix (not_prefix_of_no_blank (by decide) h)
    (not_prefix_of_no_blank (by decide) h) (not_prefix_of_no_blank (by decide) h)

theorem FailureBlock.header_quiet (k : FailureBlock) :
    is_harness_line (trim_chars k.header) = false := by
  rw [k.trim_header]
  exact not_harness_of_not_prefix rfl rfl rfl

/-! ## The scan for outcomes -/

section Outcomes

variable (binaries : List (List Char))

/-- A line that is none of cargo's or libtest's moves neither the place nor the entries. -/
theorem Scan.line_quiet (s : Scan) {line : List Char} (h : is_harness_line line = false) :
    (s.line binaries line).binary_idx = s.binary_idx ∧
      (s.line binaries line).outcomes = s.outcomes := by
  rw [is_harness_line, Bool.or_eq_false_iff] at h
  obtain ⟨hmarker, h⟩ := h
  rw [Scan.line, hmarker, if_neg Bool.false_ne_true]
  by_cases hheader : "Running ".toList.isPrefixOf line = true
  · rw [if_pos hheader]
    exact ⟨rfl, rfl⟩
  · rw [if_neg hheader] at h ⊢
    by_cases hresult : "test result:".toList.isPrefixOf line = true
    · rw [if_pos hresult]
      split
      · exact ⟨rfl, rfl⟩
      · exact ⟨(Scan.segments_frame _ _).1, (Scan.segments_frame _ _).2.1⟩
    · rw [if_neg hresult]
      rw [Bool.not_eq_true] at hresult
      rw [hresult, Bool.not_false, Bool.true_and, Option.isSome_eq_false_iff,
        Option.isNone_iff_eq_none, reads_outcome] at h
      rcases hrest : strip_text "test ".toList line with _ | rest
      · exact ⟨rfl, rfl⟩
      · rcases hsplit : split_once " ... ".toList rest with _ | ⟨name, outcome_tail⟩
        · simp only [hsplit, and_self]
        · rcases houtcome : outcome_of_tail outcome_tail with _ | o
          · simp only [hsplit, houtcome, and_self]
          · simp only [hrest, Option.bind_eq_bind, Option.bind_some, hsplit, houtcome,
              Option.pure_def, reduceCtorEq] at h

/-- What a line does to the place and the entries depends on nothing else. -/
theorem Scan.line_congr {s t : Scan} (hidx : s.binary_idx = t.binary_idx)
    (houtcomes : s.outcomes = t.outcomes) (line : List Char) :
    (s.line binaries line).binary_idx = (t.line binaries line).binary_idx ∧
      (s.line binaries line).outcomes = (t.line binaries line).outcomes := by
  have hbinary : s.binary binaries = t.binary binaries := by
    rw [Scan.binary, Scan.binary, hidx]
  unfold Scan.line
  split_ifs
  · exact ⟨by rw [hidx], houtcomes⟩
  · exact ⟨hidx, houtcomes⟩
  · split
    · exact ⟨hidx, houtcomes⟩
    · refine ⟨?_, ?_⟩
      · rw [(Scan.segments_frame _ _).1, (Scan.segments_frame _ _).1]
        exact hidx
      · rw [(Scan.segments_frame _ _).2.1, (Scan.segments_frame _ _).2.1]
        exact houtcomes
  · split
    · exact ⟨hidx, houtcomes⟩
    · split
      · exact ⟨hidx, houtcomes⟩
      · split
        · exact ⟨hidx, houtcomes⟩
        · exact ⟨hidx, by rw [houtcomes, hbinary]⟩

/-- **Only cargo's and libtest's lines matter** to the place and the entries. -/
theorem Scan.run_filter {s t : Scan} (hidx : s.binary_idx = t.binary_idx)
    (houtcomes : s.outcomes = t.outcomes) (ls : List (List Char)) :
    (ls.foldl (Scan.line binaries) s).outcomes =
      ((ls.filter is_harness_line).foldl (Scan.line binaries) t).outcomes := by
  induction ls generalizing s t with
  | nil => exact houtcomes
  | cons line ls ih =>
    rw [List.foldl_cons]
    by_cases hline : is_harness_line line = true
    · obtain ⟨hidx', houtcomes'⟩ := Scan.line_congr binaries hidx houtcomes line
      rw [List.filter_cons_of_pos hline, List.foldl_cons]
      exact ih hidx' houtcomes'
    · obtain ⟨hidx', houtcomes'⟩ := s.line_quiet binaries (Bool.not_eq_true _ ▸ hline)
      rw [List.filter_cons_of_neg hline]
      exact ih (hidx'.trans hidx) (houtcomes'.trans houtcomes)

end Outcomes

theorem harvest_filter (ls : List (List Char)) :
    harvest_binaries (ls.filter is_harness_line) = harvest_binaries ls := by
  induction ls with
  | nil => rfl
  | cons line ls ih =>
    by_cases hline : is_harness_line line = true
    · rw [List.filter_cons_of_pos hline, ← List.singleton_append, harvest_append, ih,
        ← harvest_append, List.singleton_append]
    · rw [List.filter_cons_of_neg hline, ih, ← List.singleton_append, harvest_append]
      have hnone : harvest_binaries [line] = [] := by
        rw [is_harness_line, Bool.not_eq_true, Bool.or_eq_false_iff] at hline
        by_cases hheader : "Running ".toList.isPrefixOf line = true
        · have hname := hline.2
          rw [if_pos hheader, Option.isSome_eq_false_iff, Option.isNone_iff_eq_none] at hname
          rw [harvest_binaries, List.filter_cons_of_pos hheader, List.filter_nil,
            List.filterMap_cons_none hname, List.filterMap_nil]
        · rw [harvest_binaries, List.filter_cons_of_neg hheader, List.filter_nil,
            List.filterMap_nil]
      rw [hnone, List.nil_append]

/-! ## The text of a run -/

theorem BinaryOutput.failures_quiet {b : BinaryOutput}
    (hquiet : ∀ k ∈ b.blocks, ∀ l ∈ k.text, is_harness_line (trim_chars l) = false) :
    (b.failures.map trim_chars).filter is_harness_line = [] := by
  rw [List.filter_eq_nil_iff]
  intro line hline
  obtain ⟨l, hl, rfl⟩ := List.mem_map.mp hline
  rw [Bool.not_eq_true]
  unfold BinaryOutput.failures at hl
  split at hl
  · exact absurd hl List.not_mem_nil
  · have hfailures : is_harness_line (trim_chars "failures:".toList) = false :=
      not_harness_of_no_blank (by decide)
    simp only [List.mem_append, List.mem_cons, List.not_mem_nil, or_false, List.mem_map] at hl
    rcases hl with ((rfl | rfl) | hl) | (rfl | rfl) | ⟨t, -, rfl⟩
    · rfl
    · exact hfailures
    · split at hl
      · exact absurd hl List.not_mem_nil
      · rcases List.mem_cons.mp hl with rfl | hl
        · rfl
        · obtain ⟨k, hk, hl⟩ := List.mem_flatMap.mp hl
          rcases List.mem_cons.mp hl with rfl | hl
          · exact k.header_quiet
          · exact hquiet k hk l hl
    · rfl
    · exact hfailures
    · exact not_harness_of_no_blank (no_blank_of_name_line t)

/-- What cargo and libtest print of a binary is the same with and without its failures. -/
theorem BinaryOutput.filter_stdout {b : BinaryOutput}
    (hquiet : ∀ k ∈ b.blocks, ∀ l ∈ k.text, is_harness_line (trim_chars l) = false) :
    (b.stdout.map trim_chars).filter is_harness_line =
      (b.binary.stdout.map trim_chars).filter is_harness_line := by
  have hmid (lead mid rest : List (List Char))
      (hnone : (mid.map trim_chars).filter is_harness_line = []) :
      ((lead ++ (mid ++ rest)).map trim_chars).filter is_harness_line =
        ((lead ++ rest).map trim_chars).filter is_harness_line := by
    rw [List.map_append, List.map_append, List.filter_append, List.filter_append, hnone,
      List.nil_append, List.map_append, List.filter_append]
  have hstdout := hmid ([] :: b.binary.running_line :: b.binary.tests.map TestCase.line) b.failures
    [[], b.binary.result_line, []] (b.failures_quiet hquiet)
  exact hstdout

/-- **The two streams without the captured output** are those of the run of the binaries. -/
theorem filter_output_lines (order : StreamOrder) {run : List BinaryOutput}
    (hquiet : TestsQuiet run) :
    ((output_lines order run).map trim_chars).filter is_harness_line =
      ((captured_lines order (run.map BinaryOutput.binary)).map trim_chars).filter
        is_harness_line := by
  have hflat (f : BinaryOutput → List (List Char)) (g : TestBinary → List (List Char))
      (hfg : ∀ b ∈ run, ((f b).map trim_chars).filter is_harness_line =
        ((g b.binary).map trim_chars).filter is_harness_line) :
      ((run.flatMap f).map trim_chars).filter is_harness_line =
        (((run.map BinaryOutput.binary).flatMap g).map trim_chars).filter is_harness_line := by
    rw [List.map_flatMap, List.filter_flatMap, List.flatMap_map, List.map_flatMap,
      List.filter_flatMap]
    exact List.flatMap_congr hfg
  cases order with
  | Interleaved =>
    refine hflat _ _ fun b hb => ?_
    rw [List.map_cons, List.map_cons, ← List.singleton_append, List.filter_append,
      BinaryOutput.filter_stdout (hquiet b hb), ← List.filter_append, List.singleton_append]
  | Concatenated =>
    have hheaders : (run.map BinaryOutput.binary).map TestBinary.header =
        run.map fun b => b.binary.header := List.map_map
    rw [output_lines, captured_lines, List.map_append, List.filter_append,
      hflat _ TestBinary.stdout fun b hb => BinaryOutput.filter_stdout (hquiet b hb),
      ← List.filter_append, List.map_append, hheaders]

theorem output_lines_no_break (order : StreamOrder) (run : List BinaryOutput) :
    ∀ l ∈ output_lines order run, '\n' ∉ l := by
  have hblock (k : FailureBlock) : ∀ l ∈ k.lines, '\n' ∉ l := by
    intro l hl
    rcases List.mem_cons.mp hl with rfl | hl
    · exact List.not_mem_append (by decide) (List.not_mem_append k.name_plain (by decide))
    · exact k.text_plain l hl
  have hfailures (b : BinaryOutput) : ∀ l ∈ b.failures, '\n' ∉ l := by
    intro l hl
    unfold BinaryOutput.failures at hl
    split at hl
    · exact absurd hl List.not_mem_nil
    · simp only [List.mem_append, List.mem_cons, List.not_mem_nil, or_false, List.mem_map] at hl
      rcases hl with ((rfl | rfl) | hl) | (rfl | rfl) | ⟨t, -, rfl⟩
      · exact List.not_mem_nil
      · decide
      · split at hl
        · exact absurd hl List.not_mem_nil
        · rcases List.mem_cons.mp hl with rfl | hl
          · exact List.not_mem_nil
          · obtain ⟨k, -, hl⟩ := List.mem_flatMap.mp hl
            exact hblock k l hl
      · exact List.not_mem_nil
      · decide
      · exact List.not_mem_append (by decide) t.name_plain.2
  have hstdout (b : BinaryOutput) : ∀ l ∈ b.stdout, '\n' ∉ l := by
    intro l hl
    simp only [BinaryOutput.stdout, List.mem_cons, List.mem_append, List.mem_map,
      List.not_mem_nil, or_false] at hl
    have hbinary := b.binary.stdout_no_break
    simp only [TestBinary.stdout, List.mem_cons, List.mem_append, List.mem_map,
      List.not_mem_nil, or_false] at hbinary
    rcases hl with rfl | rfl | ⟨t, ht, rfl⟩ | hl | rfl | rfl | rfl
    · exact List.not_mem_nil
    · exact hbinary _ (.inr (.inl rfl))
    · exact t.line_no_break
    · exact hfailures b l hl
    · exact List.not_mem_nil
    · exact hbinary _ (.inr (.inr (.inr (.inr (.inl rfl)))))
    · exact List.not_mem_nil
  intro l hl
  cases order with
  | Interleaved =>
    obtain ⟨b, -, hl⟩ := List.mem_flatMap.mp hl
    rcases List.mem_cons.mp hl with rfl | hl
    · exact b.binary.header_no_break
    · exact hstdout b l hl
  | Concatenated =>
    rcases List.mem_append.mp hl with hl | hl
    · obtain ⟨b, -, hl⟩ := List.mem_flatMap.mp hl
      exact hstdout b l hl
    · obtain ⟨b, -, rfl⟩ := List.mem_map.mp hl
      exact b.binary.header_no_break

theorem TestBinary.result_line_segments (b : TestBinary) :
    (Bundle.result_segments b.result_line).isSome = true := by
  have hread (status rest : List Char)
      (h : status = "ok".toList ∨ status = "FAILED".toList) :
      (Bundle.result_segments ("test result: ".toList ++ (status ++
        (". ".toList ++ rest)))).isSome = true := by
    rcases h with rfl | rfl <;> simp [Bundle.result_segments, strip_text]
  refine hread _ _ ?_
  split
  · exact .inl rfl
  · exact .inr rfl

theorem output_found {order : StreamOrder} {line_end : LineEnd} {run : List BinaryOutput}
    (hne : run ≠ []) : (scan_output (output_text order line_end run)).found = true := by
  obtain ⟨b, hb⟩ := List.exists_mem_of_ne_nil run hne
  rw [found_scan_output, List.any_eq_true, trimmed_lines, output_text, String.toList_ofList,
    trimmed_lines_unlines line_end (output_lines_no_break order run)]
  have hstdout : b.binary.result_line ∈ b.stdout := by
    simp [BinaryOutput.stdout]
  have hline : b.binary.result_line ∈ output_lines order run := by
    cases order with
    | Interleaved => exact List.mem_flatMap.mpr ⟨b, hb, List.mem_cons_of_mem _ hstdout⟩
    | Concatenated =>
      exact List.mem_append_left _ (List.mem_flatMap.mpr ⟨b, hb, hstdout⟩)
  refine ⟨_, List.mem_map_of_mem hline, ?_⟩
  rw [b.binary.trim_result_line]
  exact b.binary.result_line_segments

/-- **The outcomes of a run** whose tests write none of cargo's or libtest's lines are those
of its test lines. -/
theorem parse_output (order : StreamOrder) (line_end : LineEnd) {run : List BinaryOutput}
    (hne : run ≠ []) (hquiet : TestsQuiet run) :
    ∃ summary, parse_cargo_test_output_with_outcomes (output_text order line_end run) =
      some (summary, file_all Store.empty (run_seen (run.map BinaryOutput.binary))) := by
  have hfound := @output_found order line_end run hne
  have htrimmed : trimmed_lines (output_text order line_end run) =
      (output_lines order run).map trim_chars := by
    rw [trimmed_lines, output_text, String.toList_ofList]
    exact trimmed_lines_unlines line_end (output_lines_no_break order run)
  have hharvest : harvest_binaries ((output_lines order run).map trim_chars) =
      (run.map BinaryOutput.binary).map fun b => b.name.toList := by
    rw [← harvest_filter, filter_output_lines order hquiet, harvest_filter, harvest_captured]
  have houtcomes : (scan_output (output_text order line_end run)).outcomes =
      file_all Store.empty (run_seen (run.map BinaryOutput.binary)) := by
    have hscan := @Scan.run ((run.map BinaryOutput.binary).map fun b => b.name.toList)
      Scan.start [] (run.map BinaryOutput.binary) rfl rfl
    rw [← scan_captured _ order] at hscan
    rw [scan_output, htrimmed, hharvest,
      Scan.run_filter _ (rfl : Scan.start.binary_idx = Scan.start.binary_idx) rfl,
      filter_output_lines order hquiet, ← Scan.run_filter _ rfl rfl]
    exact hscan.1
  unfold parse_cargo_test_output_with_outcomes
  have hscan : ((lines (replace_crlf (output_text order line_end run).toList)).map
      trim_chars).foldl (Scan.line (harvest_binaries ((lines (replace_crlf
        (output_text order line_end run).toList)).map trim_chars))) Scan.start =
      scan_output (output_text order line_end run) := rfl
  simp only [hscan, hfound, if_true, houtcomes]
  exact ⟨_, rfl⟩

/-! ## The blocks of a run -/

/-- None of cargo's and libtest's lines opens a block. -/
theorem TestBinary.opened_none (b : TestBinary) :
    opened_name b.header = none ∧ opened_name b.running_line = none ∧
      opened_name b.result_line = none := by
  refine ⟨opened_name_eq_none ?_, opened_name_eq_none ?_, opened_name_eq_none ?_⟩
  · rw [b.trim_header]
    exact fun h => absurd (Option.some.inj h) (by decide)
  · rw [b.trim_running_line]
    exact fun h => absurd (Option.some.inj h) (by decide)
  · rw [b.trim_result_line]
    exact fun h => absurd (Option.some.inj h) (by decide)

theorem TestCase.opened_none (t : TestCase) : opened_name t.line = none := by
  obtain ⟨tail, htail, -⟩ := t.trim_line
  refine opened_name_eq_none ?_
  rw [htail]
  exact fun h => absurd (Option.some.inj h) (by decide)

theorem TestCase.name_line_opened_none (t : TestCase) :
    opened_name ("    ".toList ++ t.name.toList) = none := by
  have hprefix : strip_text "---- ".toList (trim_chars ("    ".toList ++ t.name.toList)) =
      none := by
    rw [strip_text, not_prefix_of_no_blank (by decide) (no_blank_of_name_line t),
      if_neg Bool.false_ne_true]
  rw [opened_name, parse_failure_header, hprefix]
  rfl

section Pieces

variable (line_end : LineEnd)

theorem found_texts_read_none {lead : List (List Char)} (h : ∀ l ∈ lead, opened_name l = none)
    (ls : List (List Char)) :
    found_texts (lead.map (as_read line_end) ++ ls) = found_texts ls := by
  refine found_texts_append_none (fun l hl => ?_) ls
  obtain ⟨m, hm, rfl⟩ := List.mem_map.mp hl
  rw [opened_name_as_read, h m hm]

theorem FailureBlock.header_end (k : FailureBlock) :
    is_block_end (as_read line_end k.header) = true := by
  rw [is_block_end, Blocks.marks, opened_name_as_read, k.opened_header]
  rfl

/-- **Blocks up to the list of failures** are read one by one; the blank line before the
list is in none. -/
theorem found_texts_blocks (ks : List FailureBlock) (rest : List (List Char)) :
    found_texts ((ks.flatMap FailureBlock.lines ++ [[], "failures:".toList]).map
        (as_read line_end) ++ rest) =
      ks.flatMap (FailureBlock.pieces line_end) ++
        found_texts (as_read line_end "failures:".toList :: rest) := by
  have hblank : as_read line_end [] = [] := by
    cases line_end <;> rfl
  have hfailures : is_block_end (as_read line_end "failures:".toList) = true := by
    cases line_end <;> decide
  induction ks with
  | nil =>
    rw [List.flatMap_nil, List.nil_append, List.map_cons, hblank]
    exact @found_texts_append_none [[]] (by decide) _
  | cons k ks ih =>
    rw [List.flatMap_cons, List.flatMap_cons, List.append_assoc, List.append_assoc, ← ih]
    rcases ks with _ | ⟨next, ks⟩
    · -- the blank line ends the last block
      rw [List.flatMap_nil, List.nil_append, List.map_append, List.map_cons, List.map_cons,
        List.map_nil, hblank, List.append_assoc, List.cons_append, List.cons_append,
        List.nil_append, List.append_cons, found_texts_append_end hfailures,
        found_texts_concat_blank (by decide) (by decide)]
      refine congrArg (k.pieces line_end ++ ·) ?_
      exact (@found_texts_append_none [[]] (by decide) _).symm
    · obtain ⟨tail, htail⟩ : ∃ tail, (next :: ks).flatMap FailureBlock.lines ++
          [[], "failures:".toList] = next.header :: tail := ⟨_, rfl⟩
      rw [htail, List.map_append, List.map_cons, List.append_assoc, List.cons_append,
        found_texts_append_end (next.header_end line_end)]
      rfl

/-- Behind the blocks nothing opens one. -/
theorem found_texts_tail (b : BinaryOutput) (rest : List (List Char)) :
    found_texts (as_read line_end "failures:".toList ::
      (b.failed.map (fun t => "    ".toList ++ t.name.toList) ++
        [[], b.binary.result_line, []]).map (as_read line_end) ++ rest) = found_texts rest := by
  rw [← List.map_cons]
  refine found_texts_read_none line_end (fun l hl => ?_) rest
  simp only [List.mem_cons, List.mem_append, List.mem_map, List.not_mem_nil, or_false] at hl
  rcases hl with rfl | ⟨t, -, rfl⟩ | rfl | rfl | rfl
  · decide
  · exact t.name_line_opened_none
  · decide
  · exact b.binary.opened_none.2.2
  · decide

theorem found_texts_stdout (b : BinaryOutput) (rest : List (List Char)) :
    found_texts (b.stdout.map (as_read line_end) ++ rest) =
      b.blocks.flatMap (FailureBlock.pieces line_end) ++ found_texts rest := by
  have htail := found_texts_tail line_end b rest
  have hlead : ∀ l ∈ [] :: b.binary.running_line :: b.binary.tests.map TestCase.line,
      opened_name l = none := by
    intro l hl
    simp only [List.mem_cons, List.mem_map] at hl
    rcases hl with rfl | rfl | ⟨t, -, rfl⟩
    · decide
    · exact b.binary.opened_none.2.1
    · exact t.opened_none
  have hstdout : b.stdout =
      ([] :: b.binary.running_line :: b.binary.tests.map TestCase.line) ++
        (b.failures ++ [[], b.binary.result_line, []]) := rfl
  have hend : ∀ l ∈ [[], b.binary.result_line, []], opened_name l = none := by
    intro l hl
    simp only [List.mem_cons, List.not_mem_nil, or_false] at hl
    rcases hl with rfl | rfl | rfl
    · decide
    · exact b.binary.opened_none.2.2
    · decide
  rw [hstdout, List.map_append, List.append_assoc, found_texts_read_none line_end hlead]
  unfold BinaryOutput.failures
  by_cases hnone : (b.failed.isEmpty && b.blocks.isEmpty) = true
  · -- nothing failed and nothing was printed
    rw [Bool.and_eq_true, List.isEmpty_iff, List.isEmpty_iff] at hnone
    rw [if_pos (by rw [hnone.1, hnone.2]; rfl), hnone.2, List.nil_append,
      found_texts_read_none line_end hend]
    rfl
  · rw [if_neg hnone]
    by_cases hblocks : b.blocks.isEmpty = true
    · have hfront : ∀ l ∈ [[], "failures:".toList] ++ [] ++
          ([[], "failures:".toList] ++
            b.failed.map fun t => "    ".toList ++ t.name.toList), opened_name l = none := by
        intro l hl
        simp only [List.append_nil, List.mem_cons, List.mem_append, List.mem_map,
          List.not_mem_nil, or_false] at hl
        rcases hl with (rfl | rfl) | (rfl | rfl) | ⟨t, -, rfl⟩
        · decide
        · decide
        · decide
        · decide
        · exact t.name_line_opened_none
      rw [if_pos hblocks, List.map_append, List.append_assoc,
        found_texts_read_none line_end hfront, found_texts_read_none line_end hend,
        List.isEmpty_iff.mp hblocks]
      rfl
    · rw [if_neg hblocks]
      have hsplit : [[], "failures:".toList] ++ [] :: b.blocks.flatMap FailureBlock.lines ++
          ([[], "failures:".toList] ++ b.failed.map fun t => "    ".toList ++ t.name.toList) ++
            [[], b.binary.result_line, []] =
          [[], "failures:".toList, []] ++
            ((b.blocks.flatMap FailureBlock.lines ++ [[], "failures:".toList]) ++
              (b.failed.map (fun t => "    ".toList ++ t.name.toList) ++
                [[], b.binary.result_line, []])) := by
        simp only [List.append_assoc, List.cons_append, List.nil_append]
      rw [hsplit, List.map_append, List.append_assoc,
        @found_texts_read_none line_end [[], "failures:".toList, []] (by decide),
        List.map_append, List.append_assoc, found_texts_blocks]
      exact congrArg (b.blocks.flatMap (FailureBlock.pieces line_end) ++ ·) htail

theorem lines_output (order : StreamOrder) (run : List BinaryOutput) :
    lines (replace_crlf (output_text order line_end run).toList) =
      (output_lines order run).map (as_read line_end) := by
  have hnone : ∀ l ∈ (output_lines order run).map line_end.normalized, '\n' ∉ l := by
    intro l hl
    obtain ⟨m, hm, rfl⟩ := List.mem_map.mp hl
    exact LineEnd.not_mem_normalized (output_lines_no_break order run m hm)
  rw [output_text, String.toList_ofList,
    replace_crlf_unlines line_end (output_lines_no_break order run), lines_flatMap hnone,
    List.map_map]
  rfl

/-- **The blocks of a run** are those of its binaries. -/
theorem found_texts_output (order : StreamOrder) (run : List BinaryOutput) :
    found_texts (lines (replace_crlf (output_text order line_end run).toList)) =
      run_pieces line_end run := by
  rw [lines_output]
  cases order with
  | Interleaved =>
    unfold output_lines run_pieces
    induction run with
    | nil => rfl
    | cons b run ih =>
      have hheader : ∀ l ∈ [b.binary.header], opened_name l = none := by
        intro l hl
        rw [List.mem_singleton.mp hl]
        exact b.binary.opened_none.1
      rw [List.flatMap_cons, List.flatMap_cons, List.cons_append, ← List.singleton_append,
        List.map_append, found_texts_read_none line_end hheader, List.map_append,
        found_texts_stdout, ih]
      rfl
  | Concatenated =>
    have hheaders : ∀ l ∈ run.map fun b => b.binary.header, opened_name l = none := by
      intro l hl
      obtain ⟨b, -, rfl⟩ := List.mem_map.mp hl
      exact b.binary.opened_none.1
    have hstdout (rest : List (List Char)) :
        found_texts ((run.flatMap BinaryOutput.stdout).map (as_read line_end) ++ rest) =
          run_pieces line_end run ++ found_texts rest := by
      unfold run_pieces
      clear hheaders
      induction run with
      | nil => rfl
      | cons b run ih =>
        rw [List.flatMap_cons, List.flatMap_cons, List.map_append, List.append_assoc,
          found_texts_stdout, ih, List.append_assoc]
    have hnone := found_texts_read_none line_end hheaders []
    rw [List.append_nil] at hnone
    rw [output_lines, List.map_append, hstdout, hnone]
    exact List.append_nil _

end Pieces

end Evidence.Bundle
