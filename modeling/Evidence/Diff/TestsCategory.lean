/-
`diff/categories_capture.rs` -- the `tests` category.

A side's evidence is the summary its index records, the rows of its outcome file and
its captured logs. Whether a side has any is asked first: if neither has, the category
is equal, and if one has, it is added or removed. Only between two sides with evidence
are summaries, rows and logs compared, the rows through a map from a test's name.

An index or an outcome file that does not parse is no evidence, and a map has one row
for a name, so the category is equal in more cases than those in which the sides hold
the same results. The last section says in which.
-/
import Evidence.Bundle.Nextest
import Evidence.Diff.Basic

set_option autoImplicit false

namespace Evidence.Diff

open Std Evidence.Bundle

class SerdeJson where
  index_from_slice : List UInt8 → Option EvidenceIndex
  outcome_from_str : String → Option TestOutcomeRecord

/-! ## Evidence -/

/-- One side's test evidence. -/
structure TestSide where
  summary : Option TestSummary
  outcomes : Load (List TestOutcomeRecord)
  stdout_log : Bool
  stderr_log : Bool
deriving DecidableEq

section Reading

variable [SerdeJson]

def Side.load (root : FileTree) : Except DiffError Side := do
  let index ← read_json_file SerdeJson.index_from_slice root "index.json"
  .ok { root, index }

/-- The rows of a JSON-lines text: one a line, blank lines aside. -/
def parse_rows (content : String) : Option (List TestOutcomeRecord) :=
  ((lines content.toList).filter fun line => !(trim_chars line).isEmpty).mapM fun line =>
    SerdeJson.outcome_from_str (String.ofList line)

def read_outcomes_jsonl (root : FileTree) : Except DiffError (Load (List TestOutcomeRecord)) :=
  load read_to_string parse_rows root "tests/test_outcomes.jsonl"

def TestSide.load (side : Side) : Except DiffError TestSide := do
  let outcomes ← read_outcomes_jsonl side.root
  .ok
    { summary :=
        match side.index with
        | .Ok index => index.test_summary
        | _ => none
      outcomes
      stdout_log := file_exists side "tests/cargo_test_stdout.txt"
      stderr_log := file_exists side "tests/cargo_test_stderr.txt" }

end Reading

namespace TestSide

/-- Whether a side has any test evidence at all. -/
def has_data (side : TestSide) : Bool :=
  side.summary.isSome ||
    (match side.outcomes with
      | .Ok rows => !rows.isEmpty
      | _ => false) ||
    side.stdout_log || side.stderr_log

/-- The evidence of a side that alone has any. -/
def describe (side : TestSide) : String :=
  let summary :=
    match side.summary with
    | some s =>
      ["summary total=" ++ decimal s.total.toNat ++ " passed=" ++ decimal s.passed.toNat ++
        " failed=" ++ decimal s.failed.toNat]
    | none => []
  let rows :=
    match side.outcomes with
    | .Ok rows => [decimal rows.length ++ " outcome row(s)"]
    | _ => []
  let logs := (if side.stdout_log then ["stdout"] else []) ++
    if side.stderr_log then ["stderr"] else []
  let parts := summary ++ rows ++
    if !logs.isEmpty then ["captured logs: " ++ "+".intercalate logs] else []
  if parts.isEmpty then "no recorded detail" else "; ".intercalate parts

end TestSide

/-! ## Comparing -/

/-- The name of a row's test. -/
def outcome_key (row : TestOutcomeRecord) : String := row.module_path ++ "::" ++ row.name

def outcome_label (row : TestOutcomeRecord) : String :=
  if row.ignored then "ignored" else if row.passed then "passed" else "failed"

/-- The counts of the summaries; a summary that one side lacks is a difference. -/
def summary_findings (sa sb : Option TestSummary) : Findings :=
  match sa, sb with
  | some sa, some sb =>
    .differences ([("total", sa.total, sb.total), ("passed", sa.passed, sb.passed),
      ("failed", sa.failed, sb.failed), ("ignored", sa.ignored, sb.ignored),
      ("filtered_out", sa.filtered_out, sb.filtered_out)].filterMap fun (label, va, vb) =>
        if va ≠ vb then
          some ("~ test_summary." ++ label ++ ": " ++ decimal va.toNat ++ " -> " ++
            decimal vb.toNat)
        else none)
  | sa, sb =>
    .differences (if sa.isSome ≠ sb.isSome then
      ["~ test_summary: " ++ presence_label sa.isSome ++ " -> " ++ presence_label sb.isSome]
    else [])

/-- A name has another result. -/
def outcome_differs (row_a row_b : TestOutcomeRecord) : Bool :=
  (row_a.passed, row_a.ignored) != (row_b.passed, row_b.ignored)

/-- The rows, by name. -/
abbrev Outcomes := Store outcome_key

def row_line (sign : String) (row : TestOutcomeRecord) : String :=
  sign ++ " " ++ outcome_key row ++ " (" ++ outcome_label row ++ ")"

def outcome_findings (oa ob : Load (List TestOutcomeRecord)) : Findings :=
  match oa, ob with
  | .Unparseable, _ => .unexamined "! tests/test_outcomes.jsonl unparseable in bundle A"
  | _, .Unparseable => .unexamined "! tests/test_outcomes.jsonl unparseable in bundle B"
  | .Missing, .Missing => .differences []
  | .Missing, .Ok rows =>
    .differences ("! tests/test_outcomes.jsonl absent in bundle A" :: rows.map (row_line "+"))
  | .Ok rows, .Missing =>
    .differences ("! tests/test_outcomes.jsonl absent in bundle B" :: rows.map (row_line "-"))
  | .Ok ra, .Ok rb =>
    .differences (diff_entries outcome_differs (row_line "-")
      (fun row_a row_b => "~ " ++ outcome_key row_a ++ ": " ++ outcome_label row_a ++ " -> " ++
        outcome_label row_b)
      (row_line "+") (Store.ofList ra : Outcomes) (Store.ofList rb))

/-- The presence of a captured log. -/
def log_findings (file : String) (la lb : Bool) : Findings :=
  .differences (if la ≠ lb then
    ["~ " ++ file ++ ": " ++ presence_label la ++ " -> " ++ presence_label lb] else [])

/-- What two sides with evidence differ in. -/
def test_findings (ta tb : TestSide) : Findings :=
  (summary_findings ta.summary tb.summary).add
    ((outcome_findings ta.outcomes tb.outcomes).add
      ((log_findings "tests/cargo_test_stdout.txt" ta.stdout_log tb.stdout_log).add
        (log_findings "tests/cargo_test_stderr.txt" ta.stderr_log tb.stderr_log)))

def compare_tests (ta tb : TestSide) : CategoryDiff :=
  if !ta.has_data && !tb.has_data then
    { category := "tests", status := .Equal, details := ["no test artifacts on either side"] }
  else if ta.has_data ≠ tb.has_data then
    if tb.has_data then
      { category := "tests", status := .Added,
        details := ["test evidence present only in bundle B: " ++ tb.describe] }
    else
      { category := "tests", status := .Removed,
        details := ["test evidence present only in bundle A: " ++ ta.describe] }
  else (test_findings ta tb).report "tests"

def tests [SerdeJson] (a b : Side) : Except DiffError CategoryDiff := do
  let ta ← TestSide.load a
  let tb ← TestSide.load b
  .ok (compare_tests ta tb)

theorem compare_tests_category (ta tb : TestSide) : (compare_tests ta tb).category = "tests" := by
  unfold compare_tests
  split
  · rfl
  · split
    · split <;> rfl
    · rfl

/-! ## What is compared -/

structure Outcome where
  package : String
  binary : String
  module_path : String
  name : String
  passed : Bool
  ignored : Bool
deriving DecidableEq

def outcome (row : TestOutcomeRecord) : Outcome where
  package := row.package
  binary := row.binary
  module_path := row.module_path
  name := row.name
  passed := row.passed
  ignored := row.ignored

/-- The rows of an outcome file; without a file there are none. -/
def Load.rows : Load (List TestOutcomeRecord) → List TestOutcomeRecord
  | .Ok rows => rows
  | _ => []

def last_row (name : String) (rows : List TestOutcomeRecord) : Option TestOutcomeRecord :=
  (Store.under outcome_key name rows).getLast?

/-- The outcome files show the same: both are missing, or both parse, and the last row of
every name has the same result. -/
def OutcomesShowAlike (oa ob : Load (List TestOutcomeRecord)) : Prop :=
  (oa = .Missing ∧ ob = .Missing) ∨
    ∃ ra rb, oa = .Ok ra ∧ ob = .Ok rb ∧ ∀ name, Option.Rel
      (fun row_a row_b => row_a.passed = row_b.passed ∧ row_a.ignored = row_b.ignored)
      (last_row name ra) (last_row name rb)

/-- Two sides show the same in everything that is compared. -/
structure ShowAlike (ta tb : TestSide) : Prop where
  summary : ta.summary = tb.summary
  outcomes : OutcomesShowAlike ta.outcomes tb.outcomes
  stdout_log : ta.stdout_log = tb.stdout_log
  stderr_log : ta.stderr_log = tb.stderr_log

theorem summary_findings_silent {sa sb : Option TestSummary} :
    (summary_findings sa sb).Silent ↔ sa = sb := by
  cases sa with
  | none => cases sb <;> simp [summary_findings]
  | some a =>
    cases sb with
    | none => simp [summary_findings]
    | some b =>
      obtain ⟨total, passed, failed, ignored, filtered_out⟩ := a
      obtain ⟨total', passed', failed', ignored', filtered_out'⟩ := b
      simp only [summary_findings, Findings.differences_silent, List.filterMap_eq_nil_iff,
        List.forall_mem_cons, ite_eq_right_iff, reduceCtorEq, imp_false, not_not,
        Option.some.injEq, TestSummary.mk.injEq, List.not_mem_nil, IsEmpty.forall_iff,
        implies_true, and_true]

theorem outcome_differs_eq_false {row_a row_b : TestOutcomeRecord} :
    outcome_differs row_a row_b = false ↔
      row_a.passed = row_b.passed ∧ row_a.ignored = row_b.ignored := by
  simp [outcome_differs]

theorem outcome_findings_silent {oa ob : Load (List TestOutcomeRecord)} :
    (outcome_findings oa ob).Silent ↔ OutcomesShowAlike oa ob := by
  unfold OutcomesShowAlike
  cases oa with
  | Ok ra =>
    cases ob with
    | Ok rb =>
      simp only [outcome_findings, Findings.differences_silent, diff_entries_eq_nil_iff,
        Store.get_ofList_last, outcome_differs_eq_false, reduceCtorEq, false_and, false_or,
        Load.Ok.injEq, last_row]
      exact ⟨fun h => ⟨ra, rb, rfl, rfl, h⟩, fun ⟨_, _, ha, hb, h⟩ => ha ▸ hb ▸ h⟩
    | Missing => simp [outcome_findings]
    | Unparseable => simp [outcome_findings]
  | Missing => cases ob <;> simp [outcome_findings]
  | Unparseable => cases ob <;> simp [outcome_findings]

theorem log_findings_silent {file : String} {la lb : Bool} :
    (log_findings file la lb).Silent ↔ la = lb := by
  by_cases h : la = lb <;> simp [log_findings, h]

/-- **Two sides with evidence are equal exactly when they show the same.** -/
theorem test_findings_silent {ta tb : TestSide} :
    (test_findings ta tb).Silent ↔ ShowAlike ta tb := by
  simp only [test_findings, Findings.add_silent, summary_findings_silent, outcome_findings_silent,
    log_findings_silent]
  constructor
  · rintro ⟨hs, ho, hout, herr⟩
    exact ⟨hs, ho, hout, herr⟩
  · rintro ⟨hs, ho, hout, herr⟩
    exact ⟨hs, ho, hout, herr⟩

/-! ## The verdict -/

theorem compare_tests_equal_iff {ta tb : TestSide} :
    (compare_tests ta tb).status = .Equal ↔
      (ta.has_data = false ∧ tb.has_data = false) ∨
        (ta.has_data = true ∧ tb.has_data = true ∧ ShowAlike ta tb) := by
  rw [← test_findings_silent, ← @Findings.report_equal_iff _ "tests"]
  unfold compare_tests
  cases ta.has_data <;> cases tb.has_data <;> simp

theorem compare_tests_added_iff {ta tb : TestSide} :
    (compare_tests ta tb).status = .Added ↔ ta.has_data = false ∧ tb.has_data = true := by
  have hreport := (@Findings.report_status (test_findings ta tb) "tests").1
  unfold compare_tests
  cases ta.has_data <;> cases tb.has_data <;> simp [hreport]

theorem compare_tests_removed_iff {ta tb : TestSide} :
    (compare_tests ta tb).status = .Removed ↔ ta.has_data = true ∧ tb.has_data = false := by
  have hreport := (@Findings.report_status (test_findings ta tb) "tests").2
  unfold compare_tests
  cases ta.has_data <;> cases tb.has_data <;> simp [hreport]

/-- What a bundle holds of its tests. -/
structure TestEvidence where
  index : Load EvidenceIndex
  side : TestSide
deriving DecidableEq

def TestEvidence.read [SerdeJson] (root : FileTree) : Except DiffError TestEvidence := do
  let side ← Side.load root
  let tests ← TestSide.load side
  .ok ⟨side.index, tests⟩

/-- Two bundles hold the same results, and nothing of either is unread. -/
structure SameResults (A B : TestEvidence) : Prop where
  index_a : A.index ≠ .Unparseable
  index_b : B.index ≠ .Unparseable
  outcomes_a : A.side.outcomes ≠ .Unparseable
  outcomes_b : B.side.outcomes ≠ .Unparseable
  summary : A.side.summary = B.side.summary
  rows : (A.side.outcomes.rows.map outcome).Perm (B.side.outcomes.rows.map outcome)

structure VerdictSound (A B : TestEvidence) (verdict : DiffCategoryStatus → Prop) : Prop where
  equal : verdict .Equal → SameResults A B
  added : verdict .Added → A.side.outcomes ≠ .Unparseable
  removed : verdict .Removed → B.side.outcomes ≠ .Unparseable

/-- Everything by which the results of two bundles may differ can be told from what is
compared. -/
structure Told (A B : TestEvidence) : Prop where
  /-- Without evidence on either side, every file parses. -/
  neither : A.side.has_data = false → B.side.has_data = false →
    A.index ≠ .Unparseable ∧ B.index ≠ .Unparseable ∧
      A.side.outcomes ≠ .Unparseable ∧ B.side.outcomes ≠ .Unparseable
  /-- With evidence on one side, the outcome file of the other parses. -/
  only_b : A.side.has_data = false → B.side.has_data = true → A.side.outcomes ≠ .Unparseable
  only_a : A.side.has_data = true → B.side.has_data = false → B.side.outcomes ≠ .Unparseable
  /-- Two sides with evidence that show the same have an index that parses or none, and
  the same rows of every name. -/
  both : A.side.has_data = true → B.side.has_data = true → ShowAlike A.side B.side →
    A.index ≠ .Unparseable ∧ B.index ≠ .Unparseable ∧
      ∀ name, ((Store.under outcome_key name A.side.outcomes.rows).map outcome).Perm
        ((Store.under outcome_key name B.side.outcomes.rows).map outcome)

theorem outcome_name (row : TestOutcomeRecord) :
    (outcome row).module_path ++ "::" ++ (outcome row).name = outcome_key row := rfl

theorem rows_perm_iff {rows rows' : List TestOutcomeRecord} :
    (rows.map outcome).Perm (rows'.map outcome) ↔
      ∀ name, ((Store.under outcome_key name rows).map outcome).Perm
        ((Store.under outcome_key name rows').map outcome) :=
  Store.map_perm_iff_under (fun o => o.module_path ++ "::" ++ o.name) outcome_name

/-- Without evidence there is neither a summary nor a row. -/
theorem of_has_data_eq_false {side : TestSide} (h : side.has_data = false) :
    side.summary = none ∧ side.outcomes.rows = [] := by
  simp only [TestSide.has_data, Bool.or_eq_false_iff] at h
  obtain ⟨⟨⟨hsummary, hrows⟩, -⟩, -⟩ := h
  refine ⟨Option.not_isSome_iff_eq_none.mp (by simp [hsummary]), ?_⟩
  cases houtcomes : side.outcomes with
  | Ok rows =>
    rw [houtcomes] at hrows
    simpa [Load.rows] using hrows
  | Missing => rfl
  | Unparseable => rfl

theorem OutcomesShowAlike.parsed {oa ob : Load (List TestOutcomeRecord)}
    (h : OutcomesShowAlike oa ob) : oa ≠ .Unparseable ∧ ob ≠ .Unparseable := by
  rcases h with ⟨rfl, rfl⟩ | ⟨ra, rb, rfl, rfl, -⟩
  · simp
  · simp

/-- **The verdict on the tests is sound exactly when their differences are told.** -/
theorem verdict_sound_iff {A B : TestEvidence} :
    VerdictSound A B ((compare_tests A.side B.side).status = ·) ↔ Told A B := by
  constructor
  · intro h
    refine ⟨fun ha hb => ?_, fun ha hb => ?_, fun ha hb => ?_, fun ha hb halike => ?_⟩
    · have hsame := h.equal (compare_tests_equal_iff.mpr (.inl ⟨ha, hb⟩))
      exact ⟨hsame.index_a, hsame.index_b, hsame.outcomes_a, hsame.outcomes_b⟩
    · exact h.added (compare_tests_added_iff.mpr ⟨ha, hb⟩)
    · exact h.removed (compare_tests_removed_iff.mpr ⟨ha, hb⟩)
    · have hsame := h.equal (compare_tests_equal_iff.mpr (.inr ⟨ha, hb, halike⟩))
      exact ⟨hsame.index_a, hsame.index_b, rows_perm_iff.mp hsame.rows⟩
  · intro h
    refine ⟨fun hequal => ?_, fun hadded => ?_, fun hremoved => ?_⟩
    · rcases compare_tests_equal_iff.mp hequal with ⟨ha, hb⟩ | ⟨ha, hb, halike⟩
      · obtain ⟨hia, hib, hoa, hob⟩ := h.neither ha hb
        obtain ⟨hsa, hra⟩ := of_has_data_eq_false ha
        obtain ⟨hsb, hrb⟩ := of_has_data_eq_false hb
        exact ⟨hia, hib, hoa, hob, hsa.trans hsb.symm, by rw [hra, hrb]⟩
      · obtain ⟨hia, hib, hrows⟩ := h.both ha hb halike
        obtain ⟨hoa, hob⟩ := halike.outcomes.parsed
        exact ⟨hia, hib, hoa, hob, halike.summary, rows_perm_iff.mpr hrows⟩
    · obtain ⟨ha, hb⟩ := compare_tests_added_iff.mp hadded
      exact h.only_b ha hb
    · obtain ⟨ha, hb⟩ := compare_tests_removed_iff.mp hremoved
      exact h.only_a ha hb

end Evidence.Diff
