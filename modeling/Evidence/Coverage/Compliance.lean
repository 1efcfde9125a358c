/-
`compliance/` -- the objectives of a crate, and what the evidence says of each.

Every objective of the table is judged on its own, and a report counts the verdicts. What
closes an objective is in `Closes`: nothing else is reported as met (`report_grounded`). More
evidence never lowers a verdict, and a more severe level never raises one and drops no
objective (`report_mono`).
-/
import Evidence.Context.Lookup
import Evidence.Coverage.Thresholds

set_option autoImplicit false

namespace Evidence.Compliance

open Context (Dal AssuranceLevel)
open Coverage (DalCoverageThresholds)

/-! ## Objectives -/

inductive Applicability where
  | NotApplicable
  | Required
  | RequiredWithIndependence
deriving DecidableEq

open Applicability

/-- The applicability at the levels A, B, C and D. -/
abbrev Levels := Applicability × Applicability × Applicability × Applicability

structure Objective where
  id : String
  table : String
  title : String
  applicability : Levels

def Objective.applicability_for (obj : Objective) : Dal → Applicability
  | .A => obj.applicability.1
  | .B => obj.applicability.2.1
  | .C => obj.applicability.2.2.1
  | .D => obj.applicability.2.2.2

/-- Required at every level, with independence at the two most severe. -/
def at_all : Levels :=
  (RequiredWithIndependence, RequiredWithIndependence, Required, Required)

def from_C : Levels :=
  (RequiredWithIndependence, RequiredWithIndependence, Required, NotApplicable)

def from_B : Levels :=
  (RequiredWithIndependence, RequiredWithIndependence, NotApplicable, NotApplicable)

def at_A : Levels := (RequiredWithIndependence, NotApplicable, NotApplicable, NotApplicable)

def of_table (table : String) (objectives : List (String × String × Levels)) : List Objective :=
  objectives.map fun obj => ⟨obj.1, table, obj.2.1, obj.2.2⟩

def OBJECTIVES : List Objective :=
  of_table "Table A-3" [
    ("A3-1", "HLR comply with system requirements", at_all),
    ("A3-2", "HLR are accurate and consistent", at_all),
    ("A3-3", "HLR are compatible with target computer", at_all),
    ("A3-4", "HLR are verifiable", at_all),
    ("A3-5", "HLR conform to standards", at_all),
    ("A3-6", "HLR are traceable to system requirements", at_all),
    ("A3-7", "Algorithms are accurate", from_C)] ++
  of_table "Table A-4" [
    ("A4-1", "LLR comply with HLR", at_all),
    ("A4-2", "LLR are accurate and consistent", at_all),
    ("A4-3", "LLR are compatible with target computer", at_all),
    ("A4-4", "LLR are verifiable", at_all),
    ("A4-5", "LLR conform to standards", at_all),
    ("A4-6", "LLR are traceable to HLR", at_all),
    ("A4-7", "LLR algorithms are accurate", from_C),
    ("A4-8", "LLR are compatible with target", from_C)] ++
  of_table "Table A-5" [
    ("A5-1", "Architecture is compatible with HLR", from_C),
    ("A5-2", "Architecture is consistent", from_C),
    ("A5-3", "Architecture is compatible with target", from_C),
    ("A5-4", "Architecture is verifiable", from_C),
    ("A5-5", "Architecture conforms to standards", from_C)] ++
  of_table "Table A-6" [
    ("A6-1", "Source code complies with LLR", at_all),
    ("A6-2", "Source code complies with architecture", at_all),
    ("A6-3", "Source code is verifiable", from_C),
    ("A6-4", "Source code conforms to standards", at_all),
    ("A6-5", "Source code is traceable to LLR", at_all)] ++
  of_table "Table A-7" [
    ("A7-1", "Executable object code complies with HLR", at_all),
    ("A7-2", "Executable object code is robust with HLR", at_all),
    ("A7-3", "Executable object code complies with LLR", from_C),
    ("A7-4", "Executable object code is robust with LLR", from_B),
    ("A7-5", "Executable object code is compatible with target", at_all),
    ("A7-6", "Test coverage of HLR is achieved", at_all),
    ("A7-7", "Test coverage of LLR is achieved", from_C),
    ("A7-8", "Test coverage of software structure (statement) is achieved", from_C),
    ("A7-9", "Test coverage of software structure (decision) is achieved", from_B),
    ("A7-10", "Test coverage of software structure (MC/DC) is achieved", at_A)]

/-! ## Verdicts -/

inductive ObjectiveStatusKind where
  | Met
  | NotMet
  | Partial
  | NotApplicable
  | ManualReviewRequired
deriving DecidableEq

structure CrateEvidence where
  has_trace_data : Bool
  trace_validation_passed : Bool
  has_test_results : Bool
  tests_passed : Option Bool
  has_per_test_outcomes : Bool
  coverage_statement_percent : Option ℚ
  coverage_branch_percent : Option ℚ
  coverage_disposition : Option String

/-- A status, the evidence files and a note. -/
abbrev Verdict := ObjectiveStatusKind × List String × Option String

inductive CoverageDimension where
  | Statement
  | Branch
deriving DecidableEq

def CoverageDimension.as_str : CoverageDimension → String
  | Statement => "statement"
  | Branch => "branch"

/-- The engineering gates of a level. -/
def coverage_thresholds : Dal → DalCoverageThresholds
  | .D => ⟨none, none⟩
  | .C => ⟨some 90, none⟩
  | .B => ⟨some 95, some 85⟩
  | .A => ⟨some 95, some 90⟩

/-- `format!` of a percentage with two decimals. -/
class PercentDisplay where
  two_decimals : ℚ → String

section Verdicts

variable [PercentDisplay]

def coverage_verdict (observed_percent : Option ℚ) (threshold_percent : Option UInt8)
    (dimension : CoverageDimension) (disposition : Option String) : Verdict :=
  let evidence_files := ["coverage/coverage_summary.json", "coverage/lcov.info"]
  let dim := dimension.as_str
  match observed_percent, threshold_percent with
  | none, _ => (.NotMet, [], some ("no " ++ dim ++ "-coverage data in bundle"))
  | some obs, some min =>
    let shown := PercentDisplay.two_decimals obs
    let gate := toString min.toNat
    if obs < (min.toNat : ℚ) then
      (.Partial, evidence_files, some (dim ++ " coverage " ++ shown ++ "% below " ++ gate ++
        "% engineering gate; uncovered structure requires documented analysis/disposition before " ++
        "the objective can close"))
    else
      match dimension, disposition with
      | .Statement, some _ =>
        (.Met, evidence_files, some (dim ++ " coverage " ++ shown ++ "% ≥ " ++ gate ++
          "% engineering gate; uncovered-structure analysis/disposition recorded"))
      | .Statement, none =>
        (.ManualReviewRequired, evidence_files, some (dim ++ " coverage " ++ shown ++ "% ≥ " ++
          gate ++ "% engineering gate; the percentage is an engineering metric — the objective " ++
          "closes only with documented analysis/disposition of uncovered structure and tool " ++
          "qualification evidence"))
      | .Branch, disposition =>
        (.ManualReviewRequired, evidence_files, some ("LLVM branch coverage " ++ shown ++ "% ≥ " ++
          gate ++ "% engineering gate approximates decision coverage; approximate evidence " ++
          "cannot close the objective" ++
          (if disposition.isSome then " (disposition recorded)" else "") ++
          " — independent review of the approximation plus tool qualification evidence required"))
  | some obs, none =>
    (.ManualReviewRequired, evidence_files, some (dim ++ " coverage " ++
      PercentDisplay.two_decimals obs ++ "% (no engineering gate applies at this level); a " ++
      "percentage alone cannot close the objective — analysis/disposition of uncovered structure " ++
      "and tool qualification review required"))

def manual_review (note : String) : Verdict := (.ManualReviewRequired, [], some note)

/-- The traceability objectives A3-6 and A4-6, about the requirements of a file. -/
def link_status (file : String) (evidence : CrateEvidence) : Verdict :=
  if evidence.has_trace_data && evidence.trace_validation_passed then
    (.Met, [file, "trace/matrix.md"], none)
  else if evidence.has_trace_data then
    (.Partial, [file], some "trace validation did not pass")
  else (.NotMet, [], some "no trace data available")

/-- The traceability objective A6-5. -/
def source_link_status (evidence : CrateEvidence) : Verdict :=
  if evidence.has_trace_data && evidence.trace_validation_passed then
    (.Partial, ["trace/llr.toml"],
      some "trace links exist but source-level mapping requires test_selector")
  else (.NotMet, [], some "no trace data available")

def test_log : String := "tests/cargo_test_stdout.txt"

/-- The test objectives: what passing results show, what failing ones do, and else the note of
their absence. -/
def test_status (evidence : CrateEvidence) (passing : Verdict) (absent : String) : Verdict :=
  if evidence.tests_passed = some true && evidence.has_test_results then passing
  else if evidence.tests_passed = some false then
    (.NotMet, [test_log], some "tests ran but at least one failed")
  else (.NotMet, [], some absent)

def a7_1_2_hlr_testing (evidence : CrateEvidence) : Verdict :=
  test_status evidence (.Partial, [test_log], some
    "aggregate test results available; per-requirement mapping requires test_selector")
    "no test results in bundle"

def a7_3_4_llr_testing (evidence : CrateEvidence) : Verdict :=
  test_status evidence
    (if evidence.has_per_test_outcomes then
      (.Met, ["tests/test_outcomes.jsonl", test_log],
        some "per-test outcome atoms captured in test_outcomes.jsonl")
    else (.Partial, [test_log], some
      "aggregate test results available; per-LLR mapping requires test_selector"))
    "no test results in bundle"

def a7_5_target_compatibility (evidence : CrateEvidence) : Verdict :=
  test_status evidence (.Met, [test_log, "env.json"], none) "no passing test results"

/-- A7-6 and A7-7, of the requirements of a layer. -/
def test_coverage (layer : String) (files : List String) (evidence : CrateEvidence) : Verdict :=
  if evidence.has_trace_data && evidence.has_test_results && evidence.trace_validation_passed then
    (.Partial, files, some ("traceability matrix shows " ++ layer ++
      "-to-test links; completeness requires manual review"))
  else (.NotMet, [], none)

def a7_6_hlr_test_coverage : CrateEvidence → Verdict :=
  test_coverage "HLR" ["trace/matrix.md", test_log]

def a7_7_llr_test_coverage : CrateEvidence → Verdict := test_coverage "LLR" ["trace/matrix.md"]

def a7_8_statement_coverage (dal : Dal) (evidence : CrateEvidence) : Verdict :=
  coverage_verdict evidence.coverage_statement_percent (coverage_thresholds dal).statement_percent
    .Statement evidence.coverage_disposition

def a7_9_decision_coverage (dal : Dal) (evidence : CrateEvidence) : Verdict :=
  coverage_verdict evidence.coverage_branch_percent (coverage_thresholds dal).branch_percent
    .Branch evidence.coverage_disposition

def a7_10_mcdc_coverage : Verdict := (.NotMet, [], some "MC/DC analysis not yet supported")

def determine_a7_status (obj : Objective) (dal : Dal) (evidence : CrateEvidence) : Verdict :=
  if obj.id = "A7-1" ∨ obj.id = "A7-2" then a7_1_2_hlr_testing evidence
  else if obj.id = "A7-3" ∨ obj.id = "A7-4" then a7_3_4_llr_testing evidence
  else if obj.id = "A7-5" then a7_5_target_compatibility evidence
  else if obj.id = "A7-6" then a7_6_hlr_test_coverage evidence
  else if obj.id = "A7-7" then a7_7_llr_test_coverage evidence
  else if obj.id = "A7-8" then a7_8_statement_coverage dal evidence
  else if obj.id = "A7-9" then a7_9_decision_coverage dal evidence
  else if obj.id = "A7-10" then a7_10_mcdc_coverage
  else (.NotMet, [], none)

def determine_objective_status (obj : Objective) (dal : Dal) (evidence : CrateEvidence) :
    Verdict :=
  if obj.table = "Table A-3" then
    if obj.id = "A3-6" then link_status "trace/hlr.toml" evidence
    else manual_review "reviewer must confirm HLR correctness / completeness"
  else if obj.table = "Table A-4" then
    if obj.id = "A4-6" then link_status "trace/llr.toml" evidence
    else manual_review "reviewer must confirm LLR correctness / completeness"
  else if obj.table = "Table A-5" then
    manual_review "reviewer must confirm architecture consistency"
  else if obj.table = "Table A-6" then
    if obj.id = "A6-5" then source_link_status evidence
    else manual_review "reviewer or static-analysis tool must judge source compliance"
  else if obj.table = "Table A-7" then determine_a7_status obj dal evidence
  else (.NotMet, [], none)

/-! ## The report -/

structure ObjectiveStatus where
  objective_id : String
  table : String
  title : String
  applicable : Bool
  applicability_detail : String
  status : ObjectiveStatusKind
  evidence_refs : List String
  note : Option String

structure ComplianceSummary where
  total_objectives : ℕ
  applicable : ℕ
  met : ℕ
  not_met : ℕ
  partially_met : ℕ
  manual_review_required : ℕ

structure ComplianceReport where
  crate_name : String
  dal : String
  objectives : List ObjectiveStatus
  summary : ComplianceSummary

def detail : Applicability → String
  | NotApplicable => "not_applicable"
  | Required => "required"
  | RequiredWithIndependence => "required_with_independence"

def as_dal : AssuranceLevel → Option Dal
  | .DalA => some .A
  | .DalB => some .B
  | .DalC => some .C
  | .DalD => some .D
  | .Qm | .Unclassified => none

def effective_policy_dal (level : AssuranceLevel) : Dal := (as_dal level).getD .D

/-- What the report says of one objective. -/
def judged (dal : Dal) (evidence : CrateEvidence) (obj : Objective) : ObjectiveStatus :=
  let app := obj.applicability_for dal
  let verdict : Verdict :=
    if app = NotApplicable then (.NotApplicable, [], none)
    else determine_objective_status obj dal evidence
  { objective_id := obj.id, table := obj.table, title := obj.title
    applicable := app ≠ NotApplicable, applicability_detail := detail app
    status := verdict.1, evidence_refs := verdict.2.1, note := verdict.2.2 }

def count (s : ComplianceSummary) (row : ObjectiveStatus) : ComplianceSummary :=
  let s := if row.applicable then { s with applicable := s.applicable + 1 } else s
  match row.status with
  | .Met => { s with met := s.met + 1 }
  | .NotMet => { s with not_met := s.not_met + 1 }
  | .Partial => { s with partially_met := s.partially_met + 1 }
  | .ManualReviewRequired => { s with manual_review_required := s.manual_review_required + 1 }
  | .NotApplicable => s

def generate_compliance_report (crate_name : String) (level : AssuranceLevel)
    (evidence : CrateEvidence) : ComplianceReport :=
  let objectives := OBJECTIVES.map (judged (effective_policy_dal level) evidence)
  { crate_name := crate_name, dal := level.display, objectives := objectives
    summary := objectives.foldl count ⟨OBJECTIVES.length, 0, 0, 0, 0, 0⟩ }

/-! ## What closes an objective -/

/-- What the evidence must show for an objective to be met. -/
def Closes (dal : Dal) (e : CrateEvidence) (id : String) : Prop :=
  (id ∈ ["A3-6", "A4-6"] ∧ e.has_trace_data = true ∧ e.trace_validation_passed = true) ∨
  (id ∈ ["A7-3", "A7-4", "A7-5"] ∧ e.tests_passed = some true ∧ e.has_test_results = true ∧
    (id ≠ "A7-5" → e.has_per_test_outcomes = true)) ∨
  (id = "A7-8" ∧ e.coverage_disposition.isSome = true ∧
    ∃ obs ∈ e.coverage_statement_percent, ∃ min ∈ (coverage_thresholds dal).statement_percent,
      (min.toNat : ℚ) ≤ obs)

theorem coverage_status (obs : ℚ) (min : UInt8) (dimension : CoverageDimension)
    (disposition : Option String) :
    (coverage_verdict (some obs) (some min) dimension disposition).1 =
      if obs < (min.toNat : ℚ) then .Partial
      else if dimension = .Statement ∧ disposition.isSome = true then .Met
      else .ManualReviewRequired := by
  cases dimension <;> cases disposition <;> simp only [coverage_verdict] <;> split_ifs <;> simp_all

theorem coverage_met_iff {observed : Option ℚ} {threshold : Option UInt8}
    {dimension : CoverageDimension} {disposition : Option String} :
    (coverage_verdict observed threshold dimension disposition).1 = .Met ↔
      dimension = .Statement ∧ disposition.isSome = true ∧
        ∃ obs ∈ observed, ∃ min ∈ threshold, (min.toNat : ℚ) ≤ obs := by
  cases observed with
  | none => simp [coverage_verdict]
  | some obs =>
    cases threshold with
    | none => simp [coverage_verdict]
    | some min =>
      rw [coverage_status]
      split_ifs <;> simp_all

section Leaves

variable {e : CrateEvidence}

omit [PercentDisplay]

theorem link_met_iff {file : String} : (link_status file e).1 = .Met ↔
    e.has_trace_data = true ∧ e.trace_validation_passed = true := by
  unfold link_status
  split_ifs <;> simp_all

theorem source_link_ne_met : (source_link_status e).1 ≠ .Met := by
  unfold source_link_status
  split_ifs <;> simp

theorem test_met_iff {passing : Verdict} {absent : String} :
    (test_status e passing absent).1 = .Met ↔
      e.tests_passed = some true ∧ e.has_test_results = true ∧ passing.1 = .Met := by
  unfold test_status
  split_ifs <;> simp_all

theorem llr_testing_met_iff : (a7_3_4_llr_testing e).1 = .Met ↔ e.tests_passed = some true ∧
    e.has_test_results = true ∧ e.has_per_test_outcomes = true := by
  rw [a7_3_4_llr_testing, test_met_iff]
  split_ifs <;> simp_all

theorem test_coverage_ne_met {layer : String} {files : List String} :
    (test_coverage layer files e).1 ≠ .Met := by
  unfold test_coverage
  split_ifs <;> simp

end Leaves

theorem determine_met_iff (dal : Dal) (e : CrateEvidence) : ∀ obj ∈ OBJECTIVES,
    ((determine_objective_status obj dal e).1 = .Met ↔ Closes dal e obj.id) := by
  simp only [OBJECTIVES, of_table, List.map_cons, List.map_nil, List.cons_append, List.nil_append,
    List.forall_mem_cons]
  simp [determine_objective_status, determine_a7_status, manual_review, Closes, link_met_iff,
    source_link_ne_met, a7_1_2_hlr_testing, llr_testing_met_iff, a7_5_target_compatibility,
    test_met_iff, a7_6_hlr_test_coverage, a7_7_llr_test_coverage, test_coverage_ne_met,
    a7_8_statement_coverage, a7_9_decision_coverage, a7_10_mcdc_coverage, coverage_met_iff]

/-- What a report calls met are the applicable objectives that the evidence closes. -/
def ComplianceReport.Grounded (report : ComplianceReport) (dal : Dal) (e : CrateEvidence) : Prop :=
  ∀ row ∈ report.objectives,
    (row.status = .Met ↔ row.applicable = true ∧ Closes dal e row.objective_id)

def ObjectiveStatusKind.rank : ObjectiveStatusKind → ℕ
  | NotApplicable => 0
  | NotMet => 1
  | Partial => 2
  | ManualReviewRequired => 3
  | Met => 4

/-- The derived order of levels. -/
def severity : Dal → ℕ
  | .D => 0
  | .C => 1
  | .B => 2
  | .A => 3

structure CrateEvidence.Extends (e e' : CrateEvidence) : Prop where
  trace : e.has_trace_data = true → e'.has_trace_data = true
  validated : e.trace_validation_passed = true → e'.trace_validation_passed = true
  results : e.has_test_results = true → e'.has_test_results = true
  tests : e.tests_passed = some true → e'.tests_passed = some true
  outcomes : e.has_per_test_outcomes = true → e'.has_per_test_outcomes = true
  statement : ∀ obs ∈ e.coverage_statement_percent,
    ∃ obs' ∈ e'.coverage_statement_percent, obs ≤ obs'
  branch : ∀ obs ∈ e.coverage_branch_percent, ∃ obs' ∈ e'.coverage_branch_percent, obs ≤ obs'
  disposition : e.coverage_disposition.isSome = true → e'.coverage_disposition.isSome = true

/-- A verdict on an applicable objective, and one that is at least as good. -/
def Below (v v' : Verdict) : Prop := 0 < v.1.rank ∧ v.1.rank ≤ v'.1.rank

omit [PercentDisplay] in
theorem Below.ite {P : Prop} [Decidable P] {a a' b b' : Verdict} (ha : P → Below a a')
    (hb : ¬ P → Below b b') : Below (if P then a else b) (if P then a' else b') := by
  split_ifs with hP
  · exact ha hP
  · exact hb hP

/-- A gate that is no lower, on a percentage that is no higher; where a disposition closes the
objective, there is a gate at both levels. -/
theorem coverage_below {observed observed' : Option ℚ} {threshold threshold' : Option UInt8}
    {dimension : CoverageDimension} {disposition disposition' : Option String}
    (hobserved : ∀ obs ∈ observed, ∃ obs' ∈ observed', obs ≤ obs')
    (hgate : ∀ min ∈ threshold', ∃ min' ∈ threshold, min.toNat ≤ min'.toNat)
    (hdisposition : disposition.isSome = true → disposition'.isSome = true)
    (hclosed : dimension = .Statement → threshold'.isSome = true) :
    Below (coverage_verdict observed threshold dimension disposition)
      (coverage_verdict observed' threshold' dimension disposition') := by
  have hfew : ∀ (obs : ℚ) (min : Option UInt8) (disposition : Option String),
      1 < (coverage_verdict (some obs) min dimension disposition).1.rank := by
    intro obs min disposition
    cases min with
    | none => exact (by decide : 1 < ObjectiveStatusKind.ManualReviewRequired.rank)
    | some min =>
      rw [coverage_status]
      split_ifs <;> decide
  cases observed with
  | none =>
    refine ⟨Nat.one_pos, ?_⟩
    cases observed' with
    | none => exact Nat.le_refl 1
    | some obs' => exact (hfew obs' threshold' disposition').le
  | some obs =>
    obtain ⟨obs', rfl, hle⟩ := hobserved obs rfl
    refine ⟨Nat.zero_lt_of_lt (hfew obs threshold disposition), ?_⟩
    cases threshold' with
    | none =>
      -- no gate at the less severe level: only of branches, which are never met
      have hbranch : dimension ≠ .Statement := fun h => Bool.false_ne_true (hclosed h)
      cases threshold with
      | none => exact Nat.le_refl _
      | some min =>
        have hreview : (coverage_verdict (some obs') none dimension disposition').1 =
            .ManualReviewRequired := rfl
        rw [coverage_status, hreview, if_neg fun h : _ ∧ _ => hbranch h.1]
        split_ifs <;> decide
    | some min =>
      obtain ⟨min', rfl, hmin⟩ := hgate min rfl
      by_cases hbelow : obs < (min'.toNat : ℚ)
      · rw [coverage_status, if_pos hbelow]
        exact hfew obs' (some min) disposition'
      · have hreached : ¬ obs' < (min.toNat : ℚ) :=
          not_lt.mpr (((Nat.cast_le.mpr hmin).trans (not_lt.mp hbelow)).trans hle)
        rw [coverage_status, coverage_status, if_neg hbelow, if_neg hreached]
        split_ifs with hmet hmet'
        · exact Nat.le_refl _
        · exact absurd ⟨hmet.1, hdisposition hmet.2⟩ hmet'
        · decide
        · exact Nat.le_refl _

section Leaves

variable {e e' : CrateEvidence}

omit [PercentDisplay]

theorem link_below (file : String) (h : e.Extends e') :
    Below (link_status file e) (link_status file e') := by
  have htrace := h.trace
  have hvalid := h.validated
  unfold Below link_status
  split_ifs <;> simp_all [ObjectiveStatusKind.rank]

theorem source_link_below (h : e.Extends e') :
    Below (source_link_status e) (source_link_status e') := by
  have htrace := h.trace
  have hvalid := h.validated
  unfold Below source_link_status
  split_ifs <;> simp_all [ObjectiveStatusKind.rank]

theorem test_below {passing passing' : Verdict} (absent : String) (h : e.Extends e')
    (hpassing : Below passing passing') :
    Below (test_status e passing absent) (test_status e' passing' absent) := by
  have htests := h.tests
  have hresults := h.results
  have hpositive := hpassing.1.trans_le hpassing.2
  unfold Below test_status at *
  split_ifs <;> simp_all [ObjectiveStatusKind.rank, Nat.succ_le_iff]

theorem test_coverage_below (layer : String) (files : List String) (h : e.Extends e') :
    Below (test_coverage layer files e) (test_coverage layer files e') := by
  have htrace := h.trace
  have hvalid := h.validated
  have hresults := h.results
  unfold Below test_coverage
  split_ifs <;> simp_all [ObjectiveStatusKind.rank]

end Leaves

omit [PercentDisplay] in
theorem applicable_mono {obj : Objective} (hobj : obj ∈ OBJECTIVES) {dal dal' : Dal}
    (hdal : severity dal' ≤ severity dal) (happ' : obj.applicability_for dal' ≠ NotApplicable) :
    obj.applicability_for dal ≠ NotApplicable := by
  have hall : ∀ dal, dal ∈ [Dal.D, .C, .B, .A] := by
    intro dal
    cases dal <;> decide
  have htable : ∀ obj ∈ OBJECTIVES, ∀ dal ∈ [Dal.D, .C, .B, .A], ∀ dal' ∈ [Dal.D, .C, .B, .A],
      severity dal' ≤ severity dal → obj.applicability_for dal' ≠ NotApplicable →
        obj.applicability_for dal ≠ NotApplicable := by
    decide +kernel
  exact htable obj hobj dal (hall dal) dal' (hall dal') hdal happ'

omit [PercentDisplay] in
theorem gates_rise {dal dal' : Dal} (hdal : severity dal' ≤ severity dal) :
    (∀ min ∈ (coverage_thresholds dal').statement_percent,
      ∃ min' ∈ (coverage_thresholds dal).statement_percent, min.toNat ≤ min'.toNat) ∧
    ∀ min ∈ (coverage_thresholds dal').branch_percent,
      ∃ min' ∈ (coverage_thresholds dal).branch_percent, min.toNat ≤ min'.toNat := by
  have hle : ∀ {gate gate' : Option UInt8}, gate.elim 0 UInt8.toNat ≤ gate'.elim 0 UInt8.toNat →
      (gate.isSome = true → gate'.isSome = true) →
        ∀ min ∈ gate, ∃ min' ∈ gate', min.toNat ≤ min'.toNat := by
    rintro _ (_ | min') hle hsome min rfl
    · cases hsome rfl
    · exact ⟨min', rfl, hle⟩
  constructor <;> refine hle ?_ ?_ <;> revert hdal <;> cases dal <;> cases dal' <;> decide

/-- There is a statement gate wherever A7-8 applies. -/
theorem determine_below {e e' : CrateEvidence} (h : e.Extends e') {dal dal' : Dal}
    (hdal : severity dal' ≤ severity dal) {obj : Objective} (hobj : obj ∈ OBJECTIVES)
    (happ' : obj.applicability_for dal' ≠ NotApplicable) :
    Below (determine_objective_status obj dal e) (determine_objective_status obj dal' e') := by
  have hreview : ∀ note, Below (manual_review note) (manual_review note) := fun _ =>
    ⟨Nat.succ_pos 2, Nat.le_refl _⟩
  have hunmet : ∀ note, Below (.NotMet, [], note) (.NotMet, [], note) := fun _ =>
    ⟨Nat.one_pos, Nat.le_refl _⟩
  refine .ite (fun _ => .ite (fun _ => link_below _ h) fun _ => hreview _) fun _ =>
    .ite (fun _ => .ite (fun _ => link_below _ h) fun _ => hreview _) fun _ =>
    .ite (fun _ => hreview _) fun _ =>
    .ite (fun _ => .ite (fun _ => source_link_below h) fun _ => hreview _) fun _ =>
    .ite (fun _ => ?_) fun _ => hunmet _
  refine .ite (fun _ => test_below _ h ⟨by decide, Nat.le_refl _⟩) fun _ =>
    .ite (fun _ => test_below _ h ?_) fun _ =>
    .ite (fun _ => test_below _ h ⟨by decide, Nat.le_refl _⟩) fun _ =>
    .ite (fun _ => test_coverage_below _ _ h) fun _ =>
    .ite (fun _ => test_coverage_below _ _ h) fun _ =>
    .ite (fun hid => coverage_below h.statement (gates_rise hdal).1 h.disposition fun _ => ?_)
      fun _ =>
    .ite (fun _ => coverage_below h.branch (gates_rise hdal).2 h.disposition fun hdim => ?_) fun _ =>
    .ite (fun _ => hunmet _) fun _ => hunmet _
  · have houtcomes := h.outcomes
    unfold Below
    split_ifs <;> simp_all [ObjectiveStatusKind.rank]
  · have htable : ∀ obj ∈ OBJECTIVES, obj.id = "A7-8" →
        obj.applicability_for .D = NotApplicable := by
      decide +kernel
    cases dal' with
    | D => exact absurd (htable obj hobj hid) happ'
    | A | B | C => rfl
  · cases hdim

/-- **More evidence never lowers a verdict, and a more severe level never raises one**, on the
objectives that apply at the less severe level; and those apply at the more severe one. -/
theorem report_mono {crate_name : String} {level level' : AssuranceLevel} {e e' : CrateEvidence}
    (hlevel : severity (effective_policy_dal level') ≤ severity (effective_policy_dal level))
    (h : e.Extends e') :
    List.Forall₂ (fun row row' => row.objective_id = row'.objective_id ∧
        (row'.applicable = true → row.applicable = true ∧ row.status.rank ≤ row'.status.rank))
      (generate_compliance_report crate_name level e).objectives
      (generate_compliance_report crate_name level' e').objectives := by
  refine List.forall₂_map_left_iff.mpr (List.forall₂_map_right_iff.mpr ?_)
  refine List.forall₂_same.mpr fun obj hobj => ⟨rfl, fun happ' => ?_⟩
  have happ' := of_decide_eq_true happ'
  have happ := applicable_mono hobj hlevel happ'
  refine ⟨decide_eq_true happ, ?_⟩
  simp only [judged, if_neg happ, if_neg happ']
  exact (determine_below h hlevel hobj happ').2

def no_evidence : CrateEvidence := ⟨false, false, false, none, false, none, none, none⟩

/-- A trace that was validated. -/
def traced : CrateEvidence := ⟨true, true, false, none, false, none, none, none⟩

@[reducible] def whole_percents : PercentDisplay := ⟨fun percent => toString percent.floor⟩

omit [PercentDisplay] in
/-- `report_mono` for a trace at the least severe level, and nothing at the most severe one. -/
theorem report_mono_traced :
    List.Forall₂ (fun row row' : ObjectiveStatus => row.objective_id = row'.objective_id ∧
        (row'.applicable = true → row.applicable = true ∧ row.status.rank ≤ row'.status.rank))
      (@generate_compliance_report whole_percents "util" .DalA no_evidence).objectives
      (@generate_compliance_report whole_percents "util" .Unclassified traced).objectives := by
  refine @report_mono whole_percents "util" .DalA .Unclassified no_evidence traced (by decide) ?_
  constructor <;> simp [no_evidence, traced]

/-! ## The summary -/

/-- How many rows there are of each kind. -/
def counted (rows : List ObjectiveStatus) : ComplianceSummary where
  total_objectives := rows.length
  applicable := rows.countP (·.applicable)
  met := rows.countP (·.status = .Met)
  not_met := rows.countP (·.status = .NotMet)
  partially_met := rows.countP (·.status = .Partial)
  manual_review_required := rows.countP (·.status = .ManualReviewRequired)

omit [PercentDisplay] in
theorem foldl_count (total : ℕ) (rows : List ObjectiveStatus) :
    rows.foldl count ⟨total, 0, 0, 0, 0, 0⟩ = { counted rows with total_objectives := total } := by
  induction rows using List.reverseRecOn with
  | nil => rfl
  | append_singleton rows row ih =>
    rw [List.foldl_append, ih, List.foldl_cons, List.foldl_nil]
    cases hstatus : row.status <;> cases happ : row.applicable <;>
      simp [count, counted, hstatus, happ]

omit [PercentDisplay] in
theorem counted_applicable {rows : List ObjectiveStatus}
    (h : ∀ row ∈ rows, (row.applicable = true ↔ row.status ≠ .NotApplicable)) :
    (counted rows).applicable = (counted rows).met + (counted rows).not_met +
      (counted rows).partially_met + (counted rows).manual_review_required := by
  induction rows with
  | nil => rfl
  | cons row rows ih =>
    obtain ⟨hrow, hrest⟩ := List.forall_mem_cons.mp h
    have ih := ih hrest
    cases hstatus : row.status <;> simp_all [counted] <;> omega

omit [PercentDisplay] in
theorem CrateEvidence.Extends.refl (e : CrateEvidence) : e.Extends e :=
  ⟨id, id, id, id, id, fun obs h => ⟨obs, h, le_refl obs⟩, fun obs h => ⟨obs, h, le_refl obs⟩, id⟩

structure ComplianceReport.Consistent (report : ComplianceReport) : Prop where
  counts : report.summary = counted report.objectives
  parts : report.summary.applicable = report.summary.met + report.summary.not_met +
    report.summary.partially_met + report.summary.manual_review_required

/-- **The summary of a report agrees with its rows.** -/
theorem report_consistent (crate_name : String) (level : AssuranceLevel) (e : CrateEvidence) :
    (generate_compliance_report crate_name level e).Consistent := by
  have hcounted : (generate_compliance_report crate_name level e).summary =
      counted (generate_compliance_report crate_name level e).objectives := by
    refine (foldl_count _ _).trans ?_
    rw [counted, counted, ← List.length_map (judged (effective_policy_dal level) e)]
    rfl
  refine ⟨hcounted, ?_⟩
  rw [hcounted]
  refine counted_applicable fun row hrow => ?_
  obtain ⟨obj, hobj, rfl⟩ := List.mem_map.mp hrow
  by_cases happ : obj.applicability_for (effective_policy_dal level) = NotApplicable
  · simp [judged, happ]
  · have hpositive := (determine_below (.refl e) (Nat.le_refl _) hobj happ).1
    simp only [judged, happ, if_false, ne_eq, not_false_eq_true, decide_true, true_iff]
    intro hnone
    rw [hnone] at hpositive
    exact absurd hpositive (by decide)

end Verdicts

end Evidence.Compliance
