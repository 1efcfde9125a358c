/-
`requirement_report.rs` and its builders -- one diagnostic for every row.

A test's verdict comes from its own row and the outcomes of the run. A requirement
is rolled up from the rows its child list names: a structural gap of its own comes
first, then an empty child list, and then the statuses of the children, of which a
gap wins over a pass and a pass over a skip. The layers are built bottom-up, each
from the statuses of the one below.
-/
import Evidence.Bundle.TestSummary
import Evidence.Diagnostic
import Evidence.Trace.ReportView
import Evidence.Trace.Validation

set_option autoImplicit false

namespace Evidence.Trace

open Corpus Check
open Evidence.Bundle (Outcomes TestOutcome)

/-! ## Statuses -/

inductive RequirementStatus where
  | Pass
  | Gap
  | Skip
deriving DecidableEq

namespace RequirementStatus

def code : RequirementStatus → String
  | Pass => "REQ_PASS"
  | Gap => "REQ_GAP"
  | Skip => "REQ_SKIP"

def severity : RequirementStatus → Severity
  | Pass => .Info
  | Gap => .Error
  | Skip => .Warning

theorem code_inj {s t : RequirementStatus} (h : s.code = t.code) : s = t := by
  revert h
  cases s <;> cases t <;> decide

end RequirementStatus

structure TestStatus where
  status : RequirementStatus
  root_cause_uid : Option String
deriving DecidableEq

/-- The statuses of one layer, by uid. -/
abbrev Statuses := Store (Prod.fst : String × TestStatus → String)

/-- What a builder returns: the status of a row, and its diagnostic. -/
abbrev Verdict := TestStatus × Diagnostic

def make_diag (status : RequirementStatus) (message : String) (location : Option Location)
    (fix_hint : Option FixHint) (root_cause_uid : Option String) : Diagnostic where
  code := status.code
  severity := status.severity
  message := message
  location := location
  fix_hint := fix_hint
  root_cause_uid := root_cause_uid

/-- A diagnostic about an entry whose only locator is its uid, or its uid and file. -/
def entry_location (file : Option String) (uid : String) : Location := ⟨file, none, some uid⟩

/-! ## Test rows -/

section Tests

/-- `str::rsplit(pattern).next()`: what follows the last occurrence of a pattern. -/
def after_last (pattern text : List Char) : List Char :=
  (text.tails.filterMap (strip_text pattern)).getLast?.getD text

/-- Whether an outcome key ends in a selector. -/
def ends_with_fn (key selector : String) : Bool :=
  if (split_once "::".toList selector.toList).isSome then
    key == selector || ("::" ++ selector).toList.isSuffixOf key.toList
  else after_last "::".toList key.toList == selector.toList

/-- The outcomes whose key a selector matches, in key order. -/
def matching_outcomes (outcomes : Outcomes) (selector : String) : List (String × TestOutcome) :=
  outcomes.values.filter fun outcome => outcome.1 == selector || ends_with_fn outcome.1 selector

/-- `values.join(separator)`. -/
def join (separator : String) (values : List String) : String := separator.intercalate values

variable (t : ReportTest)

def test_toml_path : String := "tests[id=" ++ t.id ++ "]"

def test_location : Location := ⟨some "tests.toml", some (test_toml_path t), some t.uid⟩

/-- A repair of the test's own entry. -/
def test_fix (key value_stub : String) : FixHint :=
  .AddTomlKey "tests.toml" (test_toml_path t) key value_stub

/-- The gap of a test is its own root cause. -/
def test_gap (message : String) (fix_hint : Option FixHint) : Verdict :=
  (⟨.Gap, some t.uid⟩, make_diag .Gap message (some (test_location t)) fix_hint none)

def unresolved_gap : Verdict :=
  let selectors := join ", " t.selectors
  test_gap t ("TEST " ++ t.id ++ " selector(s) [" ++ selectors ++
      "] did not resolve to a real #[test] fn")
    (some (test_fix t "test_selector"
      ("<fully-qualified selector; [" ++ selectors ++ "] did not resolve>")))

def missing_selector_gap : Verdict :=
  test_gap t ("TEST " ++ t.id ++ " has no `test_selector` or `test_selectors`")
    (some (test_fix t "test_selector" "<crate>::<module>::<fn_name>"))

def orphan_gap : Verdict :=
  test_gap t ("TEST " ++ t.id ++ " is orphaned with no LLR verification edge")
    (some (test_fix t "traces_to" "[\"<LLR-uuid>\"]"))

def selector_did_not_run (selector : String) : Verdict :=
  test_gap t ("TEST " ++ t.id ++ ": selector '" ++ selector ++
    "' did not run in this session (not in cargo test output)") none

def matched_selector (matched : String × TestOutcome) : Verdict :=
  let (status, root_cause_uid, message) : RequirementStatus × Option String × String :=
    match matched.2 with
    | .Passed => (.Pass, none, "TEST " ++ t.id ++ " passed (" ++ matched.1 ++ ")")
    | .Failed => (.Gap, some t.uid, "TEST " ++ t.id ++ " failed in this run (" ++ matched.1 ++ ")")
    | .Ignored => (.Skip, none, "TEST " ++ t.id ++ " was #[ignore]'d in this run")
  (⟨status, root_cause_uid⟩,
    make_diag status message (some (entry_location none t.uid)) none none)

def ambiguous_selector (selector : String) (keys : List String) : Verdict :=
  let matched := join ", " keys
  test_gap t ("TEST " ++ t.id ++ ": selector '" ++ selector ++ "' is ambiguous — matches " ++
      decimal keys.length ++ " outcome keys: [" ++ matched ++ "]")
    (some (test_fix t "test_selector" ("<one of: " ++ matched ++ ">")))

def single_selector_status (selector : String) (outcomes : Outcomes) : Verdict :=
  match matching_outcomes outcomes selector with
  | [] => selector_did_not_run t selector
  | [only_match] => matched_selector t only_match
  | many => ambiguous_selector t selector (many.map Prod.fst)

/-! ## Several selectors -/

/-- What became of the selectors of one test. -/
structure SelectorSummary where
  unmatched : List String
  failed : List String
  ignored : List String
  ambiguous : List String

/-- File one selector. -/
def SelectorSummary.add (outcomes : Outcomes) (summary : SelectorSummary) (sel : String) :
    SelectorSummary :=
  match matching_outcomes outcomes sel with
  | [] => { summary with unmatched := summary.unmatched ++ [sel] }
  | [only] =>
    match only.2 with
    | .Passed => summary
    | .Failed => { summary with failed := summary.failed ++ [sel] }
    | .Ignored => { summary with ignored := summary.ignored ++ [sel] }
  | many =>
    { summary with
      ambiguous := summary.ambiguous ++
        [sel ++ " matches [" ++ join ", " (many.map Prod.fst) ++ "]"] }

def collect_summary (selectors : List String) (outcomes : Outcomes) : SelectorSummary :=
  selectors.foldl (SelectorSummary.add outcomes) ⟨[], [], [], []⟩

/-- A test of several selectors: a failure wins over an ambiguity, that over a selector
that did not run, and that over an ignored one. -/
def multi_selector_status (selectors : List String) (outcomes : Outcomes) : Verdict :=
  let summary := collect_summary selectors outcomes
  let in_file := some "tests.toml"
  if !summary.failed.isEmpty then
    (⟨.Gap, some t.uid⟩, make_diag .Gap
      ("TEST " ++ t.id ++ " failed in this run (selectors failed: [" ++
        join ", " summary.failed ++ "])")
      (some (entry_location none t.uid)) none none)
  else if !summary.ambiguous.isEmpty then
    (⟨.Gap, some t.uid⟩, make_diag .Gap
      ("TEST " ++ t.id ++ " has ambiguous selector(s): " ++ join "; " summary.ambiguous)
      (some (entry_location in_file t.uid))
      (some (test_fix t "test_selectors" "<fully-qualified selectors>")) none)
  else if !summary.unmatched.isEmpty then
    (⟨.Gap, some t.uid⟩, make_diag .Gap
      ("TEST " ++ t.id ++ ": selector(s) did not run in this session (not in cargo test output): [" ++
        join ", " summary.unmatched ++ "]")
      (some (entry_location in_file t.uid)) none none)
  else if !summary.ignored.isEmpty then
    (⟨.Skip, none⟩, make_diag .Skip
      ("TEST " ++ t.id ++ " skipped — some selectors are #[ignore]'d: [" ++
        join ", " summary.ignored ++ "]")
      (some (entry_location none t.uid)) none none)
  else
    (⟨.Pass, none⟩, make_diag .Pass
      ("TEST " ++ t.id ++ " passed (" ++ decimal selectors.length ++
        " selectors resolved and passed)")
      (some (entry_location none t.uid)) none none)

def build_test_diag (outcomes : Outcomes) (unresolved_ids : List String) : Verdict :=
  match t.link_gap with
  | some message => test_gap t message none
  | none =>
    if unresolved_ids.contains t.id then unresolved_gap t
    else if t.selectors.isEmpty then missing_selector_gap t
    else if t.traces_to.isEmpty then orphan_gap t
    else
      match t.selectors with
      | [selector] => single_selector_status t selector outcomes
      | selectors => multi_selector_status t selectors outcomes

end Tests

/-! ## Requirement rows -/

section Cascade

/-- `CascadeEntry`: a requirement row with the place it is reported at. -/
structure CascadeEntry where
  kind : RequirementKind
  row : ReportRequirement
  toml_path : String
  file : String

def label : RequirementKind → String
  | .Sys => "SYS"
  | .Hlr => "HLR"
  | .Llr => "LLR"

def child_label : RequirementKind → String
  | .Sys => "HLR"
  | .Hlr => "LLR"
  | .Llr => "TEST"

def verification_required (kind : RequirementKind) (policy : TracePolicy) : Bool :=
  match kind with
  | .Hlr => policy.require_hlr_verification_methods
  | .Llr => policy.require_llr_verification_methods
  | .Sys => false

variable (entry : CascadeEntry)

def location : Location := ⟨some entry.file, some entry.toml_path, some entry.row.uid⟩

def add_key_fix (key value_stub : String) : FixHint :=
  .AddTomlKey entry.file entry.toml_path key value_stub

/-- The gap of a row itself, before its children are looked at. -/
def structural_gap (policy : TracePolicy) : Option (String × Option FixHint) :=
  match entry.row.link_gap with
  | some message => some (message, none)
  | none =>
    if entry.kind = .Hlr ∧ policy.require_hlr_sys_trace = true ∧ entry.row.traces_to = [] then
      some ("HLR " ++ entry.row.id ++
          " has empty `traces_to` under `require_hlr_sys_trace` policy",
        some (add_key_fix entry "traces_to" "[\"<SYS-uuid>\"]"))
    else if entry.kind = .Llr ∧ entry.row.traces_to = [] then
      some ("LLR " ++ entry.row.id ++ " has no parent HLR edge",
        some (add_key_fix entry "traces_to" "[\"<HLR-uuid>\"]"))
    else if verification_required entry.kind policy = true ∧ entry.row.verification_methods = [] then
      some (label entry.kind ++ " " ++ entry.row.id ++ " is missing verification methods",
        some (add_key_fix entry "verification_methods" "[\"test\"]"))
    else none

def direct_gap (message : String) (fix_hint : Option FixHint) : Verdict :=
  (⟨.Gap, some entry.row.uid⟩, make_diag .Gap message (some (location entry)) fix_hint none)

/-- What the children's statuses amount to so far. -/
structure Tally where
  first_gap_root : Option String
  any_pass : Bool
  any_skip : Bool

/-- Count one child; a child without a status is passed over. -/
def Tally.add (child_status : Statuses) (tally : Tally) (u : String) : Tally :=
  match (child_status.get u).map Prod.snd with
  | none => tally
  | some s =>
    match s.status with
    | .Gap =>
      { tally with
        first_gap_root := tally.first_gap_root.orElse fun _ =>
          s.root_cause_uid.orElse fun _ => some u }
    | .Pass => { tally with any_pass := true }
    | .Skip => { tally with any_skip := true }

def aggregate_child_status (child_uids : List String) (child_status : Statuses) : TestStatus :=
  let tally := child_uids.foldl (Tally.add child_status) ⟨none, false, false⟩
  match tally.first_gap_root with
  | some root => ⟨.Gap, some root⟩
  | none =>
    if tally.any_pass then ⟨.Pass, none⟩
    else if tally.any_skip then ⟨.Skip, none⟩
    else ⟨.Pass, none⟩

/-- The verdict of a requirement row. -/
def build_cascade_diag (child_uids : List String) (child_status : Statuses)
    (policy : TracePolicy) : Verdict :=
  match structural_gap entry policy with
  | some (message, fix_hint) => direct_gap entry message fix_hint
  | none =>
    if child_uids.isEmpty then
      direct_gap entry (label entry.kind ++ " " ++ entry.row.id ++ " has no " ++
        child_label entry.kind ++ " coverage") none
    else
      let aggregated := aggregate_child_status child_uids child_status
      let msg :=
        match aggregated.status with
        | .Pass => label entry.kind ++ " " ++ entry.row.id ++ " satisfied"
        | .Gap =>
          label entry.kind ++ " " ++ entry.row.id ++ ": one or more downstream requirements failed"
        | .Skip =>
          label entry.kind ++ " " ++ entry.row.id ++ ": all downstream requirements were skipped"
      (aggregated,
        make_diag aggregated.status msg (some (location entry)) none aggregated.root_cause_uid)

end Cascade

/-! ## The report -/

/-- A row's uid with its verdict. -/
abbrev Reported := String × Verdict

def statuses (layer : List Reported) : Statuses :=
  Store.ofList (layer.map fun reported => (reported.1, reported.2.1))

def file_name : RequirementKind → String
  | .Sys => "sys.toml"
  | .Hlr => "hlr.toml"
  | .Llr => "llr.toml"

def build_layer (view : ReportView) (kind : RequirementKind) (child_status : Statuses)
    (policy : TracePolicy) : List Reported :=
  (view.layer kind).zipIdx.map fun indexed =>
    (indexed.1.uid,
      build_cascade_diag
        { kind := kind
          row := indexed.1
          toml_path := "requirements[" ++ decimal indexed.2 ++ "]"
          file := file_name kind }
        (view.children_of indexed.1.uid) child_status policy)

def build_tests (view : ReportView) (test_outcomes : Outcomes) (unresolved : List String) :
    List Reported :=
  view.tests.map fun test => (test.uid, build_test_diag test test_outcomes unresolved)

/-- The rows of a view with their verdicts, layer by layer from the bottom. -/
def build_rows (view : ReportView) (test_outcomes : Outcomes) (unresolved : List String)
    (policy : TracePolicy) : List Reported :=
  let tests := build_tests view test_outcomes unresolved
  let llrs := build_layer view .Llr (statuses tests) policy
  let hlrs := build_layer view .Hlr (statuses llrs) policy
  let sys := build_layer view .Sys (statuses hlrs) policy
  tests ++ llrs ++ hlrs ++ sys

/-- Emit the requirement report of a graph. Of the workspace it reads only which tests
have a selector that names no function there, which `resolve_selector_inputs` says. -/
def build_corpus_requirement_report
    (resolve_selector_inputs : List (String × List String) → List String) (graph : CorpusGraph)
    (test_outcomes : Outcomes) (policy : TracePolicy) :
    Except RequirementReportError (List Diagnostic) := do
  let view ← ReportView.from_graph graph
  let unresolved := resolve_selector_inputs view.selector_inputs
  .ok ((build_rows view test_outcomes unresolved policy).map fun reported => reported.2.2)

/-! ## Diagnostics name their rows -/

/-- The diagnostic carries the code of the status, and the uid of the row. -/
def Names (uid : String) (verdict : Verdict) : Prop :=
  verdict.2.code = verdict.1.status.code ∧
    ∃ place, verdict.2.location = some place ∧ place.entry_uid = some uid

theorem names_test_gap (t : ReportTest) (message : String) (fix_hint : Option FixHint) :
    Names t.uid (test_gap t message fix_hint) := ⟨rfl, _, rfl, rfl⟩

theorem names_direct_gap (entry : CascadeEntry) (message : String) (fix_hint : Option FixHint) :
    Names entry.row.uid (direct_gap entry message fix_hint) := ⟨rfl, _, rfl, rfl⟩

theorem names_single_selector_status (t : ReportTest) (selector : String) (outcomes : Outcomes) :
    Names t.uid (single_selector_status t selector outcomes) := by
  unfold single_selector_status
  split
  · exact names_test_gap t _ _
  · next only_match _ =>
    unfold matched_selector
    cases only_match.2 <;> exact ⟨rfl, _, rfl, rfl⟩
  · exact names_test_gap t _ _

theorem names_multi_selector_status (t : ReportTest) (selectors : List String)
    (outcomes : Outcomes) : Names t.uid (multi_selector_status t selectors outcomes) := by
  unfold multi_selector_status
  simp only
  split_ifs <;> exact ⟨rfl, _, rfl, rfl⟩

/-- **A test's diagnostic names the test**, with the code of its status. -/
theorem names_build_test_diag (t : ReportTest) (outcomes : Outcomes) (unresolved : List String) :
    Names t.uid (build_test_diag t outcomes unresolved) := by
  unfold build_test_diag
  split
  · exact names_test_gap t _ _
  · split_ifs
    · exact names_test_gap t _ _
    · exact names_test_gap t _ _
    · exact names_test_gap t _ _
    · split
      · exact names_single_selector_status t _ outcomes
      · exact names_multi_selector_status t _ outcomes

/-- **A requirement's diagnostic names the requirement**, with the code of its status. -/
theorem names_build_cascade_diag (entry : CascadeEntry) (child_uids : List String)
    (child_status : Statuses) (policy : TracePolicy) :
    Names entry.row.uid (build_cascade_diag entry child_uids child_status policy) := by
  unfold build_cascade_diag
  split
  · exact names_direct_gap entry _ _
  · split_ifs
    · exact names_direct_gap entry _ _
    · exact ⟨rfl, _, rfl, rfl⟩

/-! ## Aggregation -/

section Aggregation

variable {child_status : Statuses} {us : List String}

def child_status_is (child_status : Statuses) (u : String) (s : RequirementStatus) : Prop :=
  ((child_status.get u).map Prod.snd).map TestStatus.status = some s

theorem Tally.add_spec (tally : Tally) (u : String) :
    ((tally.add child_status u).first_gap_root.isSome ↔
      tally.first_gap_root.isSome ∨ child_status_is child_status u .Gap) ∧
    ((tally.add child_status u).any_pass ↔ tally.any_pass ∨ child_status_is child_status u .Pass) ∧
    ((tally.add child_status u).any_skip ↔ tally.any_skip ∨ child_status_is child_status u .Skip) := by
  unfold Tally.add child_status_is
  cases (child_status.get u).map Prod.snd with
  | none => simp
  | some s =>
    obtain ⟨status, root⟩ := s
    cases status with
    | Pass => simp
    | Skip => simp
    | Gap =>
      cases tally.first_gap_root <;> cases root <;> simp

/-- **What a tally of several children says.** -/
theorem Tally.foldl_spec (tally : Tally) :
    ((us.foldl (Tally.add child_status) tally).first_gap_root.isSome ↔
      tally.first_gap_root.isSome ∨ ∃ u ∈ us, child_status_is child_status u .Gap) ∧
    ((us.foldl (Tally.add child_status) tally).any_pass ↔
      tally.any_pass ∨ ∃ u ∈ us, child_status_is child_status u .Pass) ∧
    ((us.foldl (Tally.add child_status) tally).any_skip ↔
      tally.any_skip ∨ ∃ u ∈ us, child_status_is child_status u .Skip) := by
  induction us generalizing tally with
  | nil => simp
  | cons u us ih =>
    obtain ⟨hgap, hpass, hskip⟩ := ih (tally.add child_status u)
    obtain ⟨hgap', hpass', hskip'⟩ := @Tally.add_spec child_status tally u
    rw [List.foldl_cons, hgap, hpass, hskip, hgap', hpass', hskip']
    simp only [List.exists_mem_cons_iff, or_assoc, and_self]

theorem aggregate_gap_iff :
    (aggregate_child_status us child_status).status = .Gap ↔
      ∃ u ∈ us, child_status_is child_status u .Gap := by
  have hgap := (@Tally.foldl_spec child_status us ⟨none, false, false⟩).1
  rw [Option.isSome_none, Bool.false_eq_true, false_or] at hgap
  rw [← hgap, aggregate_child_status]
  cases (us.foldl (Tally.add child_status) ⟨none, false, false⟩).first_gap_root with
  | some root => simp
  | none => simp only; split_ifs <;> simp

theorem aggregate_pass_iff (hne : us ≠ [])
    (hall : ∀ u ∈ us, ∃ s, child_status_is child_status u s) :
    (aggregate_child_status us child_status).status = .Pass ↔
      ¬ (∃ u ∈ us, child_status_is child_status u .Gap) ∧
        ∃ u ∈ us, child_status_is child_status u .Pass := by
  obtain ⟨hgap, hpass, hskip⟩ :=
    @Tally.foldl_spec child_status us ⟨none, false, false⟩
  rw [Option.isSome_none, Bool.false_eq_true, false_or] at hgap
  simp only [Bool.false_eq_true, false_or] at hpass hskip
  rw [← hgap, ← hpass, aggregate_child_status]
  cases hroot : (us.foldl (Tally.add child_status) ⟨none, false, false⟩).first_gap_root with
  | some root => simp
  | none =>
    simp only [Option.isSome_none, Bool.false_eq_true, not_false_eq_true, true_and]
    split_ifs with h h'
    · simp [h]
    · simp [h]
    · -- Neither a gap, nor a pass, nor a skip: then there was no child.
      exfalso
      obtain ⟨u, hu⟩ := List.exists_mem_of_ne_nil us hne
      obtain ⟨s, hs⟩ := hall u hu
      cases s with
      | Gap =>
        have hsome := hgap.mpr ⟨u, hu, hs⟩
        rw [hroot] at hsome
        exact absurd hsome (by decide)
      | Pass => exact h (hpass.mpr ⟨u, hu, hs⟩)
      | Skip => exact h' (hskip.mpr ⟨u, hu, hs⟩)

end Aggregation

end Evidence.Trace
