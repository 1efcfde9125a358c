/-
`phases/test_capture.rs`, `bundle/run_capture.rs` and `verify/completeness.rs` -- a test run
that failed, recorded by `generate` and looked for by `verify`.

The phase runs nextest through the builder and records a failure under the name
`cargo nextest run --workspace`, be it a non-zero exit or a run that could not be captured. The
check looks for failures of the commands in `COMMANDS_OWNING_TEST_SUMMARY`, where the one name is
`cargo test --workspace`: nothing that `generate` records is ever found there
(`never_reported`). A run that could be captured leaves a summary whatever it printed,
so the check has something to find only in a development bundle of a run that could not be.
-/
import Evidence.Verify.TestSummaryCheck

set_option autoImplicit false

namespace Evidence.Cli

open Evidence.Bundle (SerdeJson TestSummary TestOutcomeRecord parse_nextest_libtest_json)
open Verify (from_utf8_lossy normalize_captured_text reconcile SummaryDiscrepancy)

/-! ## Capturing a command -/

inductive Profile where
  | Dev
  | Cert
  | Record
deriving DecidableEq

def Profile.text : Profile → String
  | .Dev => "dev"
  | .Cert => "cert"
  | .Record => "record"

inductive ResolutionPolicy where
  | LockedOffline
  | OnlineOptIn
deriving DecidableEq

def ResolutionPolicy.cargo_args : ResolutionPolicy → List String
  | .LockedOffline => ["--locked", "--offline"]
  | .OnlineOptIn => []

/-- The failures of a capture, without the operating system's errors in them. -/
inductive BuilderError where
  | CurrentDir
  | RunCommand (display_name : String)
  | Io (op path : String)
deriving DecidableEq

def BuilderError.text : BuilderError → String
  | .CurrentDir => "reading current working directory for command capture"
  | .RunCommand display_name => "running " ++ display_name
  | .Io op path => op ++ " " ++ path

/-- How a process ended, and what it printed; there is no code where a signal ended it. -/
structure ProcessOutput where
  code : Option ℤ
  stdout : List UInt8
  stderr : List UInt8

/-- What a capture finds around it: where it runs, what comes of the process if it can be
launched, and which directories and files can be written. -/
structure CaptureHost where
  current_dir : Option String
  output : Option ProcessOutput
  create_dir_all : String → Bool
  write : String → Bool

structure CommandRecord where
  argv : List String
  cwd : String
  exit_code : ℤ
  stdout_path : Option String
  stderr_path : Option String
deriving DecidableEq

structure ToolCommandFailure where
  command_name : String
  exit_code : ℤ
  stderr_tail : String
deriving DecidableEq

def STDERR_TAIL_LINES : ℕ := 20

/-- The last lines of what was printed. -/
def tail_stderr (stderr_text : String) : String :=
  let printed := (lines stderr_text.toList).map String.ofList
  "\n".intercalate (printed.drop (printed.length - STDERR_TAIL_LINES))

structure RunCaptureOutcome where
  record : CommandRecord
  failure : Option ToolCommandFailure
  stdout_norm : List UInt8
  stderr_norm : List UInt8

section Capture

variable (host : CaptureHost) (bundle_dir : String)

/-- `Path::parent` of a path with a separator in it. -/
def parent_of (path : String) : String :=
  String.ofList (path.toList.take ((rfind '/' path.toList).getD 0))

def write_under_bundle (rel : String) (kind : String) : Except BuilderError Unit :=
  let abs := bundle_dir ++ "/" ++ rel
  if host.create_dir_all (parent_of abs) = false then .error (.Io "creating" (parent_of abs))
  else if host.write abs = false then
    .error (.Io (if kind = "stdout" then "writing stdout to" else "writing stderr to") abs)
  else .ok ()

/-- `run_capture` of `bundle/run_capture.rs`, on the program and the arguments of a command. -/
def do_run_capture (argv : List String) (rel_dir output_name_base display_name : String) :
    Except BuilderError RunCaptureOutcome :=
  match host.current_dir with
  | none => .error .CurrentDir
  | some cwd =>
    match host.output with
    | none => .error (.RunCommand display_name)
    | some output =>
      let exit_code := output.code.getD (-1)
      let subprocess_failed := output.code ≠ some 0
      let stdout_path := if rel_dir = "" then output_name_base ++ ".json"
        else rel_dir ++ "/" ++ output_name_base ++ "_stdout.txt"
      let stderr_path := if rel_dir = "" then output_name_base ++ "_stderr.txt"
        else rel_dir ++ "/" ++ output_name_base ++ "_stderr.txt"
      let stdout_norm := normalize_captured_text output.stdout
      let stderr_norm := normalize_captured_text output.stderr
      match write_under_bundle host bundle_dir stdout_path "stdout" with
      | .error error => .error error
      | .ok () =>
        match write_under_bundle host bundle_dir stderr_path "stderr" with
        | .error error => .error error
        | .ok () =>
          .ok { record := ⟨argv, cwd, exit_code, some stdout_path, some stderr_path⟩
                failure :=
                  if subprocess_failed then
                    some ⟨display_name, exit_code, tail_stderr (from_utf8_lossy stderr_norm)⟩
                  else none
                stdout_norm := stdout_norm
                stderr_norm := stderr_norm }

end Capture

/-! ## The builder -/

/-- `EvidenceBuilder`, as far as the test phase and the check of its result go. -/
structure EvidenceBuilder where
  bundle_dir : String
  profile : Profile
  resolution_policy : ResolutionPolicy
  commands : List CommandRecord
  tool_command_failures : List ToolCommandFailure
  test_summary : Option TestSummary
  test_outcomes : List TestOutcomeRecord

namespace EvidenceBuilder

def new (bundle_dir : String) (profile : Profile) (resolution_policy : ResolutionPolicy) :
    EvidenceBuilder := ⟨bundle_dir, profile, resolution_policy, [], [], none, []⟩

def record_command_failure (b : EvidenceBuilder) (failure : ToolCommandFailure) :
    EvidenceBuilder :=
  { b with tool_command_failures := b.tool_command_failures ++ [failure] }

def set_test_summary (b : EvidenceBuilder) (summary : TestSummary) : EvidenceBuilder :=
  { b with test_summary := some summary }

def set_test_outcomes (b : EvidenceBuilder) (outcomes : List TestOutcomeRecord) :
    EvidenceBuilder :=
  { b with test_outcomes := outcomes }

def record_outcome (b : EvidenceBuilder) (outcome : RunCaptureOutcome) : EvidenceBuilder :=
  { b with
    commands := b.commands ++ [outcome.record]
    tool_command_failures := b.tool_command_failures ++ outcome.failure.toList }

def run_capture (b : EvidenceBuilder) (host : CaptureHost) (argv : List String)
    (rel_dir output_name_base display_name : String) :
    EvidenceBuilder × Except BuilderError (List UInt8 × List UInt8) :=
  match do_run_capture host b.bundle_dir argv rel_dir output_name_base display_name with
  | .error error => (b, .error error)
  | .ok outcome => (b.record_outcome outcome, .ok (outcome.stdout_norm, outcome.stderr_norm))

end EvidenceBuilder

/-! ## The test phase -/

/-- The name under which a failure of the tests is recorded. -/
def TEST_COMMAND : String := "cargo nextest run --workspace"

/-- The command line of the tests. -/
def test_argv (resolution_policy : ResolutionPolicy) : List String :=
  ["cargo", "nextest", "run", "--workspace", "--no-fail-fast", "--message-format",
    "libtest-json-plus"] ++ resolution_policy.cargo_args

/-- The failures that end a strict run. -/
inductive TestPhaseError where
  | NotReconciled (discrepancies : List SummaryDiscrepancy)
  | NotRun (error : BuilderError)

section Phase

variable [SerdeJson]

/-- The test phase, without what it prints. -/
def run_tests_and_capture (b : EvidenceBuilder) (host : CaptureHost) (skip_tests strict : Bool) :
    EvidenceBuilder × Except TestPhaseError Unit :=
  if skip_tests then (b, .ok ())
  else
    match b.run_capture host (test_argv b.resolution_policy) "tests" "cargo_test" TEST_COMMAND with
    | (b, .ok (stdout, _)) =>
      let run := parse_nextest_libtest_json (from_utf8_lossy stdout)
      if reconcile run ≠ [] ∧ strict then (b, .error (.NotReconciled (reconcile run)))
      else
        let b := b.set_test_summary run.summary
        (if run.records.isEmpty then b else b.set_test_outcomes run.records, .ok ())
    | (b, .error error) =>
      let b := b.record_command_failure ⟨TEST_COMMAND, -1, error.text⟩
      if strict then (b, .error (.NotRun error)) else (b, .ok ())

/-- `EvidenceIndex`, as far as the check of its completeness reads it. -/
structure CompletenessIndex where
  profile : Profile
  bundle_complete : Bool
  test_summary : Option TestSummary
  tool_command_failures : List ToolCommandFailure

/-- These fields of the index that `finalize` writes. -/
def EvidenceBuilder.finalize (b : EvidenceBuilder) : CompletenessIndex where
  profile := b.profile
  bundle_complete := b.tool_command_failures.isEmpty
  test_summary := b.test_summary
  tool_command_failures := b.tool_command_failures

/-- The index of a run of `generate`, if the test phase lets it go on; the other phases leave
these fields alone. -/
def generate (bundle_dir : String) (profile : Profile) (resolution_policy : ResolutionPolicy)
    (skip_tests : Bool) (host : CaptureHost) : Option CompletenessIndex :=
  let strict := profile = .Cert ∨ profile = .Record
  let builder := EvidenceBuilder.new bundle_dir profile resolution_policy
  match run_tests_and_capture builder host skip_tests strict with
  | (b, .ok ()) => some b.finalize
  | (_, .error _) => none

end Phase

/-! ## The check -/

def COMMANDS_OWNING_TEST_SUMMARY : List String := ["cargo test --workspace"]

def check_bundle_completeness (index : CompletenessIndex) : List VerifyError :=
  let failures := index.tool_command_failures
  (if index.bundle_complete ∧ ¬ failures.isEmpty then
    [.BundleIncompletelyClaimed failures.length] else []) ++
  (if ¬ index.bundle_complete ∧ (index.profile = .Cert ∨ index.profile = .Record) then
    [.ToolCommandsFailedSilently index.profile.text (failures.map (·.command_name))] else []) ++
  failures.filterMap fun failure =>
    let owns_test_summary := COMMANDS_OWNING_TEST_SUMMARY.any (· == failure.command_name)
    if owns_test_summary ∧ index.test_summary.isNone then
      some (.TestSummaryAbsentOnFailedRun failure.command_name)
    else none

/-- **When the missing summary is reported**: for a failure of a command in the list, and an index
without a summary. -/
theorem absent_summary_reported_iff (index : CompletenessIndex) (name : String) :
    .TestSummaryAbsentOnFailedRun name ∈ check_bundle_completeness index ↔
      index.test_summary = none ∧ name ∈ COMMANDS_OWNING_TEST_SUMMARY ∧
        ∃ failure ∈ index.tool_command_failures, failure.command_name = name := by
  have hother : ∀ (p : Prop) [Decidable p] (error : VerifyError),
      error ≠ .TestSummaryAbsentOnFailedRun name →
        .TestSummaryAbsentOnFailedRun name ∉ (if p then [error] else []) := by
    intro p _ error hne hmem
    split_ifs at hmem
    · exact hne (List.mem_singleton.mp hmem).symm
    · exact List.not_mem_nil hmem
  have hfirst := hother (index.bundle_complete ∧ ¬ index.tool_command_failures.isEmpty)
    (.BundleIncompletelyClaimed index.tool_command_failures.length) VerifyError.noConfusion
  have hsecond := hother
    (¬ index.bundle_complete ∧ (index.profile = .Cert ∨ index.profile = .Record))
    (.ToolCommandsFailedSilently index.profile.text
      (index.tool_command_failures.map (·.command_name))) VerifyError.noConfusion
  simp only [check_bundle_completeness, List.mem_append, hfirst, hsecond, false_or,
    List.mem_filterMap, Option.isNone_iff_eq_none, List.any_eq_true, beq_iff_eq]
  constructor
  · rintro ⟨failure, hfailure, hreported⟩
    split_ifs at hreported with howns
    obtain ⟨⟨command, hcommand, rfl⟩, hnone⟩ := howns
    rw [Option.some.injEq, VerifyError.TestSummaryAbsentOnFailedRun.injEq] at hreported
    exact ⟨hnone, hreported ▸ hcommand, failure, hfailure, hreported⟩
  · rintro ⟨hnone, howned, failure, hfailure, rfl⟩
    exact ⟨failure, hfailure, if_pos ⟨⟨_, howned, rfl⟩, hnone⟩⟩

/-! ## What the phase records -/

/-- The machine captures the test command: there is a directory to run in, the command can be
launched, and both files can be written. -/
structure Captures (host : CaptureHost) (bundle_dir : String) : Prop where
  runs : ∃ cwd output, host.current_dir = some cwd ∧ host.output = some output
  stdout : write_under_bundle host bundle_dir "tests/cargo_test_stdout.txt" "stdout" = .ok ()
  stderr : write_under_bundle host bundle_dir "tests/cargo_test_stderr.txt" "stderr" = .ok ()

section Recorded

variable {host : CaptureHost} {bundle_dir : String} {argv : List String}

variable (argv) in
theorem do_run_capture_iff :
    (∃ outcome, do_run_capture host bundle_dir argv "tests" "cargo_test" TEST_COMMAND =
      .ok outcome) ↔ Captures host bundle_dir := by
  have hstdout : "tests" ++ "/" ++ "cargo_test" ++ "_stdout.txt" = "tests/cargo_test_stdout.txt" :=
    rfl
  have hstderr : "tests" ++ "/" ++ "cargo_test" ++ "_stderr.txt" = "tests/cargo_test_stderr.txt" :=
    rfl
  have hdir : ("tests" = "") = False := by decide
  unfold do_run_capture
  simp only [hdir, if_false, hstdout, hstderr]
  constructor
  · rintro ⟨outcome, hok⟩
    cases hcwd : host.current_dir with
    | none =>
      simp only [hcwd, reduceCtorEq] at hok
    | some cwd =>
      cases houtput : host.output with
      | none => simp only [hcwd, houtput, reduceCtorEq] at hok
      | some output =>
        simp only [hcwd, houtput] at hok
        split at hok
        · cases hok
        · next hfirst =>
          split at hok
          · cases hok
          · next hsecond => exact ⟨⟨cwd, output, hcwd, houtput⟩, hfirst, hsecond⟩
  · rintro ⟨⟨cwd, output, hcwd, houtput⟩, hfirst, hsecond⟩
    simp only [hcwd, houtput, hfirst, hsecond]
    exact ⟨_, rfl⟩

theorem failure_command_name {outcome : RunCaptureOutcome}
    (h : do_run_capture host bundle_dir argv "tests" "cargo_test" TEST_COMMAND = .ok outcome) :
    ∀ failure ∈ outcome.failure, failure.command_name = TEST_COMMAND := by
  unfold do_run_capture at h
  split at h
  · cases h
  · split at h
    · cases h
    · simp only at h
      split at h
      · cases h
      · split at h
        · cases h
        · rw [Except.ok.injEq] at h
          subst h
          intro failure hfailure
          simp only at hfailure
          split_ifs at hfailure
          · rw [Option.mem_some] at hfailure
            rw [← hfailure]
          · cases hfailure

/-- The command of the phase is not one that the check knows. -/
theorem test_command_not_owning : TEST_COMMAND ∉ COMMANDS_OWNING_TEST_SUMMARY := by
  decide

section Phases

variable [SerdeJson] {b : EvidenceBuilder} {strict : Bool}

/-- **A run that is captured** leaves a summary, and failures of the test command alone. -/
theorem phase_of_captures (hcaptures : Captures host b.bundle_dir)
    (hok : (run_tests_and_capture b host false strict).2 = .ok ()) :
    (run_tests_and_capture b host false strict).1.test_summary ≠ none ∧
      ∀ failure ∈ (run_tests_and_capture b host false strict).1.tool_command_failures,
        failure ∈ b.tool_command_failures ∨ failure.command_name = TEST_COMMAND := by
  obtain ⟨outcome, hrun⟩ :=
    (do_run_capture_iff (test_argv b.resolution_policy)).mpr hcaptures
  have hnamed := failure_command_name hrun
  have hcapture : b.run_capture host (test_argv b.resolution_policy) "tests" "cargo_test"
      TEST_COMMAND =
        (b.record_outcome outcome, .ok (outcome.stdout_norm, outcome.stderr_norm)) := by
    rw [EvidenceBuilder.run_capture, hrun]
  have hfailures : ∀ failure ∈ (b.record_outcome outcome).tool_command_failures,
      failure ∈ b.tool_command_failures ∨ failure.command_name = TEST_COMMAND := by
    intro failure hfailure
    rcases List.mem_append.mp hfailure with hold | hnew
    · exact .inl hold
    · exact .inr (hnamed failure (Option.mem_toList.mp hnew))
  unfold run_tests_and_capture at hok ⊢
  simp only [Bool.false_eq_true, if_false, hcapture] at hok ⊢
  split_ifs at hok ⊢
  · exact ⟨Option.some_ne_none _, hfailures⟩
  · exact ⟨Option.some_ne_none _, hfailures⟩

variable (strict) in
/-- **A run that cannot be captured** ends a strict run, and otherwise leaves a failure of the test
command and no summary. -/
theorem phase_of_not_captures (hcaptures : ¬ Captures host b.bundle_dir) :
    ∃ failure, failure.command_name = TEST_COMMAND ∧
      (run_tests_and_capture b host false strict).1 = b.record_command_failure failure ∧
      ((run_tests_and_capture b host false strict).2 = .ok () ↔ strict = false) := by
  rw [← do_run_capture_iff (test_argv b.resolution_policy)] at hcaptures
  cases hrun : do_run_capture host b.bundle_dir (test_argv b.resolution_policy) "tests"
      "cargo_test" TEST_COMMAND with
  | ok outcome => exact absurd ⟨outcome, hrun⟩ hcaptures
  | error error =>
    refine ⟨⟨TEST_COMMAND, -1, error.text⟩, rfl, ?_⟩
    unfold run_tests_and_capture
    simp only [Bool.false_eq_true, if_false, EvidenceBuilder.run_capture, hrun]
    by_cases hstrict : strict = true
    · simp only [hstrict, if_true, reduceCtorEq, Bool.true_eq_false, and_self]
    · rw [Bool.not_eq_true] at hstrict
      simp only [hstrict, Bool.false_eq_true, if_false, and_self]

/-! ## What the check finds of it -/

/-- **A failed run without results is caught**, and nothing else is taken for one. -/
def FailedRunCaught (index : CompletenessIndex) : Prop :=
  ((∃ failure ∈ index.tool_command_failures, failure.command_name = TEST_COMMAND) →
      index.test_summary = none →
      ∃ name, .TestSummaryAbsentOnFailedRun name ∈ check_bundle_completeness index) ∧
    ((∀ failure ∈ index.tool_command_failures, failure.command_name ≠ TEST_COMMAND) →
      ∀ name, .TestSummaryAbsentOnFailedRun name ∉ check_bundle_completeness index)

omit [SerdeJson] in
/-- **An index whose failures are all of the test command is never reported.** -/
theorem never_reported {index : CompletenessIndex}
    (h : ∀ failure ∈ index.tool_command_failures, failure.command_name = TEST_COMMAND)
    (name : String) : .TestSummaryAbsentOnFailedRun name ∉ check_bundle_completeness index := by
  rw [absent_summary_reported_iff]
  rintro ⟨-, howned, failure, hfailure, hname⟩
  rw [← hname, h failure hfailure] at howned
  exact test_command_not_owning howned

section Generate

variable {profile : Profile} {resolution_policy : ResolutionPolicy} {skip_tests : Bool}

/-- The index is that of the builder after the phase, where the phase succeeds. -/
theorem generate_eq_some {index : CompletenessIndex} :
    generate bundle_dir profile resolution_policy skip_tests host = some index ↔
      (run_tests_and_capture (.new bundle_dir profile resolution_policy) host skip_tests
          (profile = .Cert ∨ profile = .Record)).2 = .ok () ∧
        (run_tests_and_capture (.new bundle_dir profile resolution_policy) host skip_tests
          (profile = .Cert ∨ profile = .Record)).1.finalize = index := by
  simp only [generate]
  split
  · next b hrun => simp only [hrun, Option.some.injEq, true_and]
  · next b error hrun => simp only [hrun, reduceCtorEq, false_and]

/-- The index of a run without tests. -/
theorem generate_skipped :
    generate bundle_dir profile resolution_policy true host =
      some (EvidenceBuilder.new bundle_dir profile resolution_policy).finalize := rfl

theorem generated_failures {index : CompletenessIndex}
    (h : generate bundle_dir profile resolution_policy skip_tests host = some index) :
    ∀ failure ∈ index.tool_command_failures, failure.command_name = TEST_COMMAND := by
  intro failure hfailure
  by_cases hskip : skip_tests = true
  · rw [hskip, generate_skipped, Option.some.injEq] at h
    rw [← h] at hfailure
    exact absurd hfailure List.not_mem_nil
  · rw [Bool.not_eq_true] at hskip
    rw [hskip] at h
    obtain ⟨hok, rfl⟩ := generate_eq_some.mp h
    by_cases hcaptures : Captures host bundle_dir
    · have hafter := (phase_of_captures (b := .new bundle_dir profile resolution_policy)
        hcaptures hok).2
      exact (hafter failure hfailure).resolve_left List.not_mem_nil
    · obtain ⟨recorded, hname, hphase, -⟩ :=
        phase_of_not_captures (b := .new bundle_dir profile resolution_policy)
          (profile = .Cert ∨ profile = .Record) hcaptures
      rw [EvidenceBuilder.finalize, hphase] at hfailure
      rw [List.mem_singleton.mp hfailure, hname]

theorem profile_of_not_captures {index : CompletenessIndex}
    (hcaptures : ¬ Captures host bundle_dir)
    (h : generate bundle_dir profile resolution_policy false host = some index) :
    profile = .Dev := by
  obtain ⟨-, -, -, hstrict⟩ :=
    phase_of_not_captures (b := .new bundle_dir profile resolution_policy)
      (profile = .Cert ∨ profile = .Record) hcaptures
  have hdev := hstrict.mp (generate_eq_some.mp h).1
  rw [decide_eq_false_iff_not, not_or] at hdev
  cases profile with
  | Dev => rfl
  | Cert => exact absurd rfl hdev.1
  | Record => exact absurd rfl hdev.2

theorem generate_of_not_captures (hcaptures : ¬ Captures host bundle_dir) :
    ∃ index, generate bundle_dir .Dev resolution_policy false host = some index ∧
      (∃ failure ∈ index.tool_command_failures, failure.command_name = TEST_COMMAND) ∧
      index.test_summary = none := by
  obtain ⟨failure, hname, hphase, hok⟩ :=
    phase_of_not_captures (b := .new bundle_dir .Dev resolution_policy) false hcaptures
  refine ⟨_, generate_eq_some.mpr ⟨hok.mpr rfl, rfl⟩, ?_⟩
  have hphase' : (run_tests_and_capture (.new bundle_dir .Dev resolution_policy) host false
      (Profile.Dev = .Cert ∨ Profile.Dev = .Record)).1 =
        (EvidenceBuilder.new bundle_dir .Dev resolution_policy).record_command_failure failure :=
    hphase
  rw [hphase']
  exact ⟨⟨failure, List.mem_singleton_self failure, hname⟩, rfl⟩

end Generate

/-- **When a failed test run is caught.** It is where the tests are skipped, where the profile is
strict, and where the run could be captured; elsewhere the index names a failure of the test
command, has no summary, and is not reported. -/
theorem failed_run_caught_iff (bundle_dir : String) (profile : Profile)
    (resolution_policy : ResolutionPolicy) (skip_tests : Bool) (host : CaptureHost) :
    (∀ index, generate bundle_dir profile resolution_policy skip_tests host = some index →
      FailedRunCaught index) ↔
    skip_tests = true ∨ profile ≠ .Dev ∨ Captures host bundle_dir := by
  constructor
  · intro hall
    by_contra hnot
    push Not at hnot
    obtain ⟨hskip, rfl, hcaptures⟩ := hnot
    rw [ne_eq, Bool.not_eq_true] at hskip
    subst hskip
    obtain ⟨index, hindex, hfailed, hnone⟩ :=
      @generate_of_not_captures host bundle_dir _ resolution_policy hcaptures
    obtain ⟨name, hreported⟩ := (hall index hindex).1 hfailed hnone
    exact never_reported (generated_failures hindex) name hreported
  · intro hcase index hindex
    refine ⟨fun hfailed hnone => ?_, fun _ => never_reported (generated_failures hindex)⟩
    exfalso
    obtain ⟨failure, hfailure, -⟩ := hfailed
    by_cases hskip : skip_tests = true
    · rw [hskip, generate_skipped, Option.some.injEq] at hindex
      rw [← hindex] at hfailure
      exact List.not_mem_nil hfailure
    · rw [Bool.not_eq_true] at hskip
      subst hskip
      by_cases hcaptures : Captures host bundle_dir
      · obtain ⟨hok, rfl⟩ := generate_eq_some.mp hindex
        exact (phase_of_captures (b := .new bundle_dir profile resolution_policy)
          hcaptures hok).1 hnone
      · rcases hcase with hfalse | hstrict | hcaptured
        · exact Bool.false_ne_true hfalse
        · exact hstrict (profile_of_not_captures hcaptures hindex)
        · exact hcaptures hcaptured

end Phases

end Recorded

/-! ## A run that could not be launched -/

section Witness

/-- No line is JSON. -/
local instance no_events : SerdeJson where
  from_str _ := none

/-- A machine without cargo. -/
def no_cargo : CaptureHost where
  current_dir := some "/work"
  output := none
  create_dir_all := fun _ => true
  write := fun _ => true

/-- **A run that could not be launched is not caught.** -/
theorem unlaunched_run_not_caught :
    ∃ index, generate "bundle" .Dev .OnlineOptIn false no_cargo = some index ∧
      (∃ failure ∈ index.tool_command_failures, failure.command_name = TEST_COMMAND) ∧
      index.test_summary = none ∧
      ∀ name, .TestSummaryAbsentOnFailedRun name ∉ check_bundle_completeness index := by
  refine ⟨_, rfl, ⟨_, List.mem_singleton_self _, rfl⟩, rfl, fun name hreported => ?_⟩
  obtain ⟨-, howned, failure, hfailure, hname⟩ := (absent_summary_reported_iff _ _).mp hreported
  rw [← hname, List.mem_singleton.mp hfailure] at howned
  exact test_command_not_owning howned

end Witness

end Evidence.Cli
