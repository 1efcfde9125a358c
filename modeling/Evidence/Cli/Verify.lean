/-
`cli/verify.rs` -- the command `cargo evidence verify`.

There are two drivers: one for the human and the JSON output, which ends in one line or
one envelope, and one for JSON lines, which streams a diagnostic for each finding and
then a terminal event. Each of them maps what the verification came to onto an exit
code by itself. That is 0 for success, 2 for a bundle that was verified and found
wanting, and 1 where the tool could not run.

They agree except on a verification that was begun and could not be finished: the
stream ends in `VERIFY_ERROR` with 1, and the other two formats return 2.
-/
import Evidence.Cli.VerifyError

set_option autoImplicit false

namespace Evidence.Cli

open Evidence.Bundle

/-! ## What a run reads and prints -/

def EXIT_SUCCESS : ℤ := 0
def EXIT_ERROR : ℤ := 1
def EXIT_VERIFICATION_FAILURE : ℤ := 2

inductive OutputFormat where
  | Human
  | Json
  | Jsonl
deriving DecidableEq

structure EvidenceIndex (Completeness : Type) where
  profile : String
  completeness : Completeness
  bundle_complete : Bool
  tool_command_failures : List String

structure VerifyCheck where
  name : String
  status : String
  message : Option String
deriving DecidableEq

structure VerifyOutput (Completeness : Type) where
  success : Bool
  bundle_path : String
  checks : List VerifyCheck
  profile : Option String
  completeness : Option Completeness
  error : Option String

inductive Output (Completeness : Type) where
  | Stdout (line : String)
  | Stderr (line : String)
  | Envelope (output : VerifyOutput Completeness)
  | Event (diagnostic : Diagnostic)

/-- What a run printed, and the code it returned. -/
structure Run (Completeness : Type) where
  printed : List (Output Completeness)
  exit : ℤ

/-- What the command finds around it: the files, the environment, the key reader and the
verification itself. -/
structure Surroundings [Ed25519] (Completeness : Type) where
  exists_at : String → Bool
  read_to_string : String → Option String
  parse_index : String → Option (EvidenceIndex Completeness)
  evidence_verify_key_path : Option String
  read_verifying_key : String → Except SigningError VerifyingKey
  verify_bundle_with_key : Option VerifyingKey → Except VerifyRuntimeError VerifyResult

/-- `Path::join` with a name. -/
def join (path name : String) : String :=
  if path.isEmpty || path.toList.getLast? == some '/' then path ++ name else path ++ "/" ++ name

section Command

variable [DebugText] [Ed25519] {Completeness : Type} (s : Surroundings Completeness)
  (bundle_path : String)

/-- The index, if it can be read and parsed. -/
def read_index : Option (EvidenceIndex Completeness) :=
  (s.read_to_string (join bundle_path "index.json")).bind s.parse_index

/-- The profile and the recorded states for the envelope. -/
def index_states : Option String × Option Completeness :=
  match read_index s bundle_path with
  | some index => (some index.profile, some index.completeness)
  | none => (none, none)

/-- The key's path: the flag, the environment, or the committed anchor where the bundle has
a signature. -/
def resolve_verify_key_path (explicit : Option String) : Option String :=
  match explicit with
  | some p => some p
  | none =>
    match s.evidence_verify_key_path with
    | some env => if !env.isEmpty then some env else anchor
    | none => anchor
where
  anchor : Option String :=
    if !s.exists_at (join bundle_path "BUNDLE.sig") then none
    else if s.exists_at "cert/signing.pub" then some "cert/signing.pub" else none

def classify_key_load_diagnostic (path : String) (err : SigningError) : Diagnostic :=
  match err with
  | .Read _ => (VerifyRuntimeError.ReadVerifyKey path).to_diagnostic
  | other => signing_diagnostic other

/-- The key, if a path resolved. -/
def load_verify_key (verify_key : Option String) :
    Except Diagnostic (Option VerifyingKey) :=
  match verify_key with
  | none => .ok none
  | some path =>
    match s.read_verifying_key path with
    | .ok key => .ok (some key)
    | .error err => .error (classify_key_load_diagnostic path err)

/-- Strict mode wants a signature or a key. -/
def strict_signature_missing (strict : Bool) (verify_key : Option String) : Bool :=
  strict && !s.exists_at (join bundle_path "BUNDLE.sig") && verify_key.isNone

/-! ## The human and the JSON output -/

/-- The envelope with the recorded states. -/
def envelope_of (success : Bool) (checks : List VerifyCheck) (error : Option String) :
    VerifyOutput Completeness :=
  { success, bundle_path, checks, error,
    profile := (index_states s bundle_path).1,
    completeness := (index_states s bundle_path).2 }

def fail_verify (json_output : Bool) (checks : List VerifyCheck) ( text_prefix msg : String)
    (exit_code : ℤ) : Run Completeness :=
  if json_output then ⟨[.Envelope (envelope_of s bundle_path false checks (some msg))], exit_code⟩
  else ⟨[.Stderr ( text_prefix ++ " " ++ msg)], exit_code⟩

/-- The name of the check row of a finding. -/
def check_name : VerifyError → String
  | .UnexpectedFile _ => "unexpected_file"
  | .SignatureInvalid => "signature_invalid"
  | .HashMismatch .. => "hash_mismatch"
  | .MissingHashedFile _ => "missing_file"
  | .ContentHashMismatch .. => "content_hash"
  | .UnsafePath _ => "unsafe_path"
  | .FormatError .. => "format_error"
  | .CrossFileInconsistency .. => "cross_file_mismatch"
  | .DeterministicHashMismatch .. => "recipe_hash"
  | .ManifestProjectionDrift _ => "manifest_projection"
  | .TraceOutputNotHashed _ => "trace_output_not_hashed"
  | .TestSummaryMismatch .. => "test_summary_mismatch"
  | .DalMapMismatch .. => "dal_map_mismatch"
  | .DalMapOrphan .. => "dal_map_orphan"
  | .PrereleaseToolDetected .. => "prerelease_tool_detected"
  | .BundleIncompletelyClaimed _ => "bundle_incompletely_claimed"
  | .ToolCommandsFailedSilently .. => "tool_commands_failed_silently"
  | .TestSummaryAbsentOnFailedRun _ => "test_summary_absent_on_failed_run"
  | .LlrTestSelectorUnresolved .. => "llr_test_selector_unresolved"
  | .BoundaryVerifyMetadataMissing => "boundary_verify_metadata_missing"
  | .BoundaryVerifyForbiddenBuildRs _ => "boundary_verify_build_rs"
  | .BoundaryVerifyForbiddenProcMacro _ => "boundary_verify_proc_macro"
  | .SourceBaselineEmpty => "source_baseline_empty"
  | .TestIdentityUnknown _ => "test_identity_unknown"
  | .OutputManifestEmpty => "output_manifest_empty"
  | .TraceEvidenceNotAdopted _ => "trace_evidence_not_adopted"
  | .TraceEvidenceEmpty _ => "trace_evidence_empty"
  | .OnlineResolutionBundle _ => "online_resolution_bundle"

def failed_check (err : VerifyError) : VerifyCheck :=
  { name := check_name err, status := "fail", message := some err.display }

def prerelease_warning : VerifyError → Option (Output Completeness)
  | .PrereleaseToolDetected _ engine_crate_version =>
    some (.Stderr ("verify: warning - bundle produced by pre-release tool (" ++
      engine_crate_version ++ ") on dev profile; non-blocking"))
  | _ => none

def bundle_exists_check : VerifyCheck :=
  { name := "bundle_exists", status := "pass", message := none }

def all_prerelease_on_dev (errors : List VerifyError) : Bool :=
  !errors.isEmpty && errors.all VerifyError.dev_prerelease

def report_pass (json_output : Bool) : Run Completeness :=
  let checks := [bundle_exists_check,
    { name := "bundle_integrity", status := "pass", message := none },
    { name := "sha256sums", status := "pass", message := none }]
  if json_output then ⟨[.Envelope (envelope_of s bundle_path true checks none)], EXIT_SUCCESS⟩
  else ⟨[.Stdout ("verify: PASS - bundle " ++ debug bundle_path)], EXIT_SUCCESS⟩

def report_fail (json_output : Bool) (errors : List VerifyError) : Run Completeness :=
  if all_prerelease_on_dev errors then
    let checks := [bundle_exists_check,
      { name := "bundle_integrity", status := "pass",
        message := some "pre-release tool warning on dev profile — non-blocking" }]
    let outcome := if json_output then .Envelope (envelope_of s bundle_path true checks none)
      else .Stdout ("verify: PASS (with warning) - bundle " ++ debug bundle_path)
    ⟨errors.filterMap prerelease_warning ++ [outcome], EXIT_SUCCESS⟩
  else
    fail_verify s bundle_path json_output (bundle_exists_check :: errors.map failed_check)
      "verify: FAIL -" (String.intercalate "; " (errors.map VerifyError.display))
      EXIT_VERIFICATION_FAILURE

def report_skipped (json_output strict : Bool) (reason : String) : Run Completeness :=
  let checks := [bundle_exists_check,
    { name := "bundle_integrity", status := if strict then "fail" else "skipped",
      message := some reason }]
  let exit_code := if strict then EXIT_VERIFICATION_FAILURE else EXIT_SUCCESS
  if json_output then
    ⟨[.Envelope (envelope_of s bundle_path (!strict) checks
      (if strict then some ("strict mode: " ++ reason) else none))], exit_code⟩
  else if strict then ⟨[.Stderr ("verify: FAIL (strict) - " ++ reason)], exit_code⟩
  else ⟨[.Stdout ("verify: SKIPPED - " ++ reason)], exit_code⟩

/-- The driver of the human and of the JSON output. -/
def cmd_verify_document (json_output strict : Bool) (verify_key : Option String) :
    Run Completeness :=
  if !s.exists_at bundle_path then
    let err_msg := "bundle not found: " ++ debug bundle_path
    fail_verify s bundle_path json_output
      [{ name := "bundle_exists", status := "fail", message := some err_msg }]
      "error:" err_msg EXIT_ERROR
  else if strict_signature_missing s bundle_path strict verify_key then
    let err_msg := "strict mode: BUNDLE.sig not found and no --verify-key provided"
    fail_verify s bundle_path json_output
      [{ name := "bundle_signature", status := "fail", message := some err_msg }]
      "verify: FAIL -" err_msg EXIT_VERIFICATION_FAILURE
  else
    match load_verify_key s verify_key with
    | .error diag =>
      fail_verify s bundle_path json_output
        [{ name := "verify_key", status := "fail", message := some diag.message }]
        "error:" diag.message EXIT_ERROR
    | .ok key =>
      match s.verify_bundle_with_key key with
      | .ok .Pass => report_pass s bundle_path json_output
      | .ok (.Fail errors) => report_fail s bundle_path json_output errors
      | .ok (.Skipped reason) => report_skipped s bundle_path json_output strict reason
      | .error e =>
        -- the code of a finding, where the stream below has that of a fault
        fail_verify s bundle_path json_output [bundle_exists_check] "verify: ERROR -" e.display
          EXIT_VERIFICATION_FAILURE

/-! ## The stream -/

def terminal_ok (message : String) : Diagnostic :=
  plain_diagnostic "VERIFY_OK" .Info message

def terminal_fail (message : String) : Diagnostic :=
  plain_diagnostic "VERIFY_FAIL" .Error message

def terminal_error (message : String) : Diagnostic :=
  plain_diagnostic "VERIFY_ERROR" .Error message

def maybe_emit_bundle_incomplete_warning : List Diagnostic :=
  match read_index s bundle_path with
  | none => []
  | some idx =>
    if idx.bundle_complete then []
    else
      [{ plain_diagnostic "VERIFY_BUNDLE_INCOMPLETE" .Warning
          ("bundle_complete=false; " ++ decimal idx.tool_command_failures.length ++
            " captured command(s) exited non-zero: " ++
            String.intercalate ", " idx.tool_command_failures) with
        location := some (file_location (join bundle_path "index.json")) }]

/-- The notice that the tests were not recorded. -/
def maybe_emit_llr_check_skipped_no_outcomes : List Diagnostic :=
  let jsonl_path := join (join bundle_path "tests") "test_outcomes.jsonl"
  if s.exists_at jsonl_path then []
  else
    [{ plain_diagnostic "VERIFY_LLR_CHECK_SKIPPED_NO_OUTCOMES" .Info
        ("tests/test_outcomes.jsonl absent — LLR-052 reverse-traceability check skipped " ++
          "(older bundle or --skip-tests run)") with
      location := some (file_location jsonl_path) }]

/-- The event of a finding; a pre-release tool on the dev profile is only warned of. -/
def finding_event (err : VerifyError) : Diagnostic :=
  if err.dev_prerelease then { err.to_diagnostic with severity := .Warning }
  else err.to_diagnostic

def stream (events : List Diagnostic) (terminal : Diagnostic) (exit : ℤ) : Run Completeness :=
  ⟨(events ++ [terminal]).map .Event, exit⟩

def stream_fail (errors : List VerifyError) : Run Completeness :=
  let events := errors.map finding_event
  if errors.any (!VerifyError.dev_prerelease ·) then
    stream events (terminal_fail (decimal errors.length ++ " finding(s)"))
      EXIT_VERIFICATION_FAILURE
  else
    stream events (terminal_ok "pre-release tool warning on dev profile — non-blocking")
      EXIT_SUCCESS

def stream_skipped (strict : Bool) (reason : String) : Run Completeness :=
  let events := [plain_diagnostic "VERIFY_SKIPPED" .Info reason]
  if strict then
    stream events (terminal_fail ("strict mode: verification skipped: " ++ reason))
      EXIT_VERIFICATION_FAILURE
  else stream events (terminal_ok "verification skipped") EXIT_SUCCESS

/-- The driver of the stream. -/
def cmd_verify_jsonl (strict : Bool) (verify_key : Option String) : Run Completeness :=
  if !s.exists_at bundle_path then
    stream [(VerifyRuntimeError.BundleNotFound bundle_path).to_diagnostic]
      (terminal_error ("bundle path does not exist: " ++ bundle_path)) EXIT_ERROR
  else if strict_signature_missing s bundle_path strict verify_key then
    stream [plain_diagnostic "VERIFY_STRICT_SIGNATURE_MISSING" .Error
        "strict mode: BUNDLE.sig not found and no --verify-key provided"]
      (terminal_fail "bundle failed strict signature requirement") EXIT_VERIFICATION_FAILURE
  else
    match load_verify_key s verify_key with
    | .error diag => stream [diag] (terminal_error diag.message) EXIT_ERROR
    | .ok key =>
      match s.verify_bundle_with_key key with
      | .ok .Pass =>
        stream (maybe_emit_bundle_incomplete_warning s bundle_path ++
            maybe_emit_llr_check_skipped_no_outcomes s bundle_path)
          (terminal_ok ("bundle verified at " ++ debug bundle_path)) EXIT_SUCCESS
      | .ok (.Fail errors) => stream_fail errors
      | .ok (.Skipped reason) => stream_skipped strict reason
      | .error runtime =>
        stream [runtime.to_diagnostic] (terminal_error runtime.display) EXIT_ERROR

def cmd_verify (strict : Bool) (verify_key : Option String) (format : OutputFormat) :
    Run Completeness :=
  let verify_key := resolve_verify_key_path s bundle_path verify_key
  match format with
  | .Jsonl => cmd_verify_jsonl s bundle_path strict verify_key
  | .Json => cmd_verify_document s bundle_path true strict verify_key
  | .Human => cmd_verify_document s bundle_path false strict verify_key

end Command

end Evidence.Cli
