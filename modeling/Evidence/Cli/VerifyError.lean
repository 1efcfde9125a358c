/-
`verify/errors.rs`, `errors_display.rs` and `runtime_error.rs` -- what a verification reports.

A finding and a runtime fault each have a code that never changes, a text and a
location, from which the diagnostic on the wire is made. Three suffixes of codes
are kept for the event that ends a stream, so that a reader can tell a finished
stream from a truncated one: no finding and no fault has a code with one of them.

The passes of `Evidence.Verify` raise seven of the findings themselves and take the
others as given; here all of them are listed.
-/
import Evidence.Bundle.Signing
import Evidence.Diagnostic
import Evidence.Lines

set_option autoImplicit false

namespace Evidence.Cli

open Evidence.Bundle

/-! ## Text -/

/-- `{:?}` of a string or of a path. -/
class DebugText where
  debug : String → String

export DebugText (debug)

/-! ## Findings -/

inductive VerifyError where
  | UnexpectedFile (file : String)
  | SignatureInvalid
  | HashMismatch (file expected actual : String)
  | MissingHashedFile (file : String)
  | ContentHashMismatch (index_hash actual_hash : String)
  | UnsafePath (path : String)
  | FormatError (field expected actual : String)
  | CrossFileInconsistency (field index_value env_value : String)
  | DeterministicHashMismatch (index_hash actual_hash : String)
  | ManifestProjectionDrift (detail : String)
  | TraceOutputNotHashed (path : String)
  | TestSummaryMismatch (field index_value parsed_value : String)
  | DalMapMismatch (crate_name index_value compliance_value : String)
  | DalMapOrphan (crate_name detail : String)
  | PrereleaseToolDetected (profile engine_crate_version : String)
  | BundleIncompletelyClaimed (failure_count : ℕ)
  | ToolCommandsFailedSilently (profile : String) (commands : List String)
  | TestSummaryAbsentOnFailedRun (command_name : String)
  | LlrTestSelectorUnresolved (llr_uid llr_id : String)
  | BoundaryVerifyMetadataMissing
  | BoundaryVerifyForbiddenBuildRs (details : String)
  | BoundaryVerifyForbiddenProcMacro (details : String)
  | SourceBaselineEmpty
  | TestIdentityUnknown (test : String)
  | OutputManifestEmpty
  | TraceEvidenceNotAdopted (profile : String)
  | TraceEvidenceEmpty (profile : String)
  | OnlineResolutionBundle (profile : String)

namespace VerifyError

def code : VerifyError → String
  | UnexpectedFile _ => "VERIFY_UNEXPECTED_FILE"
  | SignatureInvalid => "VERIFY_SIGNATURE_INVALID"
  | HashMismatch .. => "VERIFY_HASH_MISMATCH"
  | MissingHashedFile _ => "VERIFY_MISSING_HASHED_FILE"
  | ContentHashMismatch .. => "VERIFY_CONTENT_HASH_MISMATCH"
  | UnsafePath _ => "VERIFY_UNSAFE_PATH"
  | FormatError .. => "VERIFY_INVALID_FORMAT"
  | CrossFileInconsistency .. => "VERIFY_CROSS_FILE_INCONSISTENCY"
  | DeterministicHashMismatch .. => "VERIFY_DETERMINISTIC_HASH_MISMATCH"
  | ManifestProjectionDrift _ => "VERIFY_MANIFEST_PROJECTION_DRIFT"
  | TraceOutputNotHashed _ => "VERIFY_TRACE_OUTPUT_NOT_HASHED"
  | TestSummaryMismatch .. => "VERIFY_TEST_SUMMARY_MISMATCH"
  | DalMapMismatch .. => "VERIFY_DAL_MAP_MISMATCH"
  | DalMapOrphan .. => "VERIFY_DAL_MAP_ORPHAN"
  | PrereleaseToolDetected .. => "VERIFY_PRERELEASE_TOOL"
  | BundleIncompletelyClaimed _ => "VERIFY_BUNDLE_INCOMPLETELY_CLAIMED"
  | ToolCommandsFailedSilently .. => "VERIFY_TOOL_COMMANDS_FAILED_SILENTLY"
  | TestSummaryAbsentOnFailedRun _ => "VERIFY_TEST_SUMMARY_ABSENT_ON_FAILED_RUN"
  | LlrTestSelectorUnresolved .. => "VERIFY_LLR_TEST_SELECTOR_UNRESOLVED"
  | BoundaryVerifyMetadataMissing => "BOUNDARY_VERIFY_METADATA_MISSING"
  | BoundaryVerifyForbiddenBuildRs _ => "VERIFY_BOUNDARY_BUILD_RS_DETECTED"
  | BoundaryVerifyForbiddenProcMacro _ => "VERIFY_BOUNDARY_PROC_MACRO_DETECTED"
  | SourceBaselineEmpty => "VERIFY_SOURCE_BASELINE_EMPTY"
  | TestIdentityUnknown _ => "VERIFY_TEST_IDENTITY_UNKNOWN"
  | OutputManifestEmpty => "VERIFY_OUTPUT_MANIFEST_EMPTY"
  | TraceEvidenceNotAdopted _ => "TRACE_EVIDENCE_NOT_ADOPTED"
  | TraceEvidenceEmpty _ => "TRACE_EVIDENCE_EMPTY"
  | OnlineResolutionBundle _ => "VERIFY_ONLINE_RESOLUTION"

/-- Every finding is an error. -/
def severity (_ : VerifyError) : Severity :=
  .Error

/-- The file a finding lies in. -/
def file_path : VerifyError → Option String
  | UnexpectedFile p => some p
  | MissingHashedFile p => some p
  | UnsafePath p => some p
  | TraceOutputNotHashed p => some p
  | HashMismatch file _ _ => some file
  | DalMapMismatch crate_name _ _ => some ("compliance/" ++ crate_name ++ ".json")
  | DalMapOrphan crate_name _ => some ("compliance/" ++ crate_name ++ ".json")
  | BoundaryVerifyMetadataMissing => some "cargo_metadata.json"
  | SourceBaselineEmpty => some "inputs_hashes.json"
  | TestIdentityUnknown _ => some "tests/test_outcomes.jsonl"
  | OutputManifestEmpty => some "outputs_hashes.json"
  | TraceEvidenceNotAdopted _ => some "trace/"
  | TraceEvidenceEmpty _ => some "trace/"
  | _ => none

def display [DebugText] : VerifyError → String
  | UnexpectedFile file => "unexpected file: " ++ file
  | SignatureInvalid => "ed25519 signature verification failed"
  | HashMismatch file expected actual =>
    "hash mismatch for " ++ file ++ ": expected " ++ expected ++ ", got " ++ actual
  | MissingHashedFile file => "file in SHA256SUMS not found: " ++ file
  | ContentHashMismatch index_hash actual_hash =>
    "content_hash mismatch: index=" ++ index_hash ++ ", actual=" ++ actual_hash
  | UnsafePath path => "unsafe path in bundle: " ++ path
  | FormatError field expected actual =>
    "invalid format for " ++ field ++ ": expected " ++ expected ++ ", got " ++ actual
  | CrossFileInconsistency field index_value env_value =>
    "env.json vs index.json mismatch for " ++ field ++ ": index=" ++ index_value ++
      ", env=" ++ env_value
  | DeterministicHashMismatch index_hash actual_hash =>
    "recipe_hash mismatch: index=" ++ index_hash ++ ", actual=" ++ actual_hash
  | ManifestProjectionDrift detail =>
    "deterministic-manifest.json is not a valid projection of the bundle's recipe content: " ++
      detail
  | TraceOutputNotHashed path =>
    "trace_outputs entry '" ++ path ++ "' is not listed in SHA256SUMS"
  | TestSummaryMismatch field index_value parsed_value =>
    "test_summary." ++ field ++ " disagrees with re-parsed stdout: index=" ++ index_value ++
      ", parsed=" ++ parsed_value
  | DalMapMismatch crate_name index_value compliance_value =>
    "dal_map[" ++ crate_name ++ "] disagrees with compliance/" ++ crate_name ++
      ".json: index=" ++ index_value ++ ", compliance=" ++ compliance_value
  | DalMapOrphan crate_name detail => "dal_map orphan for '" ++ crate_name ++ "': " ++ detail
  | PrereleaseToolDetected profile engine_crate_version =>
    "bundle was produced by a pre-release build (engine_crate_version = " ++
      debug engine_crate_version ++ "); cert/record bundles from pre-release builds are not " ++
      "valid audit evidence (profile = " ++ profile ++ ")"
  | BundleIncompletelyClaimed failure_count =>
    "bundle_complete=true but " ++ decimal failure_count ++ " captured-subprocess failure(s) " ++
      "are recorded in tool_command_failures; the bundle was hand-edited or produced by a " ++
      "broken generator"
  | ToolCommandsFailedSilently profile commands =>
    "profile='" ++ profile ++ "' bundle carries " ++ decimal commands.length ++
      " recorded captured-subprocess failure(s) (" ++ String.intercalate ", " commands ++
      "); cert/record bundles must have tool_command_failures == []"
  | LlrTestSelectorUnresolved llr_uid llr_id =>
    "LLR " ++ llr_id ++ " (uid=" ++ llr_uid ++ ") declares test verification but no " ++
      "tests/test_outcomes.jsonl record lists this uid in requirement_uids; the " ++
      "test_selector chain is dangling"
  | TestSummaryAbsentOnFailedRun command_name =>
    "tool_command_failures records '" ++ command_name ++ "' but index.json.test_summary is " ++
      "absent — the two fields must be consistent"
  | BoundaryVerifyMetadataMissing =>
    "index.json.boundary_policy claims forbid_build_rs / forbid_proc_macros enforcement but " ++
      "the bundle is missing cargo_metadata.json — the verify-time recheck cannot replay " ++
      "the policy"
  | BoundaryVerifyForbiddenBuildRs details =>
    "verify-time recheck: in-scope build.rs found: " ++ details
  | BoundaryVerifyForbiddenProcMacro details =>
    "verify-time recheck: in-scope proc-macro found: " ++ details
  | SourceBaselineEmpty =>
    "inputs_hashes.json is empty — the bundle records no source baseline; a bundle cannot " ++
      "support a source-baseline or reproducibility claim with zero recorded inputs"
  | TestIdentityUnknown test =>
    "test outcome '" ++ test ++ "' lost its binary identity (__unknown_binary__); LLR " ++
      "test_selectors cannot resolve to a test whose executing binary is unknown"
  | OutputManifestEmpty =>
    "outputs_hashes.json is empty but the bundle recorded a test summary — the build " ++
      "produced deliverables that were never attested"
  | TraceEvidenceNotAdopted profile =>
    "profile='" ++ profile ++ "' bundle ships no trace requirement files — trace evidence " ++
      "was never adopted, so the bundle's traceability claim has zero backing"
  | TraceEvidenceEmpty profile =>
    "profile='" ++ profile ++ "' bundle ships trace files with zero requirements — an empty " ++
      "trace set is an adoption state, not evidence"
  | OnlineResolutionBundle profile =>
    "profile='" ++ profile ++ "' bundle records resolution_policy=online_opt_in — its " ++
      "dependency graph was resolved with network access, so it cannot back a cert/record claim"

/-- `matches!(e, PrereleaseToolDetected { profile, .. } if profile == "dev")`. -/
def dev_prerelease : VerifyError → Bool
  | PrereleaseToolDetected profile _ => profile == "dev"
  | _ => false

end VerifyError

def file_location (file : String) : Location :=
  { file := some file, toml_path := none, entry_uid := none }

/-- A diagnostic without a location. -/
def plain_diagnostic (code : String) (severity : Severity) (message : String) : Diagnostic :=
  { code, severity, message, location := none, fix_hint := none, root_cause_uid := none }

def VerifyError.to_diagnostic [DebugText] (e : VerifyError) : Diagnostic :=
  { plain_diagnostic e.code e.severity e.display with
    location := e.file_path.map file_location }

inductive VerifyResult where
  | Pass
  | Fail (errors : List VerifyError)
  | Skipped (reason : String)

/-! ## Faults -/

inductive HashError where
  | Open (path : String)
  | Read (path : String)
  | Write (path : String)
  | Walk
  | NotUnderBase (path base : String)
  | NonUtf8Path (path : String)
deriving DecidableEq

def HashError.display [DebugText] : HashError → String
  | .Open path => "opening " ++ debug path
  | .Read path => "reading " ++ debug path
  | .Write path => "writing " ++ debug path
  | .Walk => "walking bundle tree"
  | .NotUnderBase path base => debug path ++ " is not under base " ++ debug base
  | .NonUtf8Path path => "non-UTF-8 path: " ++ debug path

def signing_code : SigningError → String
  | .Read _ => "SIGN_READ_FAILED"
  | .InvalidKey _ => "SIGN_INVALID_KEY"
  | .InvalidSignatureHex => "SIGN_INVALID_SIGNATURE_HEX"

def signing_display : SigningError → String
  | .Read path => "reading " ++ path
  | .InvalidKey reason => "invalid key material: " ++ reason
  | .InvalidSignatureHex => "BUNDLE.sig contains invalid hex"

def signing_location : SigningError → Option Location
  | .Read path => some (file_location path)
  | _ => none

def signing_diagnostic (e : SigningError) : Diagnostic :=
  { plain_diagnostic (signing_code e) .Error (signing_display e) with
    location := signing_location e }

/-- `VerifyRuntimeError`, without the errors of the operating system and of the parsers that
it wraps: no text of it shows them. -/
inductive VerifyRuntimeError where
  | BundleNotFound (path : String)
  | ReadFile (path : String)
  | ReadVerifyKey (path : String)
  | ParseIndex
  | Walk
  | Hash (source : HashError)
  | Signing (source : SigningError)
deriving DecidableEq

namespace VerifyRuntimeError

def code : VerifyRuntimeError → String
  | BundleNotFound _ => "VERIFY_RUNTIME_BUNDLE_NOT_FOUND"
  | ReadFile _ => "VERIFY_RUNTIME_READ_FILE"
  | ReadVerifyKey _ => "VERIFY_RUNTIME_READ_VERIFY_KEY"
  | ParseIndex => "VERIFY_RUNTIME_PARSE_INDEX"
  | Walk => "VERIFY_RUNTIME_WALK"
  | Hash _ => "VERIFY_RUNTIME_HASH"
  | Signing _ => "VERIFY_RUNTIME_SIGNING"

def display [DebugText] : VerifyRuntimeError → String
  | BundleNotFound path => "Bundle path does not exist or is not a directory: " ++ path
  | ReadFile path => "reading " ++ path
  | ReadVerifyKey path => "reading verify key from " ++ path
  | ParseIndex => "parsing index.json"
  | Walk => "walking bundle tree"
  | Hash source => source.display
  | Signing source => signing_display source

def location : VerifyRuntimeError → Option Location
  | BundleNotFound p => some (file_location p)
  | ReadFile path => some (file_location path)
  | ReadVerifyKey path => some (file_location path)
  | _ => none

def to_diagnostic [DebugText] (e : VerifyRuntimeError) : Diagnostic :=
  { plain_diagnostic e.code .Error e.display with location := e.location }

end VerifyRuntimeError

/-! ## Terminal events -/

/-- The three ways a stream ends. -/
inductive Terminal where
  | Ok
  | Fail
  | Error
deriving DecidableEq

/-- What the suffix of a code says: the reserved ones are `_OK`, `_FAIL` and `_ERROR`. -/
def terminal_of (code : String) : Option Terminal :=
  if "_OK".toList.isSuffixOf code.toList then some .Ok
  else if "_FAIL".toList.isSuffixOf code.toList then some .Fail
  else if "_ERROR".toList.isSuffixOf code.toList then some .Error
  else none

/-- **No finding has the code of a terminal event.** -/
theorem terminal_of_finding (e : VerifyError) : terminal_of e.code = none := by
  cases e <;> simp only [VerifyError.code] <;> decide +kernel

theorem terminal_of_fault (e : VerifyRuntimeError) : terminal_of e.code = none := by
  cases e <;> simp only [VerifyRuntimeError.code] <;> decide +kernel

theorem terminal_of_signing (e : SigningError) : terminal_of (signing_code e) = none := by
  cases e <;> simp only [signing_code] <;> decide +kernel

end Evidence.Cli
