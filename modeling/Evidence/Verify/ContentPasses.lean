/-
`verify/` -- the passes over the content of a bundle, and what they bind.

A bundle's `index.json` says of its files what kind of bundle they are: the profile, the
commit, the crates in scope and their levels, the counts of the test run, the hashes of the
sums and of the recipe. It is not itself among the files that are hashed. What it says is
checked against them: against the environment, what the tests printed, the compliance
reports, and the recipe manifest, which is projected anew and compared byte by byte.

So the same files do not pass under another index (`metadata_bound`): two bundles that pass
and differ in `index.json` and the signature at most agree on all that is checked.
-/
import Mathlib.Algebra.Order.BigOperators.Group.List
import Mathlib.Algebra.Order.Ring.Nat
import Evidence.Bundle.BoundaryReplay
import Evidence.Cli.TestPhase
import Evidence.Diff.Artifacts
import Evidence.Trace.Backlinks
import Evidence.Verify.TamperEvidence
import Evidence.Verify.TestSummaryCheck

set_option autoImplicit false

namespace Evidence.Verify

open Corpus Evidence.Bundle Check Sorting
open BoundaryCheck (check_boundary_recheck)
open Cli (CommandRecord CompletenessIndex Profile ResolutionPolicy TraceToml DebugText)
open Diff (ReadDir is_dir is_file)
open Trace (skipped)

/-! ## The index -/

/-- `EvidenceIndex`, as far as the passes read it. -/
structure IndexContent extends CompletenessIndex, run : EvidenceIndex,
    scope : BoundaryCheck.EvidenceIndex where
  timestamp_rfc3339 : String
  git_sha : String
  git_branch : String
  git_dirty : Bool
  engine_crate_version : String
  engine_git_sha : String
  engine_build_source : String
  recipe_hash : String
  resolution_policy : ResolutionPolicy

/-- `EnvFingerprint`, as far as it is read. -/
structure EnvFingerprint where
  profile : Profile
  rustc : String
  cargo : String
  llvm_version : Option String
  cargo_lock_hash : Option String
  rust_toolchain_toml : Option String
  rustflags : Option String
  target_triple : String
  git_sha : String
  git_branch : String
  git_dirty : Bool
  tool_prerelease : Bool

/-- `serde_json` and `chrono`, as far as the passes read by them. -/
class ContentJson extends SerdeJson where
  index_from_str : String → Option IndexContent
  env_from_slice : List UInt8 → Option EnvFingerprint
  digests_from_slice : List UInt8 → Option DigestMap
  commands_from_slice : List UInt8 → Option (List CommandRecord)
  projection_from_slice : List UInt8 → Option CargoMetadataProjection
  /-- The `dal` of a `ComplianceReport`. -/
  report_dal_from_str : String → Option String
  parse_from_rfc3339 : String → Bool

/-! ## The recipe manifest -/

structure RecipeInputs where
  features : List String
  locked_graph_hash : Option String
  command_recipe_hash : String
  inputs_hash : String
  resolution_policy : ResolutionPolicy

structure RecipeManifest extends RecipeInputs, EnvFingerprint where
  schema_version : String

def EnvFingerprint.recipe_manifest (env : EnvFingerprint) (inputs : RecipeInputs) :
    RecipeManifest :=
  { env, inputs with schema_version := "0.0.1" }

/-- The name of a policy on the wire. -/
def policy_text : ResolutionPolicy → String
  | .LockedOffline => "locked_offline"
  | .OnlineOptIn => "online_opt_in"

def nullable_text (text : Option String) : Json.Value := text.elim .null .string

/-- The members in front of the policy, after the first. -/
def RecipeManifest.front (m : RecipeManifest) : List (String × Json.Value) :=
  [("profile", .string m.profile.text), ("rustc", .string m.rustc), ("cargo", .string m.cargo)] ++
    skipped "llvm_version" (m.llvm_version.map .string) ++
    skipped "cargo_lock_hash" (m.cargo_lock_hash.map .string) ++
    skipped "rust_toolchain_toml" (m.rust_toolchain_toml.map .string) ++
    skipped "rustflags" (m.rustflags.map .string) ++
    [("target_triple", .string m.target_triple), ("features", .array (m.features.map .string)),
      ("locked_graph_hash", nullable_text m.locked_graph_hash),
      ("command_recipe_hash", .string m.command_recipe_hash),
      ("inputs_hash", .string m.inputs_hash)]

/-- The value that the manifest is serialized as, in the order of its fields. -/
def RecipeManifest.value (m : RecipeManifest) : Json.Value :=
  .object (("schema_version", .string m.schema_version) :: (m.front ++
    ("resolution_policy", .string (policy_text m.resolution_policy)) ::
      [("git_sha", .string m.git_sha), ("git_branch", .string m.git_branch),
        ("git_dirty", .bool m.git_dirty)]))

/-- `serde_json::to_vec_pretty`. -/
def to_vec_pretty (value : Json.Value) : List UInt8 := str_bytes (Json.to_string_pretty value)

def exit_number (code : ℤ) : Json.Number :=
  if 0 ≤ code then .PosInt code.toNat else .NegInt code.natAbs

def command_value (command : CommandRecord) : Json.Value :=
  .object [("argv", .array (command.argv.map .string)), ("cwd", .string command.cwd),
    ("exit_code", .number (exit_number command.exit_code)),
    ("stdout_path", nullable_text command.stdout_path),
    ("stderr_path", nullable_text command.stderr_path)]

/-- `serde_json::to_vec` of the graph. -/
def compact_graph (graph : ResolvedGraph) : String :=
  "\x7b" ++ ",".intercalate (graph.values.map fun node =>
    Json.quoted node.1 ++ ":[" ++
      ",".intercalate ((sorted_dependencies node.2).map Json.quoted) ++ "]") ++ "\x7d"

inductive GatherFailure where
  | Missing
  | Unreadable (name : String)

section Passes

variable [Sha256] [ContentJson]

def inputs_digest (inputs : DigestMap) : String :=
  sha256 (to_vec_pretty (.object (inputs.values.map fun entry => (entry.1, .string entry.2))))

def commands_digest (commands : List CommandRecord) : String :=
  sha256 (to_vec_pretty (.array (commands.map command_value)))

def locked_graph_digest (projection : CargoMetadataProjection) : String :=
  sha256 (str_bytes (compact_graph projection.dependencies))

def read_json {α : Type} (from_slice : List UInt8 → Option α) (bundle : FileTree)
    (name : String) : Except GatherFailure α :=
  ((read_bytes bundle name).bind from_slice).elim (.error (.Unreadable name)) .ok

/-- The digest of the graph, if the bundle carries the projection. -/
def gather_graph_hash (bundle : FileTree) : Except GatherFailure (Option String) :=
  if bundle.exists_text "cargo_metadata.json".toList then
    (read_json ContentJson.projection_from_slice bundle "cargo_metadata.json").map
      fun projection => some (locked_graph_digest projection)
  else .ok none

def RecipeInputs.from_bundle_dir (bundle : FileTree) (resolution_policy : ResolutionPolicy) :
    Except GatherFailure RecipeInputs :=
  if !bundle.exists_text "inputs_hashes.json".toList then .error .Missing
  else if !bundle.exists_text "commands.json".toList then .error .Missing
  else do
    let inputs ← read_json ContentJson.digests_from_slice bundle "inputs_hashes.json"
    let commands ← read_json ContentJson.commands_from_slice bundle "commands.json"
    let locked_graph_hash ← gather_graph_hash bundle
    .ok { features := [], locked_graph_hash := locked_graph_hash,
          command_recipe_hash := commands_digest commands, inputs_hash := inputs_digest inputs,
          resolution_policy := resolution_policy }

variable (bundle : FileTree) (index : IndexContent)

/-- Whether the manifest is the projection of what was recorded. The text of a parser's error
is not kept. -/
def check_projection : List Cli.VerifyError :=
  match read_bytes bundle "env.json", read_bytes bundle "deterministic-manifest.json" with
  | some env_bytes, some manifest_bytes =>
    match ContentJson.env_from_slice env_bytes with
    | none => [.ManifestProjectionDrift "parse env.json: "]
    | some env_fp =>
      match RecipeInputs.from_bundle_dir bundle index.resolution_policy with
      | .error .Missing => []
      | .error (.Unreadable _) => [.ManifestProjectionDrift "gather recipe inputs: "]
      | .ok recipe_inputs =>
        let reprojected := to_vec_pretty (env_fp.recipe_manifest recipe_inputs).value
        if reprojected ≠ manifest_bytes then
          [.ManifestProjectionDrift ("manifest " ++ decimal manifest_bytes.length ++
            " bytes, reprojection " ++ decimal reprojected.length ++ " bytes")]
        else []
  | _, _ => []

def check_recipe_manifest : Except VerifyRuntimeError (List Cli.VerifyError) :=
  if !bundle.exists_text "deterministic-manifest.json".toList then .ok []
  else do
    let actual ← sha256_file bundle "deterministic-manifest.json"
    let differs :=
      if index.recipe_hash ≠ actual then [.DeterministicHashMismatch index.recipe_hash actual]
      else []
    .ok (differs ++ check_projection bundle index)

/-! ## The passes over the index -/

/-- A map of digests that is there, can be read, and is empty. -/
def records_nothing (name : String) : Bool :=
  ((read_to_string bundle name).bind fun content =>
    ContentJson.digests_from_slice (str_bytes content)).any fun map => map.values.isEmpty

def check_source_baseline (declares_scope : Bool) : List Cli.VerifyError :=
  if declares_scope && records_nothing bundle "inputs_hashes.json" then [.SourceBaselineEmpty]
  else []

def check_output_manifest (build_ran : Bool) : List Cli.VerifyError :=
  if build_ran && records_nothing bundle "outputs_hashes.json" then [.OutputManifestEmpty] else []

def UNKNOWN_BINARY : String := "__unknown_binary__"

/-- A member that is a text, or the default. -/
def text_member (key default : String) (value : Json.Value) : String :=
  ((value.get key).bind Json.Value.as_str).getD default

def check_test_identity : List Cli.VerifyError :=
  ((read_to_string bundle "tests/test_outcomes.jsonl").elim [] fun jsonl =>
    (lines jsonl.toList).filter fun line => !(trim_chars line).isEmpty).filterMap fun line =>
      (SerdeJson.from_str (String.ofList line)).bind fun record =>
        let module_path := text_member "module_path" "" record
        if contains_text UNKNOWN_BINARY.toList module_path.toList then
          some (.TestIdentityUnknown (module_path ++ "::" ++ text_member "name" "<unknown>" record))
        else none

/-- How many entries a trace file has, if it is there; one that does not parse has none. -/
def entry_count {α : Type} (parse : List UInt8 → Option α) (count : α → ℕ) (name : String) :
    Option ℕ :=
  if is_file bundle name then some (((read_bytes bundle name).bind parse).elim 0 count) else none

def check_trace_evidence [TraceToml] (profile : Profile) : List Cli.VerifyError :=
  let counts := [entry_count bundle TraceToml.hlr_file (·.requirements.length) "trace/sys.toml",
    entry_count bundle TraceToml.hlr_file (·.requirements.length) "trace/hlr.toml",
    entry_count bundle TraceToml.llr_file (·.requirements.length) "trace/llr.toml",
    entry_count bundle TraceToml.tests_file (·.tests.length) "trace/tests.toml",
    entry_count bundle TraceToml.derived_file (·.requirements.length)
      "trace/derived.toml"].reduceOption
  if profile = .Dev then []
  else if counts = [] then [.TraceEvidenceNotAdopted profile.text]
  else if counts.all (· == 0) then [.TraceEvidenceEmpty profile.text]
  else []

def check_resolution_policy : List Cli.VerifyError :=
  if index.resolution_policy = .OnlineOptIn ∧ index.profile ≠ .Dev then
    [.OnlineResolutionBundle index.profile.text]
  else []

/-- 40 hexadecimal digits. -/
def is_commit (sha : String) : Bool := str_len sha == 40 && sha.toList.all is_ascii_hexdigit

def check_engine_source (source sha : String) (profile : Profile) : List Cli.VerifyError :=
  if source = "git" then
    if is_commit sha then []
    else [.FormatError "engine_git_sha" "40-character hex SHA when engine_build_source=\"git\"" sha]
  else if source = "release" then
    (if ( strip_prefix "release-v" sha).any fun version => version.toList.head?.any Char.isDigit
      then []
      else [.FormatError "engine_git_sha"
        "release-v<version> string when engine_build_source=\"release\"" sha]) ++
    if profile = .Dev then []
    else [.FormatError "engine_build_source" "\"git\" (required for cert/record profiles)" source]
  else if source = "unknown" then
    if profile = .Dev then []
    else [.FormatError "engine_build_source"
      "\"git\" (cert/record cannot accept unlabeled engine provenance)" source]
  else [.FormatError "engine_build_source" "one of: git, release, unknown" source]

def check_digest_format (field digest : String) : List Cli.VerifyError :=
  if is_sha256_hex digest then []
  else [.FormatError field "64-character lowercase hex (SHA-256)" digest]

def validate_index_fields : List Cli.VerifyError :=
  (if index.profile ≠ .Dev ∧ is_commit index.git_sha = false then
    [.FormatError "git_sha" "40-character hex (required for cert/record profiles)" index.git_sha]
    else []) ++
  check_engine_source index.engine_build_source index.engine_git_sha index.profile ++
  (if ContentJson.parse_from_rfc3339 index.timestamp_rfc3339 then []
    else [.FormatError "timestamp_rfc3339" "valid RFC3339 datetime" index.timestamp_rfc3339]) ++
  check_digest_format "content_hash" index.content_hash ++
  check_digest_format "recipe_hash" index.recipe_hash

/-- A member of the environment that is not what the index says; one of another type is
passed over. -/
def env_mismatch (field index_value : String) (env_value : Option String) :
    List Cli.VerifyError :=
  match env_value with
  | some value =>
    if value ≠ index_value then [.CrossFileInconsistency field index_value value] else []
  | none => []

def bool_text (b : Bool) : String := if b then "true" else "false"

/-- A flag, as it is displayed. -/
def shown_bool : Json.Value → Option String
  | .bool b => some (bool_text b)
  | _ => none

def check_env_vs_index : List Cli.VerifyError :=
  ((read_to_string bundle "env.json").bind SerdeJson.from_str).elim [] fun env =>
    env_mismatch "profile" index.profile.text ((env.get "profile").bind Json.Value.as_str) ++
    env_mismatch "git_sha" index.git_sha ((env.get "git_sha").bind Json.Value.as_str) ++
    env_mismatch "git_branch" index.git_branch ((env.get "git_branch").bind Json.Value.as_str) ++
    env_mismatch "git_dirty" (bool_text index.git_dirty) ((env.get "git_dirty").bind shown_bool)

def check_prerelease_tool : List Cli.VerifyError :=
  if ((read_bytes bundle "env.json").bind ContentJson.env_from_slice).any (·.tool_prerelease) then
    [.PrereleaseToolDetected index.profile.text index.engine_crate_version]
  else []

/-- Steps 3a to 3d. -/
def index_checks [TraceToml] : List Cli.VerifyError :=
  Cli.check_bundle_completeness index.toCompletenessIndex ++
  Trace.check_llr_test_selectors (read_to_string bundle "tests/test_outcomes.jsonl")
    ((read_bytes bundle "trace/llr.toml").bind TraceToml.llr_file) ++
  check_source_baseline bundle (!index.dal_map.values.isEmpty) ++
  check_test_identity bundle ++
  check_output_manifest bundle index.test_summary.isSome ++
  check_trace_evidence bundle index.profile ++
  check_resolution_policy index ++
  validate_index_fields index ++
  check_env_vs_index bundle index ++
  check_prerelease_tool bundle index

/-! ## The passes over what was listed -/

omit [Sha256] [ContentJson] in
def check_trace_outputs_hashed (listed : Finset (List Char)) : List Cli.VerifyError :=
  index.trace_outputs.filterMap fun trace_out =>
    if trace_out.toList ∈ listed then none else some (.TraceOutputNotHashed trace_out)

/-- What the report of a crate is; a name with a slash in front leaves the bundle. -/
def report_file (crate_name : String) : Option Found :=
  let file := (crate_name ++ ".json").toList
  if file.head? = some '/' then bundle.outside (FileTree.components (os_name file))
  else bundle.resolve_text ("compliance/".toList ++ file)

/-- The text of a file. -/
def file_text : Found → Option String
  | .File content => from_utf8 content
  | .Dir => none

/-- The level that a report gives. -/
def report_dal (crate_name : String) : Option String :=
  ((report_file bundle crate_name).bind file_text).bind ContentJson.report_dal_from_str

/-- An entry of the map, and the report of its crate. -/
def check_dal_entry (entry : String × String) : Option Cli.VerifyError :=
  let rel := "compliance/" ++ entry.1 ++ ".json"
  match report_file bundle entry.1 with
  | none => some (.DalMapOrphan entry.1 (rel ++ " missing"))
  | some found =>
    match file_text found with
    | none => some (.DalMapOrphan entry.1 (rel ++ " read error: "))
    | some text =>
      match ContentJson.report_dal_from_str text with
      | none => some (.DalMapOrphan entry.1 (rel ++ " parse error: "))
      | some dal => if dal ≠ entry.2 then some (.DalMapMismatch entry.1 entry.2 dal) else none

/-- A piece that is text. -/
def to_char : OsPiece → Option Char
  | .Valid c => some c
  | .Invalid _ => none

/-- `OsStr::to_str`. -/
def to_str (name : OsName) : Option String :=
  (name.mapM to_char).map String.ofList

/-- The stem of a file name with the extension `json`, if it is text. -/
def json_stem (name : OsName) : Option String :=
  let dotted := os_name ".json".toList
  if dotted.isSuffixOf name ∧ name ≠ dotted then to_str (name.take (name.length - 5)) else none

def check_dal_map [ReadDir] : List Cli.VerifyError :=
  index.dal_map.values.filterMap (check_dal_entry bundle) ++
  if is_dir bundle "compliance" then
    ((ReadDir.read_dir bundle "compliance").getD []).filterMap fun name =>
      (json_stem name).bind fun stem =>
        if (index.dal_map.get stem).isNone then
          some (.DalMapOrphan stem ("compliance/" ++ stem ++ ".json has no entry in index.dal_map"))
        else none
  else []

/-- Steps 6c to 6f. -/
def consistency_checks [ReadDir] (listed : Finset (List Char)) : List Cli.VerifyError :=
  check_boundary_recheck SerdeJson.from_str bundle index.scope
    (check_trace_outputs_hashed index listed ++
      check_test_summary (read_bytes bundle "tests/cargo_test_stdout.txt") index.test_summary ++
      check_dal_map bundle index)

/-- The passes that `verify_bundle_with_key` makes. -/
def content_passes [TraceToml] [ReadDir] [DebugText] : Passes :=
  let lift := fun errors : List Cli.VerifyError =>
    errors.map fun error => VerifyError.Finding error.code error.display
  { parse_index := fun text => (ContentJson.index_from_str text).map IndexContent.run
    index_checks := fun bundle text =>
      (ContentJson.index_from_str text).elim [] fun index => lift (index_checks bundle index)
    check_recipe_manifest := fun bundle text =>
      (ContentJson.index_from_str text).elim (.ok []) fun index =>
        (check_recipe_manifest bundle index).map lift
    consistency_checks := fun bundle text listed =>
      (ContentJson.index_from_str text).elim [] fun index =>
        lift (consistency_checks bundle index listed) }

end Passes

/-! ## One member of the manifest -/

/-- Where all that is around the policy is the same, the policy is. -/
theorem policy_of_manifest {env : EnvFingerprint} {inputs : RecipeInputs}
    {policy : ResolutionPolicy}
    (h : to_vec_pretty (env.recipe_manifest { inputs with resolution_policy := policy }).value =
      to_vec_pretty (env.recipe_manifest inputs).value) : policy = inputs.resolution_policy := by
  have hquoted : Json.quoted (policy_text policy) =
      Json.quoted (policy_text inputs.resolution_policy) := Json.pretty_member_inj (str_bytes_inj h)
  have hdiffer : Json.quoted "locked_offline" ≠ Json.quoted "online_opt_in" := by decide
  revert hquoted
  cases policy <;> cases inputs.resolution_policy <;> intro hquoted
  · rfl
  · exact absurd hquoted hdiffer
  · exact absurd hquoted.symm hdiffer
  · rfl

/-! ## A bundle that passes -/

section Accepted

variable [Sha256] [ContentJson] [TraceToml] [ReadDir]

/-- The index of a bundle. -/
def read_index (bundle : FileTree) : Option IndexContent :=
  (read_to_string bundle "index.json").bind ContentJson.index_from_str

/-- What the passes over the content found: nothing. -/
structure Accepted (bundle : FileTree) (index : IndexContent) : Prop where
  required : missing_required bundle = []
  checks : index_checks bundle index = []
  hash : sha256_file bundle "SHA256SUMS" = .ok index.content_hash
  manifest : check_recipe_manifest bundle index = .ok []
  consistent : ∃ listed, consistency_checks bundle index listed = []

/-- The passes, over the index that a text gives. -/
theorem content_passes_eq [DebugText] (bundle : FileTree) {text : String} {index : IndexContent}
    (hparse : ContentJson.index_from_str text = some index) :
    parse_index content_passes text = .ok index.run ∧
    (content_passes.index_checks bundle text = [] ↔ index_checks bundle index = []) ∧
    (content_passes.check_recipe_manifest bundle text = .ok [] ↔
      check_recipe_manifest bundle index = .ok []) ∧
    ∀ listed, content_passes.consistency_checks bundle text listed = [] ↔
      consistency_checks bundle index listed = [] := by
  refine ⟨?_, ?_, ?_, fun listed => ?_⟩
  · simp only [parse_index, content_passes, hparse, Option.map_some]
  · simp only [content_passes, hparse, Option.elim_some, List.map_eq_nil_iff]
  · simp only [content_passes, hparse, Option.elim_some]
    cases check_recipe_manifest bundle index with
    | error fault => exact iff_of_false (fun h => by cases h) (fun h => by cases h)
    | ok errors => simp [Except.map]
  · simp only [content_passes, hparse, Option.elim_some, List.map_eq_nil_iff]

theorem accepted_of_pass [Ed25519] [DebugText] {bundle : FileTree} {key : Option VerifyingKey}
    (h : verify_bundle_with_key content_passes bundle key = .ok .Pass) :
    ∃ index, read_index bundle = some index ∧ Accepted bundle index := by
  obtain ⟨hrequired, ⟨content, run, hread, hrun, hchecks, -, hhash, hmanifest, -, listed, -, -,
    -, hconsistent, -⟩, -⟩ := (verify_pass_iff _ _).mp h
  have hcontent : read_to_string bundle "index.json" = some content := by
    unfold read_file at hread
    split at hread
    · cases hread
    · next hsome => exact hsome.trans (congrArg some (Except.ok.inj hread))
  cases hindex : ContentJson.index_from_str content with
  | none => simp [parse_index, content_passes, hindex] at hrun
  | some index =>
    obtain ⟨hparse, hchecks_iff, hmanifest_iff, hconsistent_iff⟩ :=
      content_passes_eq bundle hindex
    obtain rfl := Except.ok.inj (hparse.symm.trans hrun)
    exact ⟨index, by rw [read_index, hcontent, Option.bind_some, hindex], hrequired,
      hchecks_iff.mp hchecks, hhash, hmanifest_iff.mp hmanifest, listed,
      (hconsistent_iff listed).mp hconsistent⟩

variable {bundle : FileTree} {index : IndexContent}

omit [Sha256] [ContentJson] [TraceToml] [ReadDir] in
theorem exists_of_required (h : missing_required bundle = []) {name : String}
    (hname : name ∈ REQUIRED_FILES) : bundle.exists_text name.toList = true := by
  have hnone := List.filterMap_eq_nil_iff.mp h name hname
  by_contra hmissing
  rw [if_neg hmissing] at hnone
  cases hnone

/-- The hash of the recipe is that of the manifest, and the manifest was checked. -/
theorem Accepted.recipe (h : Accepted bundle index) :
    sha256_file bundle "deterministic-manifest.json" = .ok index.recipe_hash ∧
      check_projection bundle index = [] := by
  have hmanifest := h.manifest
  rw [check_recipe_manifest, exists_of_required h.required (by decide), Bool.not_true,
    if_neg Bool.false_ne_true] at hmanifest
  obtain ⟨actual, hactual, herrors⟩ := bind_ok_iff.mp hmanifest
  obtain ⟨hdiffers, hprojection⟩ := List.append_eq_nil_iff.mp (Except.ok.inj herrors)
  refine ⟨?_, hprojection⟩
  by_cases hsame : index.recipe_hash = actual
  · rw [hactual, hsame]
  · rw [if_pos hsame] at hdiffers
    cases hdiffers

/-- What the environment says of the kind of bundle. -/
structure States (env : Json.Value) (profile : Profile) (git_sha git_branch : String)
    (git_dirty : Bool) : Prop where
  profile : env.get "profile" = some (.string profile.text)
  git_sha : env.get "git_sha" = some (.string git_sha)
  git_branch : env.get "git_branch" = some (.string git_branch)
  git_dirty : env.get "git_dirty" = some (.bool git_dirty)

/-- An object is read as the record with its members. -/
def EnvReads : Prop :=
  ∀ (bytes : List UInt8) (text : String) (members : List (String × Json.Value))
    (env : EnvFingerprint), from_utf8 bytes = some text →
      SerdeJson.from_str text = some (.object members) →
        ContentJson.env_from_slice bytes = some env →
          States (.object members) env.profile env.git_sha env.git_branch env.git_dirty

/-- The environment is a JSON object, and it and the manifest can be read. -/
def Recorded (bundle : FileTree) (members : List (String × Json.Value))
    (manifest : List UInt8) : Prop :=
  (read_to_string bundle "env.json").bind SerdeJson.from_str = some (.object members) ∧
    read_bytes bundle "deterministic-manifest.json" = some manifest

omit [Sha256] [ContentJson] [TraceToml] [ReadDir] in
theorem profile_text_inj {p q : Profile} (h : p.text = q.text) : p = q := by
  cases p <;> cases q <;> first | rfl | exact absurd h (by decide)

omit [Sha256] [ContentJson] [TraceToml] [ReadDir] in
theorem env_mismatch_some {field index_value value : String} :
    env_mismatch field index_value (some value) = [] ↔ value = index_value := by
  by_cases h : value = index_value <;> simp [env_mismatch, h]

omit [TraceToml] [ReadDir] in
/-- What the recipe is gathered from is required. -/
theorem gather_ne_missing (hrequired : missing_required bundle = [])
    (policy : ResolutionPolicy) :
    RecipeInputs.from_bundle_dir bundle policy ≠ .error .Missing := by
  have hread : ∀ {α : Type} (from_slice : List UInt8 → Option α) (name : String),
      read_json from_slice bundle name ≠ .error .Missing := by
    intro α from_slice name
    unfold read_json
    cases (read_bytes bundle name).bind from_slice <;> exact fun h => by cases h
  intro h
  rw [RecipeInputs.from_bundle_dir, exists_of_required hrequired (by decide),
    exists_of_required hrequired (by decide), Bool.not_true, if_neg Bool.false_ne_true,
    if_neg Bool.false_ne_true] at h
  rcases bind_error_iff.mp h with h | ⟨inputs, -, h⟩
  · exact hread _ _ h
  · rcases bind_error_iff.mp h with h | ⟨commands, -, h⟩
    · exact hread _ _ h
    · rcases bind_error_iff.mp h with h | ⟨hash, -, h⟩
      · unfold gather_graph_hash at h
        split_ifs at h
        exact hread _ _ (error_of_map h)
      · cases h

omit [TraceToml] [ReadDir] in
/-- The policy is taken over, and nothing else depends on it. -/
theorem gather_policy {policy : ResolutionPolicy} {inputs : RecipeInputs}
    (h : RecipeInputs.from_bundle_dir bundle policy = .ok inputs) :
    inputs.resolution_policy = policy ∧ ∀ policy', RecipeInputs.from_bundle_dir bundle policy' =
      .ok { inputs with resolution_policy := policy' } := by
  unfold RecipeInputs.from_bundle_dir at h ⊢
  split_ifs at h with hinputs hcommands
  simp only [if_neg hinputs, if_neg hcommands]
  obtain ⟨digests, hdigests, h⟩ := bind_ok_iff.mp h
  obtain ⟨commands, hcommands, h⟩ := bind_ok_iff.mp h
  obtain ⟨hash, hhash, h⟩ := bind_ok_iff.mp h
  rw [← Except.ok.inj h]
  refine ⟨rfl, fun policy' => ?_⟩
  exact bind_ok_iff.mpr ⟨digests, hdigests, bind_ok_iff.mpr ⟨commands, hcommands,
    bind_ok_iff.mpr ⟨hash, hhash, rfl⟩⟩⟩

/-- **The manifest is the projection of the environment under the policy of the index.** -/
theorem Accepted.projected {members : List (String × Json.Value)} {manifest : List UInt8}
    (h : Accepted bundle index) (hrecorded : Recorded bundle members manifest) :
    ∃ bytes text env inputs, read_bytes bundle "env.json" = some bytes ∧
      from_utf8 bytes = some text ∧ SerdeJson.from_str text = some (.object members) ∧
      ContentJson.env_from_slice bytes = some env ∧
      RecipeInputs.from_bundle_dir bundle index.resolution_policy = .ok inputs ∧
      to_vec_pretty (env.recipe_manifest inputs).value = manifest := by
  obtain ⟨henv, hmanifest⟩ := hrecorded
  obtain ⟨text, htext, hvalue⟩ := Option.bind_eq_some_iff.mp henv
  obtain ⟨bytes, hbytes, hutf8⟩ := Option.bind_eq_some_iff.mp htext
  have hprojection := h.recipe.2
  rw [check_projection, hbytes, hmanifest] at hprojection
  simp only at hprojection
  split at hprojection
  · cases hprojection
  · next env hread =>
    split at hprojection
    · next hmissing =>
      exact absurd hmissing (gather_ne_missing h.required _)
    · cases hprojection
    · next inputs hinputs =>
      refine ⟨bytes, text, env, inputs, hbytes, hutf8, hvalue, hread, hinputs, ?_⟩
      by_contra hdrift
      rw [if_pos hdrift] at hprojection
      cases hprojection

/-- **The environment says what the index says.** -/
theorem Accepted.states {members : List (String × Json.Value)} {manifest : List UInt8}
    (h : Accepted bundle index) (hreads : EnvReads)
    (hrecorded : Recorded bundle members manifest) :
    States (.object members) index.profile index.git_sha index.git_branch index.git_dirty := by
  obtain ⟨bytes, text, env, inputs, -, hutf8, hvalue, hread, -, -⟩ := h.projected hrecorded
  have hstates := hreads bytes text members env hutf8 hvalue hread
  have hchecks := h.checks
  simp only [index_checks, List.append_eq_nil_iff] at hchecks
  obtain ⟨⟨-, hcross⟩, -⟩ := hchecks
  rw [check_env_vs_index, hrecorded.1, Option.elim_some, hstates.profile, hstates.git_sha,
    hstates.git_branch, hstates.git_dirty] at hcross
  simp only [Option.bind_some, Json.Value.as_str, shown_bool, List.append_eq_nil_iff,
    env_mismatch_some] at hcross
  obtain ⟨⟨⟨hprofile, hsha⟩, hbranch⟩, hdirty⟩ := hcross
  have hflag : env.git_dirty = index.git_dirty := by
    revert hdirty
    cases env.git_dirty <;> cases index.git_dirty <;> decide
  exact ⟨hprofile ▸ hstates.profile, hsha ▸ hstates.git_sha, hbranch ▸ hstates.git_branch,
    hflag ▸ hstates.git_dirty⟩

omit [Sha256] [TraceToml] [ReadDir] in
theorem recheck_adds (scope : BoundaryCheck.EvidenceIndex) (errors : List Cli.VerifyError) :
    errors <+: check_boundary_recheck SerdeJson.from_str bundle scope errors := by
  have hadd : ∀ {p q : Bool} {before : List Cli.VerifyError} {error : Cli.VerifyError},
      errors <+: before → errors <+:
        if p = true then (if q = true then before ++ [error] else before) else before := by
    intro p q before error hbefore
    split_ifs
    · exact hbefore.trans (List.prefix_append _ _)
    · exact hbefore
    · exact hbefore
  rw [check_boundary_recheck]
  dsimp only
  split
  · exact List.prefix_rfl
  · split
    · exact List.prefix_rfl
    · split
      · exact List.prefix_append _ _
      · split
        · exact List.prefix_append _ _
        · split
          · exact List.prefix_append _ _
          · exact hadd (hadd List.prefix_rfl)

omit [Sha256] [TraceToml] in
theorem of_recheck {listed : Finset (List Char)}
    (h : consistency_checks bundle index listed = []) :
    check_trace_outputs_hashed index listed ++
      check_test_summary (read_bytes bundle "tests/cargo_test_stdout.txt") index.test_summary ++
        check_dal_map bundle index = [] := by
  have hadds := @recheck_adds _ bundle index.scope (check_trace_outputs_hashed index listed ++
    check_test_summary (read_bytes bundle "tests/cargo_test_stdout.txt") index.test_summary ++
      check_dal_map bundle index)
  rw [consistency_checks] at h
  rw [h] at hadds
  exact List.prefix_nil.mp hadds

/-- A name that is one name of a file, with the extension too. -/
def IsCrateName (name : String) : Prop := name ≠ "" ∧ '/' ∉ name.toList

omit [Sha256] [ContentJson] [TraceToml] [ReadDir] in
theorem report_name {name : String} (hname : IsCrateName name) :
    IsName (os_name (name ++ ".json").toList) := by
  have hlength : 5 ≤ (os_name (name ++ ".json").toList).length := by
    rw [os_name, List.length_map, String.toList_append, List.length_append]
    exact Nat.le_add_left 5 _
  refine ⟨?_, ?_, ?_, fun hslash => ?_⟩
  · intro hnil
    rw [hnil] at hlength
    exact absurd hlength (by decide)
  · intro hdot
    rw [hdot] at hlength
    exact absurd hlength (by decide)
  · intro hdots
    rw [hdots] at hlength
    exact absurd hlength (by decide)
  · obtain ⟨c, hc, hvalid⟩ := List.mem_map.mp hslash
    rw [OsPiece.Valid.injEq] at hvalid
    rw [hvalid, String.toList_append, List.mem_append] at hc
    exact hc.elim hname.2 (by decide)

omit [Sha256] [ContentJson] [TraceToml] [ReadDir] in
theorem compliance_path {file : String} (hfile : IsName (os_name file.toList)) :
    FileTree.components (os_name ("compliance/" ++ file).toList) =
      [os_name "compliance".toList, os_name file.toList] := by
  have hjoined : os_name ("compliance/" ++ file).toList =
      os_name "compliance".toList ++ .Valid '/' :: os_name file.toList := by
    rw [String.toList_append, os_name, List.map_append]
    rfl
  rw [FileTree.components, hjoined, List.splitOn_append_cons_self,
    List.splitOn_eq_singleton (by decide), List.splitOn_eq_singleton hfile.2.2.2]
  rfl

omit [Sha256] [ContentJson] [TraceToml] [ReadDir] in
theorem report_file_eq {name : String} (hname : IsCrateName name) :
    report_file bundle name =
      bundle.resolve_text ("compliance/" ++ (name ++ ".json")).toList := by
  have hhead : (name ++ ".json").toList.head? ≠ some '/' := by
    rw [String.toList_append]
    cases hchars : name.toList with
    | nil => exact absurd (String.toList_eq_nil_iff.mp hchars) hname.1
    | cons c rest =>
      rw [List.cons_append, List.head?_cons, ne_eq, Option.some.injEq]
      rintro rfl
      exact hname.2 (hchars ▸ List.mem_cons_self)
  rw [report_file, if_neg hhead, ← String.toList_append]

/-- A directory lists what can be reached below it. -/
def Listing (bundle : FileTree) : Prop :=
  ∀ file : String, IsName (os_name file.toList) →
    bundle.exists_text ("compliance/" ++ file).toList = true → is_dir bundle "compliance" = true ∧
      ∃ names, ReadDir.read_dir bundle "compliance" = some names ∧ os_name file.toList ∈ names

omit [Sha256] [ContentJson] [TraceToml] [ReadDir] in
theorem json_stem_report {name : String} (hname : name ≠ "") :
    json_stem (os_name (name ++ ".json").toList) = some name := by
  have hsplit : os_name (name ++ ".json").toList =
      os_name name.toList ++ os_name ".json".toList := by
    rw [String.toList_append, os_name, List.map_append]
    rfl
  have hne : os_name (name ++ ".json").toList ≠ os_name ".json".toList := by
    intro h
    have hnone := List.append_left_eq_self.mp (hsplit.symm.trans h)
    exact hname (String.toList_eq_nil_iff.mp (List.map_eq_nil_iff.mp hnone))
  have hsuffix : (os_name ".json".toList).isSuffixOf (os_name (name ++ ".json").toList) = true := by
    rw [hsplit]
    exact List.isSuffixOf_iff_suffix.mpr (List.suffix_append _ _)
  have hstem : (os_name (name ++ ".json").toList).take
      ((os_name (name ++ ".json").toList).length - 5) = os_name name.toList := by
    have hlength : (os_name ".json".toList).length = 5 := by decide
    rw [hsplit, List.length_append, hlength, Nat.add_sub_cancel, List.take_left]
  have htext : (os_name name.toList).mapM to_char = some name.toList := by
    induction name.toList with
    | nil => rfl
    | cons c text ih =>
      simp only [os_name, List.map_cons, List.mapM_cons, to_char] at ih ⊢
      simp [ih]
  rw [json_stem, if_pos ⟨hsuffix, hne⟩, hstem, to_str, htext, Option.map_some, String.ofList_toList]

omit [Sha256] [TraceToml] [ReadDir] in
theorem check_dal_entry_none {entry : String × String} :
    check_dal_entry bundle entry = none ↔ report_dal bundle entry.1 = some entry.2 := by
  rw [check_dal_entry, report_dal]
  cases report_file bundle entry.1 with
  | none => simp
  | some found =>
    rw [Option.bind_some]
    cases htext : file_text found with
    | none => simp [htext]
    | some text =>
      rw [Option.bind_some]
      cases hdal : ContentJson.report_dal_from_str text with
      | none => simp [htext, hdal]
      | some dal =>
        by_cases hsame : dal = entry.2 <;> simp [htext, hdal, hsame]

/-- **The map of levels is what the reports say**, of every crate with a plain name. -/
theorem Accepted.levels (h : Accepted bundle index) (hlisting : Listing bundle) {name : String}
    (hname : IsCrateName name) :
    (index.dal_map.get name).map Prod.snd = report_dal bundle name := by
  obtain ⟨listed, hconsistent⟩ := h.consistent
  obtain ⟨-, hlevels⟩ := List.append_eq_nil_iff.mp (of_recheck hconsistent)
  obtain ⟨hentries, horphans⟩ := List.append_eq_nil_iff.mp hlevels
  cases hget : index.dal_map.get name with
  | some entry =>
    have hentry := List.filterMap_eq_nil_iff.mp hentries entry (Store.mem_values_of_get hget)
    rw [← Store.key_of_get hget, check_dal_entry_none.mp hentry, Option.map_some]
  | none =>
    rw [Option.map_none, eq_comm]
    by_contra hreport
    -- a report without an entry is listed, and an orphan
    obtain ⟨dal, hdal⟩ := Option.ne_none_iff_exists'.mp hreport
    obtain ⟨text, htext, -⟩ := Option.bind_eq_some_iff.mp hdal
    obtain ⟨found, hfound, -⟩ := Option.bind_eq_some_iff.mp htext
    rw [report_file_eq hname] at hfound
    obtain ⟨hdir, names, hnames, hmem⟩ := hlisting (name ++ ".json") (report_name hname) (by
      rw [FileTree.exists_text, hfound, Option.isSome_some])
    rw [if_pos hdir, hnames, Option.getD_some] at horphans
    have horphan := List.filterMap_eq_nil_iff.mp horphans _ hmem
    rw [json_stem_report hname.1, Option.bind_some, hget] at horphan
    cases horphan

/-! ## What the files bind -/

/-- A plain path, not to the index or the signature. -/
def IsContent (path : RelPath) : Prop :=
  (∀ name ∈ path, IsName name) ∧ path ∉ [root_path "index.json", root_path "BUNDLE.sig"]

instance (path : RelPath) : Decidable (IsContent path) := inferInstanceAs (Decidable (_ ∧ _))

/-- The files of two bundles are the same, but for the index and the signature. -/
def SameContent (bundle bundle' : FileTree) : Prop :=
  ∀ path, IsContent path → bundle'.resolve path = bundle.resolve path

/-- Two indexes say the same of all that the passes check against the files. -/
structure Agree (bundle : FileTree) (index index' : IndexContent) : Prop where
  content_hash : index'.content_hash = index.content_hash
  recipe_hash : index'.recipe_hash = index.recipe_hash
  resolution_policy : index'.resolution_policy = index.resolution_policy
  profile : index'.profile = index.profile
  git_sha : index'.git_sha = index.git_sha
  git_branch : index'.git_branch = index.git_branch
  git_dirty : index'.git_dirty = index.git_dirty
  levels : ∀ name, IsCrateName name → index'.dal_map.get name = index.dal_map.get name
  /-- A summary may be left out; one that is there is that of the output. -/
  test_summary : (read_to_string bundle "tests/cargo_test_stdout.txt").isSome = true →
    ∀ summary ∈ index.test_summary, ∀ summary' ∈ index'.test_summary, summary' = summary
  complete : index.profile ≠ .Dev → index'.bundle_complete = index.bundle_complete ∧
    index'.tool_command_failures = index.tool_command_failures

section Same

variable {bundle bundle' : FileTree} (h : SameContent bundle bundle')

omit [Sha256] [ContentJson] [TraceToml] [ReadDir] in
include h in
theorem SameContent.resolve_text {name : String}
    (hname : IsContent (FileTree.components (os_name name.toList))) :
    bundle'.resolve_text name.toList = bundle.resolve_text name.toList :=
  h _ hname

omit [Sha256] [ContentJson] [TraceToml] [ReadDir] in
include h in
theorem SameContent.read {name : String}
    (hname : IsContent (FileTree.components (os_name name.toList))) :
    read_bytes bundle' name = read_bytes bundle name := by
  rw [read_bytes, read_bytes, FileTree.read_text, FileTree.read_text, h.resolve_text hname]

omit [Sha256] [ContentJson] [TraceToml] [ReadDir] in
include h in
theorem SameContent.exists_text {name : String}
    (hname : IsContent (FileTree.components (os_name name.toList))) :
    bundle'.exists_text name.toList = bundle.exists_text name.toList := by
  rw [FileTree.exists_text, FileTree.exists_text, h.resolve_text hname]

omit [ContentJson] [TraceToml] [ReadDir] in
include h in
theorem SameContent.sha256_file {name : String}
    (hname : IsContent (FileTree.components (os_name name.toList))) :
    sha256_file bundle' name = sha256_file bundle name := by
  rw [Verify.sha256_file, Verify.sha256_file, FileTree.read_text, FileTree.read_text,
    h.resolve_text hname]

omit [TraceToml] [ReadDir] in
include h in
theorem SameContent.from_bundle_dir (policy : ResolutionPolicy) :
    RecipeInputs.from_bundle_dir bundle' policy = RecipeInputs.from_bundle_dir bundle policy := by
  have hread : ∀ {α : Type} (from_slice : List UInt8 → Option α) {name : String},
      IsContent (FileTree.components (os_name name.toList)) →
        read_json from_slice bundle' name = read_json from_slice bundle name := by
    intro α from_slice name hname
    rw [read_json, read_json, h.read hname]
  have hgraph : gather_graph_hash bundle' = gather_graph_hash bundle := by
    rw [gather_graph_hash, gather_graph_hash, h.exists_text (by decide), hread _ (by decide)]
  rw [RecipeInputs.from_bundle_dir, RecipeInputs.from_bundle_dir, h.exists_text (by decide),
    h.exists_text (by decide), hread _ (by decide), hread _ (by decide), hgraph]

omit [Sha256] [TraceToml] [ReadDir] in
include h in
theorem SameContent.report_dal {name : String} (hname : IsCrateName name) :
    report_dal bundle' name = report_dal bundle name := by
  have hcontent : IsContent [os_name "compliance".toList, os_name (name ++ ".json").toList] := by
    refine ⟨fun n hn => ?_, by simp [root_path]⟩
    rcases List.mem_pair.mp hn with rfl | rfl
    · decide
    · exact report_name hname
  rw [Verify.report_dal, Verify.report_dal, report_file_eq hname, report_file_eq hname,
    h.resolve_text (compliance_path (report_name hname) ▸ hcontent)]

end Same

omit [Sha256] [ContentJson] [TraceToml] [ReadDir] in
theorem States.unique {env : Json.Value} {p p' : Profile} {s s' b b' : String} {d d' : Bool}
    (h : States env p s b d) (h' : States env p' s' b' d') :
    p' = p ∧ s' = s ∧ b' = b ∧ d' = d := by
  refine ⟨profile_text_inj ?_, ?_, ?_, ?_⟩
  · simpa using h'.profile.symm.trans h.profile
  · simpa using h'.git_sha.symm.trans h.git_sha
  · simpa using h'.git_branch.symm.trans h.git_branch
  · simpa using h'.git_dirty.symm.trans h.git_dirty

theorem Accepted.complete (h : Accepted bundle index) (hdev : index.profile ≠ .Dev) :
    index.bundle_complete = true ∧ index.tool_command_failures = [] := by
  have hchecks := h.checks
  simp only [index_checks, List.append_eq_nil_iff, Cli.check_bundle_completeness] at hchecks
  obtain ⟨⟨⟨⟨⟨⟨⟨⟨⟨⟨⟨hclaimed, hsilent⟩, -⟩, -⟩, -⟩, -⟩, -⟩, -⟩, -⟩, -⟩, -⟩, -⟩ := hchecks
  have hstrict : index.profile = .Cert ∨ index.profile = .Record := by
    cases hprofile : index.profile
    · exact absurd hprofile hdev
    · exact .inl rfl
    · exact .inr rfl
  have hcomplete : index.bundle_complete = true := by
    by_contra hincomplete
    rw [if_pos ⟨hincomplete, hstrict⟩] at hsilent
    cases hsilent
  refine ⟨hcomplete, ?_⟩
  by_contra hfailures
  rw [if_pos ⟨hcomplete, by simpa using hfailures⟩] at hclaimed
  cases hclaimed

theorem Accepted.summary {summary : TestSummary} {captured : List UInt8} {text : String}
    (h : Accepted bundle index) (hsummary : index.test_summary = some summary)
    (hcaptured : read_bytes bundle "tests/cargo_test_stdout.txt" = some captured)
    (hutf8 : from_utf8 captured = some text) : reparse text = some summary := by
  obtain ⟨listed, hconsistent⟩ := h.consistent
  obtain ⟨hpasses, -⟩ := List.append_eq_nil_iff.mp (of_recheck hconsistent)
  obtain ⟨-, hcheck⟩ := List.append_eq_nil_iff.mp hpasses
  rw [hcaptured, hsummary, check_test_summary_eq_nil_iff, hutf8, Option.bind_some] at hcheck
  exact hcheck.resolve_left fun hnone => by cases hnone

/-- **The same files do not pass under another index.** -/
theorem metadata_bound [Ed25519] [DebugText] {bundle bundle' : FileTree}
    {key key' : Option VerifyingKey} {members : List (String × Json.Value)}
    {manifest : List UInt8} {index index' : IndexContent} (hreads : EnvReads)
    (hrecorded : Recorded bundle members manifest) (hlisting : Listing bundle)
    (hlisting' : Listing bundle') (hsame : SameContent bundle bundle')
    (hindex : read_index bundle = some index) (hindex' : read_index bundle' = some index')
    (hpass : verify_bundle_with_key content_passes bundle key = .ok .Pass)
    (hpass' : verify_bundle_with_key content_passes bundle' key' = .ok .Pass) :
    Agree bundle index index' := by
  obtain ⟨found, hfound, h⟩ := accepted_of_pass hpass
  obtain ⟨found', hfound', h'⟩ := accepted_of_pass hpass'
  obtain rfl := Option.some.inj (hindex.symm.trans hfound)
  obtain rfl := Option.some.inj (hindex'.symm.trans hfound')
  have hrecorded' : Recorded bundle' members manifest := by
    rw [Recorded, read_to_string, hsame.read (by decide), hsame.read (by decide)]
    exact hrecorded
  obtain ⟨hprofile, hsha, hbranch, hdirty⟩ :=
    (h.states hreads hrecorded).unique (h'.states hreads hrecorded')
  refine ⟨?_, ?_, ?_, hprofile, hsha, hbranch, hdirty, fun name hname => ?_, ?_, fun hdev => ?_⟩
  · have hsums : sha256_file bundle' "SHA256SUMS" = sha256_file bundle "SHA256SUMS" :=
      hsame.sha256_file (by decide)
    rw [h.hash, h'.hash] at hsums
    exact Except.ok.inj hsums
  · have hmanifest : sha256_file bundle' "deterministic-manifest.json" =
        sha256_file bundle "deterministic-manifest.json" := hsame.sha256_file (by decide)
    rw [h.recipe.1, h'.recipe.1] at hmanifest
    exact Except.ok.inj hmanifest
  · -- both policies give the manifest
    obtain ⟨bytes, text, env, inputs, hbytes, -, -, hread, hinputs, hmanifest⟩ :=
      h.projected hrecorded
    obtain ⟨bytes', text', env', inputs', hbytes', -, -, hread', hinputs', hmanifest'⟩ :=
      h'.projected hrecorded'
    rw [hsame.read (by decide), hbytes] at hbytes'
    obtain rfl := Option.some.inj hbytes'
    obtain rfl := Option.some.inj (hread.symm.trans hread')
    obtain ⟨hpolicy, hother⟩ := gather_policy hinputs
    rw [hsame.from_bundle_dir, hother] at hinputs'
    rw [← Except.ok.inj hinputs'] at hmanifest'
    rw [← hpolicy]
    exact policy_of_manifest (hmanifest'.trans hmanifest.symm)
  · have hlevels := (h'.levels hlisting' hname).trans
      ((hsame.report_dal hname).trans (h.levels hlisting hname).symm)
    cases hget : index.dal_map.get name with
    | none =>
      rw [hget] at hlevels
      exact Option.map_eq_none_iff.mp hlevels
    | some entry =>
      rw [hget] at hlevels
      obtain ⟨entry', hget', hdal⟩ := Option.map_eq_some_iff.mp hlevels
      rw [hget', Prod.ext ((Store.key_of_get hget').trans (Store.key_of_get hget).symm) hdal]
  · intro hread summary hsummary summary' hsummary'
    obtain ⟨text, htext⟩ := Option.isSome_iff_exists.mp hread
    obtain ⟨captured, hcaptured, hutf8⟩ := Option.bind_eq_some_iff.mp htext
    have hparsed := h.summary hsummary hcaptured hutf8
    have hparsed' := h'.summary hsummary' ((hsame.read (by decide)).trans hcaptured) hutf8
    exact Option.some.inj (hparsed'.symm.trans hparsed)
  · have hdev' : index'.profile ≠ .Dev := hprofile ▸ hdev
    rw [(h.complete hdev).1, (h.complete hdev).2, (h'.complete hdev').1, (h'.complete hdev').2]
    exact ⟨rfl, rfl⟩

end Accepted

/-! ## A bundle of the development profile -/

section Examples

attribute [local instance] fips180_eval one_message

/-- What is recorded of the environment. -/
def dev_env : EnvFingerprint where
  profile := .Dev
  rustc := "rustc 1.0.0"
  cargo := "cargo 1.0.0"
  llvm_version := none
  cargo_lock_hash := none
  rust_toolchain_toml := none
  rustflags := none
  target_triple := "x86_64-unknown-linux-gnu"
  git_sha := "unknown"
  git_branch := "unknown"
  git_dirty := false
  tool_prerelease := false

def dev_members : List (String × Json.Value) :=
  [("profile", .string dev_env.profile.text), ("rustc", .string dev_env.rustc),
    ("cargo", .string dev_env.cargo), ("git_sha", .string dev_env.git_sha),
    ("git_branch", .string dev_env.git_branch), ("git_dirty", .bool dev_env.git_dirty),
    ("in_nix_shell", .bool false), ("tools", .object []), ("nav_env", .object []),
    ("host", .object [("os", .string "linux"), ("arch", .string "x86_64")]),
    ("target_triple", .string dev_env.target_triple),
    ("tool_prerelease", .bool dev_env.tool_prerelease)]

def dev_env_text : String := Json.to_string_pretty (.object dev_members)

def empty_map : String := "\x7b\x7d"

def dev_inputs : RecipeInputs where
  features := []
  locked_graph_hash := none
  command_recipe_hash := commands_digest []
  inputs_hash := inputs_digest .empty
  resolution_policy := .LockedOffline

def dev_manifest : List UInt8 := to_vec_pretty (dev_env.recipe_manifest dev_inputs).value

/-- The files that are hashed. -/
def dev_content : List (String × List UInt8) :=
  [("inputs_hashes.json", str_bytes empty_map), ("outputs_hashes.json", str_bytes empty_map),
    ("commands.json", str_bytes "[]"), ("env.json", str_bytes dev_env_text),
    ("deterministic-manifest.json", dev_manifest)]

def dev_files (sums index : List UInt8) : List (String × List UInt8) :=
  dev_content ++ [("SHA256SUMS", sums), ("index.json", index)]

def dev_names : List String := dev_content.map Prod.fst ++ ["SHA256SUMS", "index.json"]

def dev_nodes (sums index : List UInt8) : List (String × Bundle.Node) :=
  (dev_files sums index).map fun file => (file.1, .File file.2)

theorem dev_nodup (sums index : List UInt8) :
    ((dev_nodes sums index).map (root_path ·.1)).Nodup := by
  have hnodup : (dev_names.map root_path).Nodup := by decide
  exact hnodup

theorem dev_named (sums index : List UInt8) :
    ∀ entry ∈ dev_nodes sums index, IsName (os_name entry.1.toList) := by
  have hnames : ∀ name ∈ dev_names, IsName (os_name name.toList) := by decide
  intro entry hentry
  obtain ⟨file, hfile, rfl⟩ := List.mem_map.mp hentry
  exact hnames _ (List.mem_map_of_mem (f := Prod.fst) hfile)

/-- A tree with the content, and what is written last. -/
def dev_tree (sums index : List UInt8) : RegularTree where
  toFileTree := flat_tree (dev_nodes sums index) (dev_nodup sums index) (dev_named sums index)
  regular := by
    intro entry hentry target htarget
    obtain ⟨node, hnode, rfl⟩ := List.mem_map.mp hentry
    obtain ⟨file, -, rfl⟩ := List.mem_map.mp hnode
    cases htarget
  utf8 := by
    intro entry hentry n hn piece hpiece
    obtain ⟨named, -, rfl⟩ := List.mem_map.mp hentry
    rw [List.mem_singleton.mp hn] at hpiece
    obtain ⟨c, -, rfl⟩ := List.mem_map.mp hpiece
    exact ⟨c, rfl⟩

/-- The sums of the content. -/
def dev_sums : List UInt8 := str_bytes (String.ofList (sha256sums_text (dev_tree [] []).toFileTree))

/-- The index up to its hashes. -/
def dev_index_head : String :=
  "\x7b\"schema_version\":\"0.0.1\",\"boundary_schema_version\":\"0.0.1\"," ++
  "\"trace_schema_version\":\"0.0.1\",\"profile\":\"dev\"," ++
  "\"timestamp_rfc3339\":\"1970-01-01T00:00:00Z\",\"git_sha\":\"unknown\"," ++
  "\"git_branch\":\"unknown\",\"git_dirty\":false,\"engine_crate_version\":\"1.0.0\"," ++
  "\"engine_git_sha\":\"unknown\",\"inputs_hashes_file\":\"inputs_hashes.json\"," ++
  "\"outputs_hashes_file\":\"outputs_hashes.json\",\"commands_file\":\"commands.json\"," ++
  "\"env_fingerprint_file\":\"env.json\",\"trace_roots\":[],\"trace_outputs\":[]," ++
  "\"bundle_complete\":true,\"content_hash\":\""

def dev_index_text : String :=
  dev_index_head ++ (sha256 dev_sums ++ ("\",\"recipe_hash\":\"" ++
    (sha256 dev_manifest ++ "\"\x7d")))

def dev_index : IndexContent where
  profile := .Dev
  bundle_complete := true
  test_summary := none
  tool_command_failures := []
  content_hash := sha256 dev_sums
  trace_outputs := []
  dal_map := .empty
  boundary_policy := ⟨false, false, false⟩
  timestamp_rfc3339 := "1970-01-01T00:00:00Z"
  git_sha := dev_env.git_sha
  git_branch := dev_env.git_branch
  git_dirty := dev_env.git_dirty
  engine_crate_version := "1.0.0"
  engine_git_sha := "unknown"
  engine_build_source := "unknown"
  recipe_hash := sha256 dev_manifest
  resolution_policy := .LockedOffline

/-- A parser that knows the texts of this bundle. -/
local instance dev_json : ContentJson where
  from_str text := if text = dev_env_text then some (.object dev_members) else none
  index_from_str text := if text = dev_index_text then some dev_index else none
  env_from_slice bytes := if bytes = str_bytes dev_env_text then some dev_env else none
  digests_from_slice bytes := if bytes = str_bytes empty_map then some .empty else none
  commands_from_slice bytes := if bytes = str_bytes "[]" then some [] else none
  projection_from_slice _ := none
  report_dal_from_str _ := none
  parse_from_rfc3339 text := text == "1970-01-01T00:00:00Z"

local instance no_toml : TraceToml where
  hlr_file _ := none
  llr_file _ := none
  tests_file _ := none
  derived_file _ := none

local instance no_directory : ReadDir where
  read_dir _ _ := none

local instance debug_id : DebugText where
  debug := id

def dev_bundle : FileTree := (dev_tree dev_sums (str_bytes dev_index_text)).toFileTree

section Dev

variable {sums index : List UInt8}

theorem dev_get {path : RelPath} {content : List UInt8} :
    (dev_tree sums index).get path = some (.File content) ↔
      ∃ name, (name, content) ∈ dev_files sums index ∧ root_path name = path := by
  rw [dev_tree, flat_tree_get]
  refine exists_congr fun name => and_congr_left fun _ => ?_
  rw [dev_nodes, List.mem_map]
  constructor
  · rintro ⟨⟨name', content'⟩, hfile, hsame⟩
    cases hsame
    exact hfile
  · exact fun hfile => ⟨_, hfile, rfl⟩

theorem dev_resolve {name : String} {content : List UInt8}
    (h : (name, content) ∈ dev_files sums index) :
    (dev_tree sums index).resolve_text name.toList = some (.File content) := by
  have hspell : ∀ name ∈ dev_names,
      FileTree.components (os_name name.toList) = root_path name := by decide
  rw [FileTree.resolve_text, hspell name (List.mem_map_of_mem (f := Prod.fst) h)]
  exact FileTree.resolve_of_get (dev_get.mpr ⟨name, h, rfl⟩)

theorem dev_read {name : String} {content : List UInt8}
    (h : (name, content) ∈ dev_files sums index) (hlength : content.length ≤ VEC_MAX) :
    read_bytes (dev_tree sums index).toFileTree name = some content := by
  refine read_bytes_eq_some.mpr ⟨?_, hlength⟩
  rw [FileTree.read_text, dev_resolve h]

theorem hashed_dev : hashed_files (dev_tree sums index).toFileTree =
    dev_content.map fun file => (root_path file.1, file.2) := by
  have hwalk : (dev_tree sums index).walk_files =
      (dev_content.map fun file => (root_path file.1, file.2)) ++
        [(root_path "SHA256SUMS", sums), (root_path "index.json", index)] := rfl
  have hlisted : ∀ name ∈ dev_content.map Prod.fst, root_path name ∉ META_PATHS := by decide
  have hmeta : root_path "SHA256SUMS" ∈ META_PATHS ∧ root_path "index.json" ∈ META_PATHS := by
    decide
  rw [hashed_files, hwalk, List.filter_append, List.filter_eq_self.mpr]
  · simp [hmeta]
  · intro file hfile
    obtain ⟨named, hnamed, rfl⟩ := List.mem_map.mp hfile
    simpa using hlisted _ (List.mem_map_of_mem (f := Prod.fst) hnamed)

theorem dev_plain : ∀ file ∈ hashed_files (dev_tree [] []).toFileTree, Plain file.1 := by
  have hnames : ∀ name ∈ dev_names, '\\' ∉ path_text (root_path name) ∧
      '\n' ∉ path_text (root_path name) ∧
      (path_text (root_path name)).getLast? ≠ some '\r' := by decide
  intro file hfile
  rw [hashed_dev] at hfile
  obtain ⟨named, hnamed, rfl⟩ := List.mem_map.mp hfile
  exact hnames _ (List.mem_append_left _ (List.mem_map_of_mem (f := Prod.fst) hnamed))

theorem dev_same : SameFiles (dev_tree [] []).toFileTree (dev_tree sums index).toFileTree := by
  have hmeta : root_path "SHA256SUMS" ∈ META_PATHS ∧ root_path "index.json" ∈ META_PATHS := by
    decide
  intro path hpath content
  rw [dev_get, dev_get]
  refine exists_congr fun name => and_congr_left fun hname => ?_
  have hsums : name ≠ "SHA256SUMS" := by
    rintro rfl
    exact hpath (hname ▸ hmeta.1)
  have hindex : name ≠ "index.json" := by
    rintro rfl
    exact hpath (hname ▸ hmeta.2)
  simp [dev_files, hsums, hindex]

end Dev

/-- The lengths let the files be read. -/
theorem dev_sums_length : dev_sums.length ≤ VEC_MAX := by
  have hnames : ∀ name ∈ dev_names, (normalize_bundle_path (root_path name)).length ≤ 32 := by
    decide
  have hshort : ∀ file ∈ hashed_files (dev_tree [] []).toFileTree,
      (sums_line file ++ ['\n']).length ≤ 128 := by
    intro file hfile
    rw [hashed_dev] at hfile
    obtain ⟨named, hnamed, rfl⟩ := List.mem_map.mp hfile
    have hname := hnames _ (List.mem_append_left _ (List.mem_map_of_mem (f := Prod.fst) hnamed))
    have hdigest := (str_len_bounds (sha256 named.2)).1
    have hblanks : "  ".toList.length + ['\n'].length = 3 := by decide
    rw [(sha256_format named.2).1] at hdigest
    simp only [sums_line, List.length_append]
    omega
  have hperm := @sortBy_perm _ path_cmp (hashed_files (dev_tree [] []).toFileTree)
  have hlines : (sortBy path_cmp (hashed_files (dev_tree [] []).toFileTree)).length = 5 := by
    rw [hperm.length_eq, hashed_dev, List.length_map]
    rfl
  have hlength : (sha256sums_text (dev_tree [] []).toFileTree).length ≤ 640 := by
    rw [sha256sums_text, Segments.intercalate_append_sep, List.length_flatMap]
    · refine (List.sum_le_card_nsmul _ 128 fun n hn => ?_).trans ?_
      · obtain ⟨line, hline, rfl⟩ := List.mem_map.mp hn
        obtain ⟨file, hfile, rfl⟩ := List.mem_map.mp hline
        exact hshort file (hperm.mem_iff.mp hfile)
      · rw [List.length_map, List.length_map, hlines]
        decide
    · intro hnil
      rw [List.map_eq_nil_iff] at hnil
      rw [hnil] at hlines
      cases hlines
  have htext := (str_len_bounds (String.ofList (sha256sums_text (dev_tree [] []).toFileTree))).2
  have hmax : 4 * 640 ≤ VEC_MAX := by decide
  rw [String.toList_ofList] at htext
  rw [dev_sums, length_str_bytes]
  omega

theorem dev_manifest_length : dev_manifest.length ≤ VEC_MAX := by
  decide +kernel

theorem dev_index_length : (str_bytes dev_index_text).length ≤ VEC_MAX := by
  have happend : ∀ s t : String, str_len (s ++ t) = str_len s + str_len t := fun _ _ =>
    String.utf8ByteSize_append
  have hends : str_len dev_index_head + (64 + (str_len "\",\"recipe_hash\":\"" +
      (64 + str_len "\"\x7d"))) ≤ VEC_MAX := by decide +kernel
  rw [length_str_bytes, dev_index_text, happend, happend, happend, happend, (sha256_format _).1,
    (sha256_format _).1]
  exact hends

theorem dev_content_read {name : String} {content : List UInt8}
    (h : (name, content) ∈ dev_files dev_sums (str_bytes dev_index_text)) :
    read_bytes dev_bundle name = some content := by
  refine dev_read h ?_
  have hall : ∀ file ∈ dev_files dev_sums (str_bytes dev_index_text), file.2.length ≤ VEC_MAX := by
    simp only [dev_files, dev_content, List.cons_append, List.nil_append, List.forall_mem_cons]
    exact ⟨by decide, by decide, by decide, by decide +kernel, dev_manifest_length, dev_sums_length,
      dev_index_length, fun _ h => absurd h List.not_mem_nil⟩
  exact hall _ h

theorem dev_text {name text : String}
    (h : (name, str_bytes text) ∈ dev_files dev_sums (str_bytes dev_index_text)) :
    read_to_string dev_bundle name = some text := by
  rw [read_to_string, dev_content_read h, Option.bind_some, from_utf8_str_bytes]

theorem dev_env_read : read_bytes dev_bundle "env.json" = some (str_bytes dev_env_text) :=
  dev_content_read (by simp [dev_files, dev_content])

theorem dev_index_read : read_to_string dev_bundle "index.json" = some dev_index_text :=
  dev_text (by simp [dev_files])

theorem dev_sums_read : read_to_string dev_bundle "SHA256SUMS" =
    some (String.ofList (sha256sums_text (dev_tree [] []).toFileTree)) :=
  dev_text (by simp [dev_files, dev_sums])

theorem dev_env_text_read : read_to_string dev_bundle "env.json" = some dev_env_text :=
  dev_text (by simp [dev_files, dev_content])

theorem dev_exists {name : String} {content : List UInt8}
    (h : (name, content) ∈ dev_files dev_sums (str_bytes dev_index_text)) :
    dev_bundle.exists_text name.toList = true := by
  rw [FileTree.exists_text, dev_bundle, dev_resolve h, Option.isSome_some]

theorem dev_digest (field : String) (content : List UInt8) :
    check_digest_format field (sha256 content) = [] := by
  refine if_pos ?_
  rw [is_sha256_hex, (sha256_format content).1, beq_self_eq_true, Bool.true_and, List.all_eq_true]
  intro c hc
  obtain ⟨hascii, hlower⟩ := digest_char (Sha256.sha256_hex content) hc
  have hall : ∀ n < 128, is_lower_hex (UInt8.ofNat n) = true →
      (is_ascii_hexdigit (Char.ofNat n) && !is_ascii_uppercase (Char.ofNat n)) = true := by decide
  rw [← Char.ofNat_toNat c]
  exact hall _ hascii hlower

theorem dev_index_checks : index_checks dev_bundle dev_index = [] := by
  have hfields : validate_index_fields dev_index = [] := by
    refine List.append_eq_nil_iff.mpr ⟨List.append_eq_nil_iff.mpr ⟨?_, dev_digest _ dev_sums⟩,
      dev_digest _ dev_manifest⟩
    decide +kernel
  have hselectors : Trace.check_llr_test_selectors
      (read_to_string dev_bundle "tests/test_outcomes.jsonl")
      ((read_bytes dev_bundle "trace/llr.toml").bind TraceToml.llr_file) = [] := by decide +kernel
  have hidentity : check_test_identity dev_bundle = [] := by decide +kernel
  have hevidence : check_trace_evidence dev_bundle dev_index.profile = [] := by
    rw [check_trace_evidence]
    exact if_pos rfl
  have hcross : check_env_vs_index dev_bundle dev_index = [] := by
    have hparse : SerdeJson.from_str dev_env_text = some (.object dev_members) := if_pos rfl
    rw [check_env_vs_index, dev_env_text_read, Option.bind_some, hparse]
    decide +kernel
  have hrelease : check_prerelease_tool dev_bundle dev_index = [] := by
    have hparse : ContentJson.env_from_slice (str_bytes dev_env_text) = some dev_env := if_pos rfl
    rw [check_prerelease_tool, dev_env_read, Option.bind_some, hparse]
    rfl
  rw [index_checks, hfields, hselectors, hidentity, hevidence, hcross, hrelease]
  rfl

theorem dev_from_bundle_dir :
    RecipeInputs.from_bundle_dir dev_bundle .LockedOffline = .ok dev_inputs := by
  have hinputs : read_json ContentJson.digests_from_slice dev_bundle "inputs_hashes.json" =
      .ok .empty := by
    have hread : read_bytes dev_bundle "inputs_hashes.json" = some (str_bytes empty_map) :=
      dev_content_read (by simp [dev_files, dev_content])
    have hparse : ContentJson.digests_from_slice (str_bytes empty_map) = some .empty := if_pos rfl
    rw [read_json, hread, Option.bind_some, hparse, Option.elim_some]
  have hcommands : read_json ContentJson.commands_from_slice dev_bundle "commands.json" =
      .ok [] := by
    have hread : read_bytes dev_bundle "commands.json" = some (str_bytes "[]") :=
      dev_content_read (by simp [dev_files, dev_content])
    have hparse : ContentJson.commands_from_slice (str_bytes "[]") = some [] := if_pos rfl
    rw [read_json, hread, Option.bind_some, hparse, Option.elim_some]
  have hgraph : gather_graph_hash dev_bundle = .ok none := if_neg (by decide +kernel)
  rw [RecipeInputs.from_bundle_dir, if_neg (by decide +kernel), if_neg (by decide +kernel), hinputs,
    hcommands, hgraph]
  rfl

theorem dev_hash {name : String} {content : List UInt8}
    (h : (name, content) ∈ dev_files dev_sums (str_bytes dev_index_text)) :
    sha256_file dev_bundle name = .ok (sha256 content) := by
  rw [sha256_file, FileTree.read_text, dev_bundle, dev_resolve h]

theorem dev_recipe_manifest : check_recipe_manifest dev_bundle dev_index = .ok [] := by
  have hmem : ("deterministic-manifest.json", dev_manifest) ∈
      dev_files dev_sums (str_bytes dev_index_text) := by simp [dev_files, dev_content]
  have hprojection : check_projection dev_bundle dev_index = [] := by
    have hparse : ContentJson.env_from_slice (str_bytes dev_env_text) = some dev_env := if_pos rfl
    have hpolicy : dev_index.resolution_policy = .LockedOffline := rfl
    rw [check_projection, dev_env_read, dev_content_read hmem]
    simp only [hparse, hpolicy, dev_from_bundle_dir]
    exact if_neg (not_not.mpr rfl)
  refine (if_neg (by rw [dev_exists hmem]; decide)).trans ?_
  exact bind_ok_iff.mpr ⟨_, dev_hash hmem, congrArg _
    (List.append_eq_nil_iff.mpr ⟨if_neg (not_not.mpr rfl), hprojection⟩)⟩

theorem dev_index_parse : read_index dev_bundle = some dev_index := by
  rw [read_index, dev_index_read, Option.bind_some]
  exact if_pos rfl

theorem dev_passes : verify_bundle_with_key content_passes dev_bundle none = .ok .Pass := by
  obtain ⟨listed, hrun, hlisted, hwalk⟩ :=
    round_trips_of_plain (@dev_same dev_sums (str_bytes dev_index_text)) dev_plain
  have hunlisted : "index.json".toList ∉ listed := by
    have hnames : ∀ name ∈ dev_content.map Prod.fst,
        "index.json".toList ≠ path_text (root_path name) := by decide
    rw [hlisted, hashed_dev]
    rintro ⟨file, hfile, htext⟩
    obtain ⟨named, hnamed, rfl⟩ := List.mem_map.mp hfile
    exact hnames _ (List.mem_map_of_mem hnamed) htext
  have hindex : ContentJson.index_from_str dev_index_text = some dev_index := if_pos rfl
  obtain ⟨hparse, hchecks, hmanifest, hconsistent⟩ :=
    content_passes_eq dev_bundle hindex
  refine (verify_pass_iff _ _).mpr ⟨by decide +kernel, ?_, rfl⟩
  refine ⟨dev_index_text, dev_index.run, ?_, hparse, hchecks.mpr dev_index_checks, rfl,
    dev_hash (by simp [dev_files]),
    hmanifest.mpr dev_recipe_manifest, String.ofList (sha256sums_text (dev_tree [] []).toFileTree),
    listed, ?_, ?_, if_neg hunlisted, (hconsistent listed).mpr ?_, hwalk⟩
  · rw [read_file, dev_index_read]
  · rw [read_file, dev_sums_read]
  · rw [String.toList_ofList]
    exact hrun
  · have hcompliance : is_dir dev_bundle "compliance" = false := by decide +kernel
    rw [consistency_checks, check_dal_map, hcompliance]
    rfl

theorem dev_reads : EnvReads := by
  intro bytes text members env hutf8 hvalue henv
  have hbytes : bytes = str_bytes dev_env_text ∧ dev_env = env := by
    simpa [ContentJson.env_from_slice] using henv
  have htext : text = dev_env_text ∧ dev_members = members := by
    simpa [SerdeJson.from_str] using hvalue
  obtain ⟨⟨-, rfl⟩, -, rfl⟩ := And.intro hbytes htext
  exact ⟨rfl, rfl, rfl, rfl⟩

theorem dev_listing : Listing dev_bundle := by
  intro file hfile hexists
  have hget : dev_bundle.get [os_name "compliance".toList] = none := by decide +kernel
  have hnone : dev_bundle.resolve [os_name "compliance".toList, os_name file.toList] = none := by
    rw [FileTree.resolve, FileTree.MAX_LINKS, FileTree.walk_links, FileTree.walk,
      if_neg (by decide), if_neg (by decide), List.nil_append, hget]
  rw [FileTree.exists_text, FileTree.resolve_text, compliance_path hfile, hnone] at hexists
  cases hexists

theorem metadata_bound_dev : Agree dev_bundle dev_index dev_index := by
  have hrecorded : Recorded dev_bundle dev_members dev_manifest := by
    refine ⟨?_, dev_content_read (by simp [dev_files, dev_content])⟩
    rw [dev_env_text_read, Option.bind_some]
    exact if_pos rfl
  exact metadata_bound dev_reads hrecorded dev_listing dev_listing (fun _ _ => rfl)
    dev_index_parse dev_index_parse dev_passes dev_passes

end Examples
end Evidence.Verify
