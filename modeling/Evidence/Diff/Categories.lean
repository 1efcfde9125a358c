/-
`diff/categories_*.rs` -- the categories beside the tests and the trace graph.

Most of them compare two maps key by key, or two values field by field, and are changed exactly
when there is a line. A digest plane is so too, and a digest that is malformed gives a line
like any other: what could not be examined counts as changed. The coverage is the one category
in which an unexaminable part outweighs a difference.
-/
import Evidence.Diff.Artifacts

set_option autoImplicit false

namespace Evidence.Diff

open Std Sorting Evidence.Bundle
open Verify (ReproductionJson ReproductionError Plane DigestMap DigestPlaneDiff read_digest_map
  read_recipe diff_digest_planes compare_recipe_fields)

section Content

variable [DiffJson]

/-! ## Content -/

/-- A crate's level, on both sides. -/
def dal_line (krate : String) (la lb : Option (String × ReproductionJson.Value)) : List String :=
  match la, lb with
  | some (_, la), some (_, lb) =>
    if value_label la ≠ value_label lb then
      ["~ dal_map[" ++ krate ++ "]: " ++ value_label la ++ " -> " ++ value_label lb]
    else []
  | some (_, la), none => ["- dal_map[" ++ krate ++ "]: " ++ value_label la]
  | none, some (_, lb) => ["+ dal_map[" ++ krate ++ "]: " ++ value_label lb]
  | none, none => []

/-- The levels of the crates; anything but a map is an empty one. -/
def dal_of (v : ReproductionJson.Value) :
    Store (Prod.fst : String × ReproductionJson.Value → String) :=
  ((ReproductionJson.get v "dal_map").bind DiffJson.as_object).getD Store.empty

def boundary_flag (v : ReproductionJson.Value) (flag : String) : ReproductionJson.Value :=
  ((ReproductionJson.get v "boundary_policy").bind fun policy =>
    ReproductionJson.get policy flag).getD ReproductionJson.null

def SCOPE_FIELDS : List String :=
  ["profile", "schema_version", "boundary_schema_version", "trace_schema_version", "git_sha",
    "git_branch", "git_dirty", "resolution_policy"]

def BOUNDARY_FLAGS : List String :=
  ["no_out_of_scope_deps", "forbid_build_rs", "forbid_proc_macros"]

def scope_lines (va vb : ReproductionJson.Value) : List String :=
  field_changes id (field_of va) (field_of vb) SCOPE_FIELDS ++
    ((key_set (dal_of va) (dal_of vb)).flatMap fun krate =>
      dal_line krate ((dal_of va).get krate) ((dal_of vb).get krate)) ++
    field_changes ("boundary_policy." ++ ·) (boundary_flag va) (boundary_flag vb) BOUNDARY_FLAGS

/-- The bundle's claim context. -/
def scope (a b : IndexedSide) : CategoryDiff :=
  compare_indexes a b "scope" fun ia ib => .differences (scope_lines ia.value ib.value)

def map_reproduction_error : ReproductionError → DiffError
  | .Io path => .Io path
  | .BundleNotFound _ => .BundleNotFound

/-- The canonical recipe fields. -/
def recipe (a b : FileTree) : Except DiffError CategoryDiff := do
  let ra ← (read_recipe "" a).mapError map_reproduction_error
  let rb ← (read_recipe "" b).mapError map_reproduction_error
  match ra, rb with
  | some ra, some rb =>
    .ok ((Findings.differences ((compare_recipe_fields ra rb).map ("~ " ++ ·))).report "recipe")
  | ra, rb =>
    .ok (unverifiable "recipe" ("deterministic-manifest.json missing or unparseable in " ++
      which_side ra.isNone rb.isNone))

def plane_lines (diff : DigestPlaneDiff) : List String :=
  diff.unverifiable.map ("! " ++ · ++ " (malformed digest)") ++ diff.cand_only.map ("+ " ++ ·) ++
    diff.base_only.map ("- " ++ ·) ++ diff.changed.map ("~ " ++ ·)

def Plane.is_unavailable : Plane → Bool
  | .Loaded _ => false
  | .Unavailable => true

def plane_file (category : String) : String := category ++ "_hashes.json"

def digest_plane (a b : FileTree) (category : String) : Except DiffError CategoryDiff := do
  let file := plane_file category
  let pa ← (read_digest_map "" a file).mapError map_reproduction_error
  let pb ← (read_digest_map "" b file).mapError map_reproduction_error
  match pa, pb with
  | .Loaded ma, .Loaded mb =>
    .ok ((Findings.differences (plane_lines (diff_digest_planes ma mb))).report category)
  | pa, pb =>
    .ok (unverifiable category (file ++ " missing or unparseable in " ++
      which_side (Plane.is_unavailable pa) (Plane.is_unavailable pb)))

/-! ## Captures -/

def LEVEL_ORDER : List CoverageLevel := [.Statement, .Branch, .PatternDecision, .Mcdc]

def level_label : CoverageLevel → String
  | .Statement => "statement"
  | .Branch => "branch"
  | .PatternDecision => "pattern_decision"
  | .Mcdc => "mcdc"

/-- Sums of counts; they wrap around. -/
def sum_covered (counts : List Covered) : UInt64 × UInt64 :=
  counts.foldl (fun sum count => (sum.1 + count.covered, sum.2 + count.total)) (0, 0)

def aggregate_lines (m : Measurement) : UInt64 × UInt64 :=
  sum_covered (m.per_file.map FileMeasurement.lines)

/-- Without any data on branches there is no sum. -/
def aggregate_branches (m : Measurement) : Option (UInt64 × UInt64) :=
  let counts := m.per_file.filterMap FileMeasurement.branches
  if counts.isEmpty then none else some (sum_covered counts)

/-- Covered of total. -/
def ratio_label (sums : UInt64 × UInt64) : String :=
  decimal sums.1.toNat ++ "/" ++ decimal sums.2.toNat

/-- Two values that differ, under a label. -/
def change_line (label before after : String) : String :=
  "~ " ++ label ++ ": " ++ before ++ " -> " ++ after

def branch_lines (level : String) (ba bb : Option (UInt64 × UInt64)) : List String :=
  match ba, bb with
  | some ba, some bb =>
    if ba ≠ bb then [change_line (level ++ " branch coverage") (ratio_label ba) (ratio_label bb)]
    else []
  | ba, bb =>
    if ba.isSome ≠ bb.isSome then
      [change_line (level ++ " branch data") (presence_label ba.isSome) (presence_label bb.isSome)]
    else []

/-- One level of two reports. -/
def level_lines (level : CoverageLevel) (ma mb : Option Measurement) : List String :=
  match ma, mb with
  | none, none => []
  | some _, none => ["- " ++ level_label level ++ " measurement"]
  | none, some _ => ["+ " ++ level_label level ++ " measurement"]
  | some ma, some mb =>
    (if aggregate_lines ma ≠ aggregate_lines mb then
      [change_line (level_label level ++ " line coverage") (ratio_label (aggregate_lines ma))
        (ratio_label (aggregate_lines mb))]
    else []) ++
    branch_lines (level_label level) (aggregate_branches ma) (aggregate_branches mb) ++
    (if ma.engine_version ≠ mb.engine_version then
      [change_line (level_label level ++ " engine_version") ma.engine_version mb.engine_version]
    else [])

def measurement_at (report : CoverageReport) (level : CoverageLevel) : Option Measurement :=
  report.measurements.find? fun m => decide (m.level = level)

def summary_path : String := "coverage/coverage_summary.json"

def coverage_findings (ra rb : Load CoverageReport) : Findings :=
  match ra, rb with
  | .Unparseable, _ => .unexamined ("! " ++ summary_path ++ " unparseable in bundle A")
  | _, .Unparseable => .unexamined ("! " ++ summary_path ++ " unparseable in bundle B")
  | .Missing, .Missing => .differences []
  | .Missing, _ => .unexamined ("! " ++ summary_path ++ " absent in bundle A")
  | _, .Missing => .unexamined ("! " ++ summary_path ++ " absent in bundle B")
  | .Ok ca, .Ok cb =>
    .differences (LEVEL_ORDER.flatMap fun level =>
      level_lines level (measurement_at ca level) (measurement_at cb level))

/-- A summary that cannot be compared outweighs every difference. -/
def coverage_report (f : Findings) : CategoryDiff :=
  let status := if f.unexaminable then .Unverifiable else status_of f.changed false
  { category := "coverage"
    status := status
    details :=
      if status = .Equal ∧ f.details = [] then f.details ++ ["no coverage data on either side"]
      else f.details }

/-- Coverage by level, and the presence of the trace of lines. -/
def coverage (a b : FileTree) : Except DiffError CategoryDiff := do
  let ra ← read_json_file DiffJson.coverage_from_slice a summary_path
  let rb ← read_json_file DiffJson.coverage_from_slice b summary_path
  .ok (coverage_report ((coverage_findings ra rb).add
    (log_findings "coverage/lcov.info" (is_file a "coverage/lcov.info")
      (is_file b "coverage/lcov.info"))))

def captured (root : FileTree) (path : Option String) : Bool :=
  path.any (is_file root)

/-- Two rows of one number. -/
def row_changes (a b : FileTree) (i : ℕ) (row_a row_b : CommandRecord) : List String :=
  (if row_a.argv ≠ row_b.argv then
    [change_line ("row " ++ decimal i ++ " argv") (" ".intercalate row_a.argv)
      (" ".intercalate row_b.argv)]
  else []) ++
  (if row_a.exit_code ≠ row_b.exit_code then
    [change_line ("row " ++ decimal i ++ " exit_code") (toString row_a.exit_code)
      (toString row_b.exit_code)]
  else []) ++
  [("stdout", row_a.stdout_path, row_b.stdout_path),
    ("stderr", row_a.stderr_path, row_b.stderr_path)].filterMap fun (label, pa, pb) =>
      if captured a pa ≠ captured b pb then
        some (change_line ("row " ++ decimal i ++ " captured " ++ label)
          (presence_label (captured a pa)) (presence_label (captured b pb)))
      else none

/-- A row that one side alone has. -/
def command_line (sign : String) (row : CommandRecord × ℕ) : String :=
  sign ++ " row " ++ decimal row.2 ++ ": " ++ " ".intercalate row.1.argv

def command_lines (a b : FileTree) (ra rb : List CommandRecord) : List String :=
  let common := min ra.length rb.length
  (((ra.zip rb).zipIdx.take common).flatMap fun row => row_changes a b row.2 row.1.1 row.1.2) ++
    (ra.zipIdx.drop common).map (command_line "-") ++ (rb.zipIdx.drop common).map (command_line "+")

/-- Why the rows cannot be compared. -/
def commands_reason (ca cb : Load (List CommandRecord)) : String :=
  match ca, cb with
  | .Missing, .Missing => "commands.json missing in both bundles"
  | .Missing, _ => "commands.json missing in bundle A"
  | _, .Missing => "commands.json missing in bundle B"
  | .Unparseable, _ => "commands.json unparseable in bundle A"
  | _, .Unparseable => "commands.json unparseable in bundle B"
  | _, _ => "commands.json unavailable"

/-- The recorded commands, row by row. -/
def commands (a b : FileTree) : Except DiffError CategoryDiff := do
  let ca ← read_json_file DiffJson.commands_from_slice a "commands.json"
  let cb ← read_json_file DiffJson.commands_from_slice b "commands.json"
  match ca, cb with
  | .Ok ra, .Ok rb => .ok ((Findings.differences (command_lines a b ra rb)).report "commands")
  | ca, cb => .ok (unverifiable "commands" (commands_reason ca cb))

end Content

/-! ## Assurance -/

section Assurance

variable [DiffJson]

/-- An objective of a report with its status, where its id is a text. -/
def objective_entry (o : ReproductionJson.Value) :
    Option (String × Option ReproductionJson.Value) := do
  let id ← (ReproductionJson.get o "objective_id").bind DiffJson.as_str
  some (id, ReproductionJson.get o "status")

/-- The objectives of a report, in its order. -/
def objective_entries (v : ReproductionJson.Value) :
    List (String × Option ReproductionJson.Value) :=
  (((ReproductionJson.get v "objectives").bind DiffJson.as_array).getD []).filterMap objective_entry

def status_label (status : Option ReproductionJson.Value) : String :=
  (status.map value_label).getD "(none)"

/-- The statuses by objective; a later one of an id replaces an earlier one. -/
def objectives (v : ReproductionJson.Value) : Store (Prod.fst : String × String → String) :=
  Store.ofList ((objective_entries v).map fun entry => (entry.1, status_label entry.2))

/-- `name.trim_end_matches(".json")`. -/
def trim_json : ℕ → List Char → List Char
  | 0, name => name
  | fuel + 1, name =>
    if ".json".toList.isSuffixOf name then trim_json fuel (name.take (name.length - 5)) else name

def crate_of (name : String) : String :=
  String.ofList (trim_json name.toList.length name.toList)

def objective_line (krate id : String) (sa sb : Option (String × String)) : List String :=
  match sa, sb with
  | some (_, sa), some (_, sb) =>
    if sa ≠ sb then [change_line (krate ++ " " ++ id) sa sb] else []
  | some (_, sa), none => ["- " ++ krate ++ " " ++ id ++ ": " ++ sa]
  | none, some (_, sb) => ["+ " ++ krate ++ " " ++ id ++ ": " ++ sb]
  | none, none => []

/-- One crate's report on both sides. -/
def compare_report (name : String) (va vb : ReproductionJson.Value) : List String :=
  field_changes (crate_of name ++ " " ++ ·) (field_of va) (field_of vb)
      ["dal", "assurance_level"] ++
    (if field_of va "standards_pack" ≠ field_of vb "standards_pack" then
      ["~ " ++ crate_of name ++ " standards_pack identity changed"]
    else []) ++
    (key_set (objectives va) (objectives vb)).flatMap fun id =>
      objective_line (crate_of name) id ((objectives va).get id) ((objectives vb).get id)

/-- One file name on both sides. -/
def report_findings (name : String) (ra rb : Option (Load ReproductionJson.Value)) : Findings :=
  match ra, rb with
  | some (.Ok _), none => .differences ["- compliance/" ++ name]
  | none, some (.Ok _) => .differences ["+ compliance/" ++ name]
  | some .Unparseable, _ => .unexamined ("! compliance/" ++ name ++ " unparseable in bundle A")
  | _, some .Unparseable => .unexamined ("! compliance/" ++ name ++ " unparseable in bundle B")
  | none, none => .differences []
  | some .Missing, _ => .differences []
  | _, some .Missing => .differences []
  | some (.Ok va), some (.Ok vb) => .differences (compare_report name va vb)

/-- Whether a side has an index without crates in scope. -/
def dal_empty (side : IndexedSide) : Bool :=
  match side.index with
  | .Ok index => index.dal_map.isEmpty
  | _ => false

/-- The findings on all file names, a name of both sides twice. -/
def mapping_findings (reports_a reports_b : ComplianceReports) : Findings :=
  ((chained_keys reports_a reports_b).map fun name =>
    report_findings name (reports_a.listed name) (reports_b.listed name)).foldr Findings.add
      (.differences [])

/-- No report is listed. -/
def ComplianceReports.is_empty (reports : ComplianceReports) : Bool := reports.values.isEmpty

def compare_mappings (a b : IndexedSide) (reports_a reports_b : ComplianceReports) : CategoryDiff :=
  if reports_a.is_empty || reports_b.is_empty then
    if reports_a.is_empty && reports_b.is_empty && dal_empty a && dal_empty b then
      { category := "objective_mappings", status := .Equal,
        details := ["no compliance reports on either side"] }
    else
      unverifiable "objective_mappings" ("compliance/ absent or empty in " ++
        which_side reports_a.is_empty reports_b.is_empty)
  else (mapping_findings reports_a reports_b).report "objective_mappings"

/-- Objective statuses and standards packs, crate by crate. -/
def objective_mappings [ReadDir] (a b : IndexedSide) : Except DiffError CategoryDiff := do
  let reports_a ← load_compliance_reports a.root
  let reports_b ← load_compliance_reports b.root
  .ok (compare_mappings a b reports_a reports_b)

/-- The failures of one command with one exit code. -/
structure FailureRow where
  key : String × ℤ
  tails : List String

section Failures

local instance failure_key_ord : Ord (String × ℤ) := lexOrd

/-- The recorded failures, by command and exit code. -/
def failure_rows (failures : List ToolCommandFailure) : Store FailureRow.key :=
  Store.ofList (failures.map fun f =>
    { key := (f.command_name, f.exit_code)
      tails := sortBy compare
        ((failures.filter fun g =>
          (g.command_name, g.exit_code) = (f.command_name, f.exit_code)).map
            ToolCommandFailure.stderr_tail) })

def failure_line (key : String × ℤ) (ta tb : Option FailureRow) : List String :=
  match ta, tb with
  | some ta, some tb =>
    if ta.tails ≠ tb.tails then
      ["~ " ++ key.1 ++ " exit " ++ toString key.2 ++ " stderr_tail changed"]
    else []
  | some _, none => ["- " ++ key.1 ++ " exit " ++ toString key.2]
  | none, some _ => ["+ " ++ key.1 ++ " exit " ++ toString key.2]
  | none, none => []

def anomaly_lines (fa fb : List ToolCommandFailure) : List String :=
  (key_set (failure_rows fa) (failure_rows fb)).flatMap fun key =>
    failure_line key ((failure_rows fa).get key) ((failure_rows fb).get key)

/-- The recorded failures of tools. -/
def anomalies (a b : IndexedSide) : CategoryDiff :=
  compare_indexes a b "anomalies" fun ia ib =>
    .differences (anomaly_lines ia.tool_command_failures ib.tool_command_failures)

end Failures

def ENGINE_FIELDS : List String :=
  ["engine_crate_version", "engine_git_sha", "engine_build_source"]

def ENV_FIELDS : List String :=
  ["rustc", "cargo", "llvm_version", "target_triple", "tool_prerelease"]

def env_line (side : String) (state : Load ReproductionJson.Value) : List String :=
  match state with
  | .Ok _ => []
  | state => ["! env.json " ++ state.state_label ++ " in bundle " ++ side]

def env_findings (env_a env_b : Load ReproductionJson.Value) : Findings :=
  match env_a, env_b with
  | .Ok ea, .Ok eb => .differences (field_changes id (field_of ea) (field_of eb) ENV_FIELDS)
  | env_a, env_b =>
    { changed := false, unexaminable := true, details := env_line "A" env_a ++ env_line "B" env_b }

/-- The standards packs of the reports that parse, as a set of texts. -/
def pack_set (reports : ComplianceReports) : List String :=
  (sortBy compare (reports.values.filterMap fun entry =>
    match entry.report with
    | .Ok v => (ReproductionJson.get v "standards_pack").map DiffJson.to_string
    | _ => none)).destutter (· ≠ ·)

def pack_findings (reports_a reports_b : ComplianceReports) : Findings :=
  .differences (if pack_set reports_a ≠ pack_set reports_b then
    ["~ standards_pack identity set changed"] else [])

/-- The engine, the toolchain and the standards packs. -/
def tool_identity [ReadDir] (a b : IndexedSide) : Except DiffError CategoryDiff :=
  match require_indexes a b "tool_identity" with
  | .error diff => .ok diff
  | .ok (ia, ib) => do
    let env_a ← read_json_file ReproductionJson.value_from_slice a.root "env.json"
    let env_b ← read_json_file ReproductionJson.value_from_slice b.root "env.json"
    let reports_a ← load_compliance_reports a.root
    let reports_b ← load_compliance_reports b.root
    .ok (((Findings.differences
      (field_changes id (field_of ia.value) (field_of ib.value) ENGINE_FIELDS)).add
        ((env_findings env_a env_b).add (pack_findings reports_a reports_b))).report
          "tool_identity")

def COMPLETENESS_AREAS : List String :=
  ["capture", "graph_validity", "verification", "objective_mapping", "review_approval",
    "integrity", "reproducibility", "tool_qualification"]

/-- The derived states, area by area. -/
def completeness_states (a b : IndexedSide) : CategoryDiff :=
  compare_indexes a b "completeness_states" fun ia ib =>
    .differences (field_changes id (field_of ia.completeness) (field_of ib.completeness)
      COMPLETENESS_AREAS)

def content_hash (a b : IndexedSide) : CategoryDiff :=
  compare_indexes a b "content_hash" fun ia ib =>
    .differences (if ia.content_hash = ib.content_hash then []
      else [change_line "content_hash" ia.content_hash ib.content_hash])

end Assurance

/-! ## The whole comparison -/

section Whole

variable [DiffJson] [ReadDir]

/-- A category that compares two bundles with their indexes. -/
def Category.indexed (compare : IndexedSide → IndexedSide → Except DiffError CategoryDiff) :
    Category := fun a b => do
  let side_a ← IndexedSide.load a
  let side_b ← IndexedSide.load b
  let diff ← compare side_a side_b
  .ok (diff.status, diff.details)

/-- A category that compares two directories. -/
def Category.plain (compare : FileTree → FileTree → Except DiffError CategoryDiff) : Category :=
  fun a b => do
    let diff ← compare a b
    .ok (diff.status, diff.details)

/-- The categories beside the tests and the trace graph. -/
def bundle_categories : OtherCategories where
  scope := .indexed fun a b => .ok (scope a b)
  coverage := .plain coverage
  commands := .plain commands
  recipe := .plain recipe
  inputs := .plain fun a b => digest_plane a b "inputs"
  outputs := .plain fun a b => digest_plane a b "outputs"
  objective_mappings := .indexed objective_mappings
  anomalies := .indexed fun a b => .ok (anomalies a b)
  tool_identity := .indexed tool_identity
  completeness_states := .indexed fun a b => .ok (completeness_states a b)
  content_hash := .indexed fun a b => .ok (content_hash a b)

end Whole

end Evidence.Diff
