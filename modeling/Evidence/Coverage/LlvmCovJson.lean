/-
`coverage/llvm_cov_json.rs` -- the coverage report of an export of cargo-llvm-cov.

`parse_llvm_cov_export` takes the files of all data entries, keeps those whose name
begins with the workspace root, and sorts what it measured by path. The export is the
value read from the JSON text.

The root is cut off component by component, and nothing else is done to a name: a `..`
behind the root stays, and two entries of one file are two measurements. The paths of a
report tell files apart, and the report does not depend on the order of the export,
exactly when every entry has a place of its own under the root (`per_file_paths_iff`,
`per_file_congr`).
-/
import Evidence.Diff.Artifacts
import Evidence.Lib.Paths
import Evidence.Lib.Sorting

set_option autoImplicit false

namespace Evidence.Coverage

open Sorting Std
open Diff (CoverageLevel)
open Paths (Component components stripped)

/-! ## Report -/

structure LineCoverage where
  covered : UInt64
  total : UInt64
deriving DecidableEq

structure BranchCoverage where
  covered : UInt64
  total : UInt64
deriving DecidableEq

structure DecisionCoverage where
  id : String
  covered : Bool
  kind : String
deriving DecidableEq

structure ConditionCoverage where
  id : String
  decision_id : String
  covered : Bool
deriving DecidableEq

structure FileMeasurement where
  path : String
  lines : LineCoverage
  branches : Option BranchCoverage
  decisions : List DecisionCoverage
  conditions : List ConditionCoverage
deriving DecidableEq

structure Measurement where
  level : CoverageLevel
  engine : String
  engine_version : String
  per_file : List FileMeasurement
deriving DecidableEq

structure CoverageReport where
  schema_version : String
  measurements : List Measurement
deriving DecidableEq

/-- The schema version of a coverage report. -/
def COVERAGE : String := "0.0.1"

/-! ## Export -/

structure CountCovered where
  count : UInt64
  covered : UInt64
deriving DecidableEq

structure ExportFileSummary where
  lines : CountCovered
  branches : CountCovered
deriving DecidableEq

structure ExportFile where
  filename : String
  summary : ExportFileSummary
deriving DecidableEq

structure ExportDatum where
  files : List ExportFile
deriving DecidableEq

structure CargoLlvmCovMeta where
  version : Option String
deriving DecidableEq

structure ExportTop where
  type_field : Option String
  data : List ExportDatum
  cargo_llvm_cov : Option CargoLlvmCovMeta
deriving DecidableEq

inductive LlvmCovParseError where
  | UnexpectedShape (message : String)
deriving DecidableEq

def EXPORT_TYPE : String := "llvm.coverage.json.export"

/-! ## Parsing -/

/-- The path of a file in the workspace, with forward slashes. -/
def relative_to_workspace (abs_path workspace_root : String) : Option String :=
  (stripped workspace_root.toList abs_path.toList).map fun rel => String.ofList (Paths.text rel)

/-- What the statement level measures of a file. -/
def measure_lines (f : ExportFile) (path : String) : FileMeasurement where
  path := path
  lines := ⟨f.summary.lines.covered, f.summary.lines.count⟩
  branches := none
  decisions := []
  conditions := []

def measure_branches (f : ExportFile) (path : String) : FileMeasurement :=
  { measure_lines f path with
    branches := some ⟨f.summary.branches.covered, f.summary.branches.count⟩ }

/-- The files of all data entries. -/
def ExportTop.files (top : ExportTop) : List ExportFile := top.data.flatMap ExportDatum.files

/-- The measured files of the workspace, sorted by path. -/
def per_file (measure : ExportFile → String → FileMeasurement) (files : List ExportFile)
    (workspace_root : String) : List FileMeasurement :=
  sortBy (compareOn FileMeasurement.path)
    (files.filterMap fun f => (relative_to_workspace f.filename workspace_root).map (measure f))

def level_files (files : List ExportFile) (workspace_root : String) :
    CoverageLevel → List FileMeasurement
  | .Statement => per_file measure_lines files workspace_root
  | .Branch => per_file measure_branches files workspace_root
  | .PatternDecision | .Mcdc => []

def measurement (top : ExportTop) (workspace_root : String) (level : CoverageLevel) :
    Measurement where
  level := level
  engine := "llvm-cov"
  engine_version := (top.cargo_llvm_cov.bind CargoLlvmCovMeta.version).getD "unknown"
  per_file := level_files top.files workspace_root level

/-- A `type` that is there and is another one. -/
def ExportTop.foreign_type (top : ExportTop) : Option String :=
  top.type_field.filter fun t => t != EXPORT_TYPE

def parse_llvm_cov_export (top : ExportTop) (levels : List CoverageLevel)
    (workspace_root : String) : Except LlvmCovParseError CoverageReport :=
  match top.foreign_type with
  | some t =>
    .error (.UnexpectedShape ("expected type='llvm.coverage.json.export', got '" ++ t ++ "'"))
  | none =>
    .ok { schema_version := COVERAGE, measurements := levels.map (measurement top workspace_root) }

/-! ## Places under the root -/

/-- Components that name a file inside the directory they start from. -/
def Placed (parts : List Component) : Prop :=
  Component.RootDir ∉ parts ∧ Component.ParentDir ∉ parts ∧ ∃ name, Component.Normal name ∈ parts

/-- A path of a report: relative, without `..`, and a file inside the workspace. -/
def Inside (path : String) : Prop := Placed (components path.toList)

/-- Where the files of an export lie under the root. -/
def places (files : List ExportFile) (workspace_root : String) : List (List Component) :=
  files.filterMap fun f => stripped workspace_root.toList f.filename.toList

/-- Every file under the root has a place of its own inside it. -/
def PlacedOnce (files : List ExportFile) (workspace_root : String) : Prop :=
  (places files workspace_root).Nodup ∧ ∀ parts ∈ places files workspace_root, Placed parts

variable {files files' : List ExportFile} {workspace_root : String}
  {measure : ExportFile → String → FileMeasurement}

theorem canonical_of_mem_places {parts : List Component}
    (h : parts ∈ places files workspace_root) : Paths.Canonical parts := by
  obtain ⟨f, _, hf⟩ := List.mem_filterMap.mp h
  unfold stripped at hf
  split_ifs at hf
  rw [← Option.some.inj hf]
  exact (Paths.components_canonical f.filename.toList).drop _

theorem map_path_filterMap (hpath : ∀ f path, (measure f path).path = path)
    (files : List ExportFile) (workspace_root : String) :
    (files.filterMap fun f =>
      (relative_to_workspace f.filename workspace_root).map (measure f)).map FileMeasurement.path =
      (places files workspace_root).map fun parts => String.ofList (Paths.text parts) := by
  rw [places, List.map_filterMap, List.map_filterMap]
  refine List.filterMap_congr fun f _ => ?_
  rw [relative_to_workspace, Option.map_map, Option.map_map]
  refine congrArg (fun g => Option.map g _) (funext fun parts => ?_)
  exact hpath f _

theorem per_file_paths (hpath : ∀ f path, (measure f path).path = path)
    (files : List ExportFile) (workspace_root : String) :
    ((per_file measure files workspace_root).map FileMeasurement.path).Perm
      ((places files workspace_root).map fun parts => String.ofList (Paths.text parts)) := by
  rw [← map_path_filterMap hpath, per_file]
  exact (sortBy_perm _).map _

theorem components_place {parts : List Component} (h : parts ∈ places files workspace_root) :
    components (String.ofList (Paths.text parts)).toList = parts := by
  rw [String.toList_ofList, Paths.components_text (canonical_of_mem_places h)]

/-- **The paths of a report are distinct and inside the workspace** exactly when every file
under the root has a place of its own inside it. -/
theorem per_file_paths_iff (hpath : ∀ f path, (measure f path).path = path) :
    (((per_file measure files workspace_root).map FileMeasurement.path).Nodup ∧
      ∀ path ∈ (per_file measure files workspace_root).map FileMeasurement.path, Inside path) ↔
      PlacedOnce files workspace_root := by
  have hperm := per_file_paths hpath files workspace_root
  have hinj : ∀ parts ∈ places files workspace_root, ∀ parts' ∈ places files workspace_root,
      String.ofList (Paths.text parts) = String.ofList (Paths.text parts') → parts = parts' := by
    intro parts hparts parts' hparts' htext
    rw [← components_place hparts, htext, components_place hparts']
  refine and_congr ?_ ?_
  · rw [hperm.nodup_iff]
    exact ⟨List.Nodup.of_map _, List.Nodup.map_on hinj⟩
  · constructor
    · intro h parts hparts
      have hinside := h _ (hperm.mem_iff.mpr (List.mem_map_of_mem hparts))
      rwa [Inside, components_place hparts] at hinside
    · intro h path hmem
      obtain ⟨parts, hparts, rfl⟩ := List.mem_map.mp (hperm.mem_iff.mp hmem)
      rw [Inside, components_place hparts]
      exact h parts hparts

/-- **Files with places of their own are reported alike in every order.** -/
theorem per_file_congr (hpath : ∀ f path, (measure f path).path = path)
    (hplaced : PlacedOnce files workspace_root) (hperm : files.Perm files') :
    per_file measure files' workspace_root = per_file measure files workspace_root := by
  have hnodup := ((per_file_paths_iff hpath).mpr hplaced).1
  refine (sortBy_congr (hperm.filterMap _) fun a ha b hb hcmp => ?_).symm
  have hsame : a.path = b.path := LawfulEqCmp.eq_of_compare hcmp
  refine List.inj_on_of_nodup_map hnodup ?_ ?_ hsame
  · exact mem_sortBy.mpr ha
  · exact mem_sortBy.mpr hb

end Evidence.Coverage
