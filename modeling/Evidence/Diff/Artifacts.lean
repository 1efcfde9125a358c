/-
`diff.rs` -- what the categories beside the tests and the trace graph read.

A value of `serde_json` is opaque: it has members, it may be a text, a list or a map, and it
can be printed. Of the index the fields that are read directly are kept beside the index
as a value, by which the others are compared. Compliance reports are listed under
the names `to_string_lossy` gives them and read under these names, so a report whose name
is no text, or whose entry is a link to nothing, is listed and missing.
-/
import Evidence.Diff.Compare
import Evidence.Verify.DigestPlanes

set_option autoImplicit false

namespace Evidence.Diff

open Std Sorting Evidence.Bundle
open Verify (ReproductionJson)

/-! ## Records -/

structure ToolCommandFailure where
  command_name : String
  exit_code : ℤ
  stderr_tail : String
deriving DecidableEq

structure CommandRecord where
  argv : List String
  exit_code : ℤ
  stdout_path : Option String
  stderr_path : Option String
deriving DecidableEq

inductive CoverageLevel where
  | Statement
  | Branch
  | PatternDecision
  | Mcdc
deriving DecidableEq

/-- How much was executed, and of how much. -/
structure Covered where
  covered : UInt64
  total : UInt64
deriving DecidableEq

structure FileMeasurement where
  lines : Covered
  branches : Option Covered
deriving DecidableEq

structure Measurement where
  level : CoverageLevel
  engine_version : String
  per_file : List FileMeasurement
deriving DecidableEq

structure CoverageReport where
  measurements : List Measurement
deriving DecidableEq

/-- The index, as the categories read it: `value` and `completeness` are what
`serde_json::to_value` gives for it and for its states, or null. -/
structure IndexRecord (Value : Type) where
  value : Value
  test_summary : Option TestSummary
  tool_command_failures : List ToolCommandFailure
  dal_map : List (String × String)
  completeness : Value
  content_hash : String

/-- `serde_json`, as far as the comparison reads by it. -/
class DiffJson extends ReproductionJson where
  as_str : Value → Option String
  as_array : Value → Option (List Value)
  as_object : Value → Option (Store (Prod.fst : String × Value → String))
  to_string : Value → String
  record_from_slice : List UInt8 → Option (IndexRecord Value)
  outcome_from_str : String → Option TestOutcomeRecord
  commands_from_slice : List UInt8 → Option (List CommandRecord)
  coverage_from_slice : List UInt8 → Option CoverageReport

/-- `fs::read_dir`: the names of the entries of a directory, in the order of the system. -/
class ReadDir where
  read_dir : FileTree → String → Option (List OsName)

section Values

variable [DiffJson]

/-- The tests read the summary of the same index. -/
instance : SerdeJson where
  index_from_slice bytes := (DiffJson.record_from_slice bytes).map fun index =>
    { test_summary := index.test_summary }
  outcome_from_str := DiffJson.outcome_from_str

abbrev Index := IndexRecord ReproductionJson.Value

/-- A JSON scalar in a detail line. -/
def value_label (v : ReproductionJson.Value) : String :=
  (DiffJson.as_str v).getD (DiffJson.to_string v)

/-- A member of a value; one that is absent is null. -/
def field_of (v : ReproductionJson.Value) (field : String) : ReproductionJson.Value :=
  (ReproductionJson.get v field).getD ReproductionJson.null

/-- The fields that differ, under their labels. -/
def field_changes (label : String → String) (read_a read_b : String → ReproductionJson.Value)
    (fields : List String) : List String :=
  fields.filterMap fun field =>
    if read_a field ≠ read_b field then
      some ("~ " ++ label field ++ ": " ++ value_label (read_a field) ++ " -> " ++
        value_label (read_b field))
    else none

/-- No line is a field that does not differ. -/
theorem field_changes_eq_nil_iff {label : String → String}
    {read_a read_b : String → ReproductionJson.Value} {fields : List String} :
    field_changes label read_a read_b fields = [] ↔
      ∀ field ∈ fields, read_a field = read_b field := by
  rw [field_changes, List.filterMap_eq_nil_iff]
  refine forall₂_congr fun field _ => ?_
  rw [ite_eq_right_iff]
  simp only [ne_eq, reduceCtorEq, imp_false, not_not]

end Values

/-! ## Sides -/

def Load.state_label {α : Type} : Load α → String
  | .Ok _ => "present"
  | .Missing => "missing"
  | .Unparseable => "unparseable"

section Sides

variable [DiffJson]

/-- A bundle and its index. -/
structure IndexedSide where
  root : FileTree
  index : Load Index

def IndexedSide.load (root : FileTree) : Except DiffError IndexedSide := do
  let index ← read_json_file DiffJson.record_from_slice root "index.json"
  .ok { root, index }

/-- Both indexes, or the result that names the side without one. -/
def require_indexes (a b : IndexedSide) (category : String) :
    Except CategoryDiff (Index × Index) :=
  match a.index, b.index with
  | .Ok ia, .Ok ib => .ok (ia, ib)
  | .Ok _, bad =>
    .error (unverifiable category ("index.json " ++ bad.state_label ++ " in bundle B"))
  | bad, .Ok _ =>
    .error (unverifiable category ("index.json " ++ bad.state_label ++ " in bundle A"))
  | bad_a, bad_b =>
    .error (unverifiable category ("index.json " ++ bad_a.state_label ++ " in bundle A and " ++
      bad_b.state_label ++ " in bundle B"))

def compare_indexes (a b : IndexedSide) (category : String) (findings : Index → Index → Findings) :
    CategoryDiff :=
  match require_indexes a b category with
  | .ok (ia, ib) => (findings ia ib).report category
  | .error diff => diff

def which_side (missing_a missing_b : Bool) : String :=
  match missing_a, missing_b with
  | true, true => "both bundles"
  | true, false => "bundle A"
  | false, true => "bundle B"
  | false, false => "neither bundle"

end Sides

/-! ## Maps -/

section Keys

variable {κ ν : Type} [Ord κ] [TransOrd κ] [LawfulEqOrd κ] [DecidableEq κ] {key : ν → κ}

def chained_keys (map_a map_b : Store key) : List κ :=
  map_a.values.map key ++ map_b.values.map key

/-- The keys of two maps, collected into a set. -/
def key_set (map_a map_b : Store key) : List κ :=
  (sortBy compare (chained_keys map_a map_b)).destutter (· ≠ ·)

omit [DecidableEq κ] in
theorem mem_chained_keys {map_a map_b : Store key} {k : κ} :
    k ∈ chained_keys map_a map_b ↔ map_a.get k ≠ none ∨ map_b.get k ≠ none := by
  have hkeys : ∀ map : Store key, k ∈ map.values.map key ↔ map.get k ≠ none := by
    intro map
    rw [List.mem_map, Option.ne_none_iff_exists']
    constructor
    · rintro ⟨v, hv, rfl⟩
      exact ⟨v, Store.mem_values.mp hv⟩
    · rintro ⟨v, hv⟩
      exact ⟨v, Store.mem_values_of_get hv, Store.key_of_get hv⟩
  rw [chained_keys, List.mem_append, hkeys, hkeys]

theorem mem_key_set {map_a map_b : Store key} {k : κ} :
    k ∈ key_set map_a map_b ↔ map_a.get k ≠ none ∨ map_b.get k ≠ none := by
  rw [key_set, mem_destutter_ne, mem_sortBy, mem_chained_keys]

end Keys

/-! ## Compliance reports -/

section Reports

variable [DiffJson] [ReadDir]

/-- A report under its file name. -/
structure NamedReport where
  name : String
  report : Load ReproductionJson.Value

abbrev ComplianceReports := Store NamedReport.name

/-- `name.ends_with(".json")`. -/
def is_json_name (name : String) : Bool := ".json".toList.isSuffixOf name.toList

/-- The reports of a side, by file name. -/
def load_compliance_reports (root : FileTree) : Except DiffError ComplianceReports :=
  if !is_dir root "compliance" then .ok Store.empty
  else
    match ReadDir.read_dir root "compliance" with
    | none => .error (.Io "compliance")
    | some entries => do
      let names := (entries.map fun entry => String.ofList (entry.map OsPiece.lossy)).filter
        is_json_name
      let reports ← names.mapM fun name => do
        let report ← read_json_file ReproductionJson.value_from_slice root ("compliance/" ++ name)
        .ok ({ name, report } : NamedReport)
      .ok (Store.ofList reports)

/-- What is listed under a file name. -/
def ComplianceReports.listed (reports : ComplianceReports) (name : String) :
    Option (Load ReproductionJson.Value) :=
  (reports.get name).map NamedReport.report

end Reports

end Evidence.Diff
