/-
`coverage/thresholds.rs` -- the coverage gate over a report.

`evaluate_thresholds` compares the aggregate percentage of each dimension with its
minimum. A percentage is an exact rational here; the sums behind it are of 64 bits and
wrap. A dimension is violated exactly when nothing of it was counted, or too little of it
covered (`aggregate_percent_lt_iff`).

With the parser in front, the gate judges each file of the workspace once if and only if
every file under the root has a place of its own in the export
(`coverage_promise_iff`).
-/
import Evidence.Coverage.LlvmCovJson
import Evidence.Lib.Counter
import Mathlib.Algebra.Order.Field.Rat
import Mathlib.Tactic.FieldSimp
import Mathlib.Tactic.NormNum

set_option autoImplicit false

namespace Evidence.Coverage

open Diff (CoverageLevel)

/-! ## Thresholds -/

/-- The minimum percentages of an assurance level. -/
structure DalCoverageThresholds where
  statement_percent : Option UInt8
  branch_percent : Option UInt8
deriving DecidableEq

/-- A dimension that falls below its minimum. -/
structure CoverageThresholdViolation where
  dimension : String
  current_percent : ℚ
  threshold_percent : UInt8
deriving DecidableEq

/-- `iter().sum::<u64>()`; it wraps. -/
def sum_u64 (counts : List UInt64) : UInt64 := counts.foldl (fun sum count => sum + count) 0

def aggregate_percent (covered total : List UInt64) : ℚ :=
  if sum_u64 total = 0 then 0
  else ((sum_u64 covered).toNat : ℚ) / ((sum_u64 total).toNat : ℚ) * 100

def aggregate_lines_percent (m : Measurement) : ℚ :=
  aggregate_percent (m.per_file.map fun f => f.lines.covered)
    (m.per_file.map fun f => f.lines.total)

/-- A file without data on branches contributes nothing. -/
def aggregate_branches_percent (m : Measurement) : ℚ :=
  aggregate_percent (m.per_file.map fun f => (f.branches.map BranchCoverage.covered).getD 0)
    (m.per_file.map fun f => (f.branches.map BranchCoverage.total).getD 0)

def measurement_for (report : CoverageReport) (level : CoverageLevel) : Option Measurement :=
  report.measurements.find? fun m => m.level == level

/-- One dimension: the violation, if there is a minimum and a measurement below it. -/
def dimension_violation (dimension : String) (min : Option UInt8) (m : Option Measurement)
    (percent : Measurement → ℚ) : List CoverageThresholdViolation :=
  match min, m with
  | some min, some m =>
    if percent m < (min.toNat : ℚ) then [⟨dimension, percent m, min⟩] else []
  | _, _ => []

def evaluate_thresholds (report : CoverageReport) (thresholds : DalCoverageThresholds) :
    List CoverageThresholdViolation :=
  dimension_violation "statement" thresholds.statement_percent
      (measurement_for report .Statement) aggregate_lines_percent ++
    dimension_violation "branch" thresholds.branch_percent
      (measurement_for report .Branch) aggregate_branches_percent

/-! ## Aggregates -/

theorem toNat_sum_u64 (counts : List UInt64) :
    (sum_u64 counts).toNat = (counts.map UInt64.toNat).sum % 2 ^ 64 := by
  rw [sum_u64, Counter.count_foldl UInt64.toNat (fun s a => UInt64.toNat_add s a) 0 (by decide),
    UInt64.toNat_zero, Nat.zero_add]

/-- **A percentage is below a minimum** when nothing was counted, or too little of it
covered. -/
theorem aggregate_percent_lt_iff {covered total : List UInt64} {min : ℕ} (hmin : 1 ≤ min)
    (hcovered : (covered.map UInt64.toNat).sum < 2 ^ 64)
    (htotal : (total.map UInt64.toNat).sum < 2 ^ 64) :
    aggregate_percent covered total < (min : ℚ) ↔
      (total.map UInt64.toNat).sum = 0 ∨
        100 * (covered.map UInt64.toNat).sum < min * (total.map UInt64.toNat).sum := by
  have hcov := toNat_sum_u64 covered
  have htot := toNat_sum_u64 total
  -- neither sum wraps
  rw [Nat.mod_eq_of_lt hcovered] at hcov
  rw [Nat.mod_eq_of_lt htotal] at htot
  unfold aggregate_percent
  by_cases hzero : sum_u64 total = 0
  · rw [if_pos hzero]
    rw [hzero, UInt64.toNat_zero] at htot
    refine iff_of_true ?_ (.inl htot.symm)
    exact_mod_cast hmin
  · have hne : (total.map UInt64.toNat).sum ≠ 0 := by
      rw [← htot]
      exact fun h => hzero (UInt64.toNat_inj.mp h)
    rw [if_neg hzero, htot, hcov, or_iff_right hne]
    generalize (covered.map UInt64.toNat).sum = c
    generalize (total.map UInt64.toNat).sum = t at hne
    have hpos : (0 : ℚ) < (t : ℚ) := by exact_mod_cast Nat.pos_of_ne_zero hne
    have hcast : (c : ℚ) * 100 < (min : ℚ) * (t : ℚ) ↔ c * 100 < min * t := by
      exact_mod_cast Iff.rfl
    rw [div_mul_eq_mul_div, div_lt_iff₀ hpos, hcast, Nat.mul_comm c 100]

theorem sum_per_file {measure : ExportFile → String → FileMeasurement}
    {value : FileMeasurement → UInt64} {count : ExportFile → UInt64}
    (hvalue : ∀ f path, value (measure f path) = count f) (files : List ExportFile)
    (workspace_root : String) :
    (((per_file measure files workspace_root).map value).map UInt64.toNat).sum =
      (((files.filter fun f => (relative_to_workspace f.filename workspace_root).isSome).map
        count).map UInt64.toNat).sum := by
  -- a sum does not depend on the order, so the sort can be left out
  have hsorted : (((per_file measure files workspace_root).map value).map UInt64.toNat).sum =
      (((files.filterMap fun f => (relative_to_workspace f.filename workspace_root).map
        (measure f)).map value).map UInt64.toNat).sum :=
    (((Sorting.sortBy_perm _).map value).map UInt64.toNat).sum_eq
  rw [hsorted]
  clear hsorted
  induction files with
  | nil => rfl
  | cons f files ih =>
    rw [List.filterMap_cons, List.filter_cons]
    cases relative_to_workspace f.filename workspace_root with
    | none =>
      rw [Option.isSome_none, if_neg Bool.false_ne_true]
      exact ih
    | some path =>
      rw [Option.map_some, Option.isSome_some, if_pos rfl, List.map_cons, List.map_cons,
        List.sum_cons, List.map_cons, List.map_cons, List.sum_cons, hvalue, ih]

/-! ## The gate -/

/-- Export values that differ in the order of the data entries and of their files. -/
def Rearranged (top top' : ExportTop) : Prop :=
  top'.type_field = top.type_field ∧ top'.cargo_llvm_cov = top.cargo_llvm_cov ∧
    ∃ data, List.Forall₂ (fun d e => d.files.Perm e.files) top.data data ∧ data.Perm top'.data

def workspace_files (top : ExportTop) (workspace_root : String) : List ExportFile :=
  top.files.filter fun f => (relative_to_workspace f.filename workspace_root).isSome

/-- What a dimension counts over the files of the workspace. -/
def total_of (value : ExportFile → UInt64) (top : ExportTop) (workspace_root : String) : ℕ :=
  (((workspace_files top workspace_root).map value).map UInt64.toNat).sum

/-- The gate of one dimension is exact: it reports a violation of a minimum from one on
when nothing was counted or too little covered, and counts `counts` only. -/
def GateExact (top : ExportTop) (levels : List CoverageLevel) (workspace_root : String)
    (dimension : String) (level : CoverageLevel)
    (minimum : DalCoverageThresholds → Option UInt8) (counts : ExportFile → CountCovered) : Prop :=
  ∀ report, parse_llvm_cov_export top levels workspace_root = .ok report →
    ∀ thresholds m, minimum thresholds = some m → 1 ≤ m.toNat → level ∈ levels →
      total_of (fun f => (counts f).covered) top workspace_root < 2 ^ 64 →
      total_of (fun f => (counts f).count) top workspace_root < 2 ^ 64 →
      ((∃ v ∈ evaluate_thresholds report thresholds, v.dimension = dimension) ↔
        total_of (fun f => (counts f).count) top workspace_root = 0 ∨
          100 * total_of (fun f => (counts f).covered) top workspace_root <
            m.toNat * total_of (fun f => (counts f).count) top workspace_root)

structure CoveragePromise (top : ExportTop) (levels : List CoverageLevel)
    (workspace_root : String) : Prop where
  /-- The order of the export does not matter. -/
  same : ∀ top', Rearranged top top' →
    parse_llvm_cov_export top' levels workspace_root =
      parse_llvm_cov_export top levels workspace_root
  /-- Every measurement has distinct paths, all of files inside the workspace. -/
  paths : ∀ report, parse_llvm_cov_export top levels workspace_root = .ok report →
    ∀ m ∈ report.measurements, (m.per_file.map FileMeasurement.path).Nodup ∧
      ∀ path ∈ m.per_file.map FileMeasurement.path, Inside path
  statement : GateExact top levels workspace_root "statement" .Statement
    DalCoverageThresholds.statement_percent fun f => f.summary.lines
  branch : GateExact top levels workspace_root "branch" .Branch
    DalCoverageThresholds.branch_percent fun f => f.summary.branches

variable {top top' : ExportTop} {levels : List CoverageLevel} {workspace_root : String}

theorem Rearranged.files_perm (h : Rearranged top top') : top.files.Perm top'.files := by
  obtain ⟨_, _, data, hfiles, hperm⟩ := h
  refine List.Perm.trans ?_ (hperm.flatMap_right _)
  rw [ExportTop.files]
  clear hperm
  generalize top.data = entries at hfiles
  induction hfiles with
  | nil => exact .nil
  | cons hhead _ ih =>
    rw [List.flatMap_cons, List.flatMap_cons]
    exact hhead.append ih

theorem measurement_for_eq {report : CoverageReport} {level : CoverageLevel}
    (hparse : parse_llvm_cov_export top levels workspace_root = .ok report)
    (hlevel : level ∈ levels) :
    measurement_for report level = some (measurement top workspace_root level) := by
  unfold parse_llvm_cov_export at hparse
  cases hforeign : top.foreign_type with
  | some t =>
    rw [hforeign] at hparse
    cases hparse
  | none =>
    rw [hforeign, Except.ok.injEq] at hparse
    subst hparse
    rw [measurement_for]
    induction levels with
    | nil => exact absurd hlevel List.not_mem_nil
    | cons first levels ih =>
      rw [List.map_cons, List.find?_cons]
      -- each level has one measurement, and the first of the level is found
      by_cases hfirst : first = level
      · subst hfirst
        simp only [measurement, beq_self_eq_true]
      · have hne : ((measurement top workspace_root first).level == level) = false :=
          beq_false_of_ne hfirst
        rw [hne]
        exact ih ((List.mem_cons.mp hlevel).resolve_left fun heq => hfirst heq.symm)

theorem exists_dimension_violation_iff {dimension : String} {min : UInt8} {m : Measurement}
    {percent : Measurement → ℚ} :
    (∃ v ∈ dimension_violation dimension (some min) (some m) percent, v.dimension = dimension) ↔
      percent m < (min.toNat : ℚ) := by
  simp only [dimension_violation]
  by_cases hbelow : percent m < (min.toNat : ℚ)
  · rw [if_pos hbelow]
    exact iff_of_true ⟨_, List.mem_cons_self, rfl⟩ hbelow
  · rw [if_neg hbelow]
    refine iff_of_false ?_ hbelow
    rintro ⟨v, hv, _⟩
    exact absurd hv List.not_mem_nil

theorem dimension_of_mem {dimension : String} {min : Option UInt8} {m : Option Measurement}
    {percent : Measurement → ℚ} {v : CoverageThresholdViolation}
    (h : v ∈ dimension_violation dimension min m percent) : v.dimension = dimension := by
  unfold dimension_violation at h
  split at h
  · split_ifs at h with hbelow
    · rw [List.mem_singleton.mp h]
    · exact absurd h List.not_mem_nil
  · exact absurd h List.not_mem_nil

theorem gate_exact_of {dimension : String} {level : CoverageLevel}
    {minimum : DalCoverageThresholds → Option UInt8} {counts : ExportFile → CountCovered}
    (percent : Measurement → ℚ) (measure : ExportFile → String → FileMeasurement)
    (covered total : FileMeasurement → UInt64)
    (hviolation : ∀ report thresholds,
      (∃ v ∈ evaluate_thresholds report thresholds, v.dimension = dimension) ↔
        ∃ v ∈ dimension_violation dimension (minimum thresholds) (measurement_for report level)
          percent, v.dimension = dimension)
    (hpercent : percent (measurement top workspace_root level) =
      aggregate_percent ((per_file measure top.files workspace_root).map covered)
        ((per_file measure top.files workspace_root).map total))
    (hcovered : ∀ f path, covered (measure f path) = (counts f).covered)
    (htotal : ∀ f path, total (measure f path) = (counts f).count) :
    GateExact top levels workspace_root dimension level minimum counts := by
  intro report hparse thresholds m hminimum hm hlevel hcovered_fits htotal_fits
  have hcov := sum_per_file hcovered top.files workspace_root
  have htot := sum_per_file htotal top.files workspace_root
  rw [hviolation, hminimum, measurement_for_eq hparse hlevel, exists_dimension_violation_iff,
    hpercent, aggregate_percent_lt_iff hm (hcov.trans_lt hcovered_fits)
      (htot.trans_lt htotal_fits), hcov, htot]
  rfl

/-- **The statement gate counts lines**, over the files of the workspace. -/
theorem statement_gate_exact (top : ExportTop) (levels : List CoverageLevel)
    (workspace_root : String) :
    GateExact top levels workspace_root "statement" .Statement
      DalCoverageThresholds.statement_percent fun f => f.summary.lines := by
  refine gate_exact_of aggregate_lines_percent measure_lines (fun f => f.lines.covered)
    (fun f => f.lines.total) (fun report thresholds => ?_) rfl (fun _ _ => rfl) (fun _ _ => rfl)
  rw [evaluate_thresholds]
  constructor
  · rintro ⟨v, hv, hdimension⟩
    rcases List.mem_append.mp hv with hv | hv
    · exact ⟨v, hv, hdimension⟩
    · rw [dimension_of_mem hv] at hdimension
      exact absurd hdimension (by decide)
  · rintro ⟨v, hv, hdimension⟩
    exact ⟨v, List.mem_append_left _ hv, hdimension⟩

/-- **The branch gate counts branches**, over the files of the workspace. -/
theorem branch_gate_exact (top : ExportTop) (levels : List CoverageLevel)
    (workspace_root : String) :
    GateExact top levels workspace_root "branch" .Branch
      DalCoverageThresholds.branch_percent fun f => f.summary.branches := by
  refine gate_exact_of aggregate_branches_percent measure_branches
    (fun f => (f.branches.map BranchCoverage.covered).getD 0)
    (fun f => (f.branches.map BranchCoverage.total).getD 0) (fun report thresholds => ?_) rfl
    (fun _ _ => rfl) (fun _ _ => rfl)
  rw [evaluate_thresholds]
  constructor
  · rintro ⟨v, hv, hdimension⟩
    rcases List.mem_append.mp hv with hv | hv
    · rw [dimension_of_mem hv] at hdimension
      exact absurd hdimension (by decide)
    · exact ⟨v, hv, hdimension⟩
  · rintro ⟨v, hv, hdimension⟩
    exact ⟨v, List.mem_append_right _ hv, hdimension⟩

/-! ## Each file once -/

/-- The export is not read, or no level that lists files is measured. -/
def Unmeasured (top : ExportTop) (levels : List CoverageLevel) : Prop :=
  top.foreign_type ≠ none ∨ (CoverageLevel.Statement ∉ levels ∧ CoverageLevel.Branch ∉ levels)

theorem level_files_paths (hplaced : PlacedOnce top.files workspace_root) (level : CoverageLevel) :
    ((level_files top.files workspace_root level).map FileMeasurement.path).Nodup ∧
      ∀ path ∈ (level_files top.files workspace_root level).map FileMeasurement.path,
        Inside path := by
  cases level with
  | Statement => exact (per_file_paths_iff fun _ _ => rfl).mpr hplaced
  | Branch => exact (per_file_paths_iff fun _ _ => rfl).mpr hplaced
  | PatternDecision | Mcdc =>
    exact ⟨List.nodup_nil, fun path hpath => absurd hpath List.not_mem_nil⟩

theorem placedOnce_of_level {level : CoverageLevel}
    (hlevel : level = .Statement ∨ level = .Branch)
    (h : ((level_files top.files workspace_root level).map FileMeasurement.path).Nodup ∧
      ∀ path ∈ (level_files top.files workspace_root level).map FileMeasurement.path,
        Inside path) : PlacedOnce top.files workspace_root := by
  rcases hlevel with rfl | rfl
  · have hpath : ∀ f path, (measure_lines f path).path = path := fun _ _ => rfl
    exact (per_file_paths_iff hpath).mp h
  · have hpath : ∀ f path, (measure_branches f path).path = path := fun _ _ => rfl
    exact (per_file_paths_iff hpath).mp h

theorem level_files_congr {files files' : List ExportFile}
    (hplaced : PlacedOnce files workspace_root) (hperm : files.Perm files')
    (level : CoverageLevel) :
    level_files files' workspace_root level = level_files files workspace_root level := by
  cases level with
  | Statement => exact per_file_congr (fun _ _ => rfl) hplaced hperm
  | Branch => exact per_file_congr (fun _ _ => rfl) hplaced hperm
  | PatternDecision | Mcdc => rfl

/-- **The paths of a report are good** exactly when the files are well placed, or not
measured. -/
theorem report_paths_iff :
    (∀ report, parse_llvm_cov_export top levels workspace_root = .ok report →
      ∀ m ∈ report.measurements, (m.per_file.map FileMeasurement.path).Nodup ∧
        ∀ path ∈ m.per_file.map FileMeasurement.path, Inside path) ↔
      Unmeasured top levels ∨ PlacedOnce top.files workspace_root := by
  unfold Unmeasured parse_llvm_cov_export
  cases hforeign : top.foreign_type with
  | some t =>
    refine iff_of_true (fun report hreport => ?_) (.inl (.inl (Option.some_ne_none t)))
    cases hreport
  | none =>
    constructor
    · intro h
      have hfiles := h _ rfl
      by_cases hlisted : ∃ level ∈ levels, level = .Statement ∨ level = CoverageLevel.Branch
      · obtain ⟨level, hmem, hlevel⟩ := hlisted
        exact .inr (placedOnce_of_level hlevel (hfiles _ (List.mem_map_of_mem hmem)))
      · refine .inl (.inr ⟨fun hmem => hlisted ⟨_, hmem, .inl rfl⟩, fun hmem => ?_⟩)
        exact hlisted ⟨_, hmem, .inr rfl⟩
    · intro h report hreport m hm
      rw [Except.ok.injEq] at hreport
      subst hreport
      obtain ⟨level, hlevel, rfl⟩ := List.mem_map.mp hm
      rcases h with (habsurd | ⟨hstatement, hbranch⟩) | hplaced
      · exact absurd rfl habsurd
      · cases level with
        | Statement => exact absurd hlevel hstatement
        | Branch => exact absurd hlevel hbranch
        | PatternDecision | Mcdc =>
          exact ⟨List.nodup_nil, fun path hpath => absurd hpath List.not_mem_nil⟩
      · exact level_files_paths hplaced level

theorem parse_rearranged (h : Rearranged top top')
    (hlevels : ∀ level ∈ levels, level_files top'.files workspace_root level =
      level_files top.files workspace_root level) :
    parse_llvm_cov_export top' levels workspace_root =
      parse_llvm_cov_export top levels workspace_root := by
  unfold parse_llvm_cov_export ExportTop.foreign_type
  have hmeasurements : levels.map (measurement top' workspace_root) =
      levels.map (measurement top workspace_root) := by
    refine List.map_congr_left fun level hlevel => ?_
    rw [measurement, measurement, h.2.1, hlevels level hlevel]
  rw [h.1, hmeasurements]

/-- **The gate judges each file of the workspace once if and only if** the export is not
read, or no level that lists files is measured, or every file under the root has a place of
its own inside the workspace. -/
theorem coverage_promise_iff (top : ExportTop) (levels : List CoverageLevel)
    (workspace_root : String) :
    CoveragePromise top levels workspace_root ↔
      Unmeasured top levels ∨ PlacedOnce top.files workspace_root := by
  constructor
  · exact fun h => report_paths_iff.mp h.paths
  · intro h
    refine ⟨fun top' hrearranged => ?_, report_paths_iff.mpr h,
      statement_gate_exact top levels workspace_root, branch_gate_exact top levels workspace_root⟩
    rcases h with (hforeign | ⟨hstatement, hbranch⟩) | hplaced
    · obtain ⟨t, ht⟩ := Option.ne_none_iff_exists'.mp hforeign
      have ht' : top'.foreign_type = some t := by
        rw [ExportTop.foreign_type, hrearranged.1]
        exact ht
      rw [parse_llvm_cov_export, parse_llvm_cov_export, ht, ht']
    · refine parse_rearranged hrearranged fun level hlevel => ?_
      cases level with
      | Statement => exact absurd hlevel hstatement
      | Branch => exact absurd hlevel hbranch
      | PatternDecision | Mcdc => rfl
    · exact parse_rearranged hrearranged fun level _ =>
        level_files_congr hplaced hrearranged.files_perm level

/-! ## A file named twice -/

/-- A file of the workspace, with its covered lines of ten. -/
def sample_file (filename : String) (covered : UInt64) : ExportFile where
  filename := filename
  summary := ⟨⟨10, covered⟩, ⟨0, 0⟩⟩

/-- An export whose two data entries name one file. -/
def doubled_export : ExportTop where
  type_field := some EXPORT_TYPE
  data := [⟨[sample_file "/ws/src/lib.rs" 10]⟩, ⟨[sample_file "/ws/src/lib.rs" 0]⟩]
  cargo_llvm_cov := none

/-- **A file that two entries name is judged twice.** -/
theorem doubled_file_judged_twice :
    ¬ CoveragePromise doubled_export [.Statement] "/ws" := by
  intro h
  rcases report_paths_iff.mp h.paths with (hforeign | hlevels) | hplaced
  · exact hforeign (by decide)
  · exact hlevels.1 List.mem_cons_self
  · have hplaces : places doubled_export.files "/ws" =
        [[.Normal "src".toList, .Normal "lib.rs".toList],
          [.Normal "src".toList, .Normal "lib.rs".toList]] := by decide
    have hnodup := hplaced.1
    rw [hplaces] at hnodup
    exact absurd hnodup (by decide)

end Evidence.Coverage
