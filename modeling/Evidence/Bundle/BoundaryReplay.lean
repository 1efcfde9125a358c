/-
`cargo_metadata.rs`, `verify/bundle/boundary_recheck.rs` -- the boundary rules, replayed.

When a bundle is generated, the rules are checked on cargo's metadata; when it is verified,
on the projection of them that the bundle carries, and with the names of the bundle's
assurance map for the crates in scope. A violation depends on what the projection keeps of
a package, and the lists of violations are sorted and freed of repeats, so neither the
order of the packages nor that of the names shows (`violations_in_congr`). The replay
therefore finds what the generation found.
-/
import Evidence.Bundle.MetadataJson
import Evidence.Cli.VerifyError
import Evidence.Diff.Basic
import Evidence.Lib.LastWins

set_option autoImplicit false

namespace Evidence.BoundaryCheck

open Std Sorting Json Evidence.Bundle Evidence.Cli

/-! ## The checks on a projection -/

def projected_target_is_build_rs (t : TargetProjection) : Bool :=
  t.kind.any fun k => k == "custom-build"

def projected_target_is_proc_macro (t : TargetProjection) : Bool :=
  t.kind.any fun k => k == "proc-macro"

def check_build_rs_in_projection (in_scope : List String) (projection : CargoMetadataProjection) :
    List BuildRsViolation :=
  let out := ((projection.packages.filter fun p => p.name ∈ in_scope.toFinset).filter fun p =>
    p.targets.any projected_target_is_build_rs).map fun p =>
      ({ crate_name := p.name, links := p.links } : BuildRsViolation)
  (sortBy BuildRsViolation.cmp out).destutter (· ≠ ·)

def check_proc_macros_in_projection (in_scope : List String)
    (projection : CargoMetadataProjection) : List ProcMacroViolation :=
  let out := ((projection.packages.filter fun p => p.name ∈ in_scope.toFinset).filter fun p =>
    p.targets.any projected_target_is_proc_macro).map fun p =>
      ({ crate_name := p.name } : ProcMacroViolation)
  (sortBy ProcMacroViolation.cmp out).destutter (· ≠ ·)

/-! ## Text -/

section Replay

variable (parse : String → Option Value)

/-- What the boundary checks read of cargo's output. -/
def metadata_from_str (json : String) : Option Metadata := (parse json).bind Metadata.from_value

/-- The projection of cargo's output, where there is one. -/
def from_raw_metadata_str (json : String) : Option CargoMetadataProjection :=
  ((parse json).bind RawMetadata.from_value).bind fun raw => (from_raw_metadata raw).toOption

/-- A projection, read back. -/
def from_projection_json (json : String) : Option CargoMetadataProjection :=
  (parse json).bind CargoMetadataProjection.from_value

/-! ## The recheck -/

structure BoundaryPolicy where
  no_out_of_scope_deps : Bool
  forbid_build_rs : Bool
  forbid_proc_macros : Bool
deriving DecidableEq

/-- `EvidenceIndex`, as far as the recheck reads it. -/
structure EvidenceIndex where
  dal_map : Store (Prod.fst : String × String → String)
  boundary_policy : BoundaryPolicy

def fmt_build_rs (v : List BuildRsViolation) : String :=
  ", ".intercalate (v.map fun x =>
    match x.links with
    | some l => x.crate_name ++ " (links = \"" ++ l ++ "\")"
    | none => x.crate_name)

def fmt_proc_macro (v : List ProcMacroViolation) : String :=
  ", ".intercalate (v.map ProcMacroViolation.crate_name)

/-- Replay the rules at verify time against the bundle's projection. -/
def check_boundary_recheck (bundle : FileTree) (index : EvidenceIndex)
    (errors : List VerifyError) : List VerifyError :=
  let policy := index.boundary_policy
  if !policy.forbid_build_rs && !policy.forbid_proc_macros then errors
  else if index.dal_map.values.isEmpty then errors
  else if !Diff.is_file bundle "cargo_metadata.json" then
    errors ++ [.BoundaryVerifyMetadataMissing]
  else
    match read_to_string bundle "cargo_metadata.json" with
    | none => errors ++ [.BoundaryVerifyMetadataMissing]
    | some raw =>
      match from_projection_json parse raw with
      | none => errors ++ [.BoundaryVerifyMetadataMissing]
      | some projection =>
        let in_scope := index.dal_map.values.map Prod.fst
        let errors :=
          if policy.forbid_build_rs then
            let v := check_build_rs_in_projection in_scope projection
            if !v.isEmpty then errors ++ [.BoundaryVerifyForbiddenBuildRs (fmt_build_rs v)]
            else errors
          else errors
        if policy.forbid_proc_macros then
          let v := check_proc_macros_in_projection in_scope projection
          if !v.isEmpty then errors ++ [.BoundaryVerifyForbiddenProcMacro ( fmt_proc_macro v)]
          else errors
        else errors

end Replay

/-! ## What the two sides agree on -/

/-- The names in scope, each once and in order. -/
def sorted_names (in_scope : List String) : List String :=
  (sortBy compare in_scope).destutter (· ≠ ·)

/-- The finding for what a rule found when the bundle was generated. -/
def finding {V : Type} (forbidden : Bool) (found : Except BoundaryCheckError (List V))
    (error : List V → VerifyError) : List VerifyError :=
  match forbidden, found with
  | true, .ok (v :: vs) => [error (v :: vs)]
  | _, _ => []

/-- **The two checks agree**: on the names as they are listed, and on the names sorted. -/
structure ChecksAgree (in_scope : List String) (metadata : Metadata)
    (cached : CargoMetadataProjection) : Prop where
  build_rs : find_build_rs_violations in_scope metadata =
    .ok (check_build_rs_in_projection in_scope cached)
  proc_macros : find_proc_macro_violations in_scope metadata =
    .ok (check_proc_macros_in_projection in_scope cached)
  build_rs_sorted : find_build_rs_violations in_scope metadata =
    .ok (check_build_rs_in_projection (sorted_names in_scope) cached)
  proc_macros_sorted : find_proc_macro_violations in_scope metadata =
    .ok (check_proc_macros_in_projection (sorted_names in_scope) cached)

/-- **The recheck reports what the generation found**: on a bundle that carries the text, and
whose index names the crates in scope. -/
def RecheckAgrees (parse : String → Option Value) (in_scope : List String) (metadata : Metadata)
    (json : String) : Prop :=
  ∀ (bundle : FileTree) (index : EvidenceIndex) (errors : List VerifyError),
    read_to_string bundle "cargo_metadata.json" = some json →
    index.dal_map.values.map Prod.fst = sorted_names in_scope →
      check_boundary_recheck parse bundle index errors = errors ++
        finding index.boundary_policy.forbid_build_rs (find_build_rs_violations in_scope metadata)
          (fun v => .BoundaryVerifyForbiddenBuildRs (fmt_build_rs v)) ++
        finding index.boundary_policy.forbid_proc_macros
          (find_proc_macro_violations in_scope metadata)
          (fun v => .BoundaryVerifyForbiddenProcMacro ( fmt_proc_macro v))

/-! ## Violations of a projection -/

instance : TransCmp BuildRsViolation.cmp :=
  inferInstanceAs (TransCmp (compareLex (compareOn BuildRsViolation.crate_name)
    (compareOn BuildRsViolation.links)))

instance : LawfulEqCmp BuildRsViolation.cmp where
  eq_of_compare {a b} h := by
    obtain ⟨hname, hlinks⟩ := Ordering.then_eq_eq.mp h
    obtain ⟨crate_name, links⟩ := a
    obtain ⟨crate_name', links'⟩ := b
    rw [BuildRsViolation.mk.injEq]
    exact ⟨LawfulEqCmp.eq_of_compare hname, LawfulEqCmp.eq_of_compare hlinks⟩

instance : TransCmp ProcMacroViolation.cmp :=
  inferInstanceAs (TransCmp (compareOn ProcMacroViolation.crate_name))

instance : LawfulEqCmp ProcMacroViolation.cmp where
  eq_of_compare {a b} h := by
    obtain ⟨crate_name⟩ := a
    obtain ⟨crate_name'⟩ := b
    rw [ProcMacroViolation.mk.injEq]
    exact LawfulEqCmp.eq_of_compare h

section Violations

variable {V : Type} [DecidableEq V] (cmp : V → V → Ordering) (of_package : PackageProjection → V)
  (kind : String)

/-- The violations of a rule that forbids targets of a kind. -/
def violations_in (in_scope : List String) (packages : List PackageProjection) : List V :=
  let out := ((packages.filter fun p => p.name ∈ in_scope.toFinset).filter fun p =>
    p.targets.any fun t => t.kind.any fun k => k == kind).map of_package
  (sortBy cmp out).destutter (· ≠ ·)

/-- **Neither the order of the packages nor that of the names shows.** -/
theorem violations_in_congr [TransCmp cmp] [LawfulEqCmp cmp] {in_scope in_scope' : List String}
    (hscope : ∀ name, name ∈ in_scope ↔ name ∈ in_scope')
    {packages packages' : List PackageProjection} (hperm : packages.Perm packages') :
    violations_in cmp of_package kind in_scope packages =
      violations_in cmp of_package kind in_scope' packages' := by
  rw [violations_in, violations_in, destutter_sortBy_eq_iff]
  intro v
  simp only [List.mem_map, List.mem_filter, List.mem_toFinset, decide_eq_true_eq, hscope,
    hperm.mem_iff]

end Violations

/-- The build scripts of packages are those of what is kept of them. -/
theorem find_build_rs_violations_eq (in_scope : List String) (metadata : Metadata) :
    find_build_rs_violations in_scope metadata =
      .ok (violations_in BuildRsViolation.cmp (fun p => ⟨p.name, p.links⟩) "custom-build" in_scope
        (metadata.packages.map Package.project)) := by
  rw [find_build_rs_violations, violations_in, List.filter_map, List.filter_map, List.map_map]
  simp only [Function.comp_def, Package.project, List.any_map]
  rfl

theorem find_proc_macro_violations_eq (in_scope : List String) (metadata : Metadata) :
    find_proc_macro_violations in_scope metadata =
      .ok (violations_in ProcMacroViolation.cmp (fun p => ⟨p.name⟩) "proc-macro" in_scope
        (metadata.packages.map Package.project)) := by
  rw [find_proc_macro_violations, violations_in, List.filter_map, List.filter_map, List.map_map]
  simp only [Function.comp_def, Package.project, List.any_map]
  rfl

theorem check_build_rs_in_projection_eq (in_scope : List String)
    (projection : CargoMetadataProjection) :
    check_build_rs_in_projection in_scope projection =
      violations_in BuildRsViolation.cmp (fun p => ⟨p.name, p.links⟩) "custom-build" in_scope
        projection.packages := rfl

theorem check_proc_macros_in_projection_eq (in_scope : List String)
    (projection : CargoMetadataProjection) :
    check_proc_macros_in_projection in_scope projection =
      violations_in ProcMacroViolation.cmp (fun p => ⟨p.name⟩) "proc-macro" in_scope
        projection.packages := rfl

theorem mem_sorted_names {in_scope : List String} {name : String} :
    name ∈ sorted_names in_scope ↔ name ∈ in_scope := by
  rw [sorted_names, mem_destutter_ne, mem_sortBy]

/-- **The checks agree** on metadata and a projection that keep the same of the packages. -/
theorem checks_agree {metadata : Metadata} {cached : CargoMetadataProjection}
    (hperm : (metadata.packages.map Package.project).Perm cached.packages)
    (in_scope : List String) : ChecksAgree in_scope metadata cached := by
  have hsorted (name : String) : name ∈ in_scope ↔ name ∈ sorted_names in_scope :=
    mem_sorted_names.symm
  constructor
  · rw [find_build_rs_violations_eq, check_build_rs_in_projection_eq,
      violations_in_congr _ _ _ (fun _ => Iff.rfl) hperm]
  · rw [find_proc_macro_violations_eq, check_proc_macros_in_projection_eq,
      violations_in_congr _ _ _ (fun _ => Iff.rfl) hperm]
  · rw [find_build_rs_violations_eq, check_build_rs_in_projection_eq,
      violations_in_congr _ _ _ hsorted hperm]
  · rw [find_proc_macro_violations_eq, check_proc_macros_in_projection_eq,
      violations_in_congr _ _ _ hsorted hperm]

/-! ## The replay -/

theorem packages_perm {parse : String → Option Value} {json : String} {metadata : Metadata}
    {projection : CargoMetadataProjection}
    (hmetadata : metadata_from_str parse json = some metadata)
    (hprojection : from_raw_metadata_str parse json = some projection) :
    (metadata.packages.map Package.project).Perm projection.packages := by
  obtain ⟨v, hv, hmetadata⟩ := Option.bind_eq_some_iff.mp hmetadata
  rw [from_raw_metadata_str, hv, Option.bind_some] at hprojection
  obtain ⟨raw, hraw, hprojection⟩ := Option.bind_eq_some_iff.mp hprojection
  rw [packages_views hmetadata hraw]
  rw [from_raw_metadata_eq] at hprojection
  rcases hgraph : project_resolved_graph raw with e | graph
  · rw [hgraph] at hprojection
    cases hprojection
  · rw [hgraph] at hprojection
    rw [← Option.some.inj hprojection]
    exact (sortBy_perm _).symm

theorem append_finding {V : Type} (forbidden : Bool) (found : List V)
    (error : List V → VerifyError) (errors : List VerifyError) :
    (if forbidden then if !found.isEmpty then errors ++ [error found] else errors else errors) =
      errors ++ finding forbidden (.ok found) error := by
  rcases forbidden with _ | _
  · exact (List.append_nil errors).symm
  · rcases found with _ | ⟨v, vs⟩
    · exact (List.append_nil errors).symm
    · rfl

/-- Without names in scope there is no violation. -/
theorem violations_in_nil {V : Type} [DecidableEq V] (cmp : V → V → Ordering)
    (of_package : PackageProjection → V) (kind : String) (packages : List PackageProjection) :
    violations_in cmp of_package kind [] packages = [] := by
  have hnone : (packages.filter fun p => p.name ∈ ([] : List String).toFinset) = [] := by
    rw [List.filter_eq_nil_iff]
    intro p _ h
    exact List.not_mem_nil (List.mem_toFinset.mp (of_decide_eq_true h))
  rw [violations_in, hnone]
  rfl

theorem is_file_of_read {bundle : FileTree} {name json : String}
    (hread : read_to_string bundle name = some json) : Diff.is_file bundle name = true := by
  obtain ⟨content, hcontent, -⟩ := Option.bind_eq_some_iff.mp hread
  have htext := (Option.filter_eq_some_iff.mp hcontent).1
  rw [FileTree.read_text] at htext
  rw [Diff.is_file]
  rcases hfound : bundle.resolve_text name.toList with _ | _ | _
  · rw [hfound] at htext
    cases htext
  · rfl
  · rw [hfound] at htext
    cases htext

/-- **The recheck agrees** where the checks do. -/
theorem recheck_agrees {parse : String → Option Value} {in_scope : List String}
    {metadata : Metadata} {cached : CargoMetadataProjection} {json : String}
    (hcached : from_projection_json parse json = some cached)
    (hchecks : ChecksAgree in_scope metadata cached) :
    RecheckAgrees parse in_scope metadata json := by
  intro bundle index errors hread hnames
  rw [hchecks.build_rs_sorted, hchecks.proc_macros_sorted, ← hnames]
  by_cases hflags : (!index.boundary_policy.forbid_build_rs &&
      !index.boundary_policy.forbid_proc_macros) = true
  · -- neither rule is claimed
    rw [check_boundary_recheck, if_pos hflags]
    rw [Bool.and_eq_true, Bool.not_eq_true', Bool.not_eq_true'] at hflags
    rw [hflags.1, hflags.2]
    simp only [finding, List.append_nil]
  · by_cases hempty : index.dal_map.values.isEmpty = true
    · -- no crate is in scope
      rw [check_boundary_recheck, if_neg hflags, if_pos hempty]
      rw [List.isEmpty_iff.mp hempty, List.map_nil, check_build_rs_in_projection_eq,
        check_proc_macros_in_projection_eq, violations_in_nil, violations_in_nil]
      rcases index.boundary_policy.forbid_build_rs with _ | _ <;>
        rcases index.boundary_policy.forbid_proc_macros with _ | _ <;>
        simp only [finding, List.append_nil]
    · rw [check_boundary_recheck, if_neg hflags, if_neg hempty, is_file_of_read hread, hread]
      simp only [Bool.not_true, Bool.false_eq_true, if_false, hcached]
      rw [append_finding _ _ fun v => .BoundaryVerifyForbiddenBuildRs (fmt_build_rs v),
        append_finding _ _ fun v => .BoundaryVerifyForbiddenProcMacro ( fmt_proc_macro v)]

/-- **The replay of the boundary rules agrees with their check when the bundle was generated**:
the projection that was written is read back, the checks of build scripts and of procedural
macros on it find what they found on cargo's metadata, under the names as they were listed or
sorted, and the recheck reports it. -/
theorem boundary_replay_agrees {parse : String → Option Value} {json : String}
    {metadata : Metadata} {projection : CargoMetadataProjection}
    (hmetadata : metadata_from_str parse json = some metadata)
    (hprojection : from_raw_metadata_str parse json = some projection)
    (hround : parse (to_canonical_json projection) = some (projection_value projection)) :
    ∃ cached, from_projection_json parse (to_canonical_json projection) = some cached ∧
      ∀ in_scope, ChecksAgree in_scope metadata cached ∧
        RecheckAgrees parse in_scope metadata (to_canonical_json projection) := by
  have hcached : from_projection_json parse (to_canonical_json projection) = some projection := by
    rw [from_projection_json, hround, Option.bind_some, from_projection_value]
  refine ⟨projection, hcached, fun in_scope => ?_⟩
  have hchecks := checks_agree (packages_perm hmetadata hprojection) in_scope
  exact ⟨hchecks, recheck_agrees hcached hchecks⟩

/-! ## A crate with a build script -/

/-- Cargo's output for one crate, which has a build script and links a library. -/
def app_output : Value :=
  .object
    [("packages", .array
        [.object
          [("name", .string "app"), ("version", .string "0.1.0"), ("id", .string "path#app@0.1.0"),
            ("links", .string "z"), ("targets", .array
              [.object [("kind", .array [.string "bin"])],
                .object [("kind", .array [.string "custom-build"])]])]]),
      ("workspace_members", .array [.string "path#app@0.1.0"]),
      ("resolve", .object
        [("nodes", .array
          [.object [("id", .string "path#app@0.1.0"), ("deps", .array [])]])])]

/-- The metadata the checks read of it. -/
def app_metadata : Metadata where
  packages := [⟨"app", "path#app@0.1.0", [⟨["bin"]⟩, ⟨["custom-build"]⟩], some "z"⟩]
  workspace_members := ["path#app@0.1.0"]
  resolve := ⟨[⟨"path#app@0.1.0", []⟩]⟩

def app_projection : CargoMetadataProjection where
  packages := [⟨"app", [⟨["bin"]⟩, ⟨["custom-build"]⟩], some "z"⟩]
  dependencies := Store.empty.put ("app 0.1.0", ∅)

/-- The reader, on the text of either. -/
def app_parse (text : String) : Option Value :=
  if text = Json.to_string_pretty app_output then some app_output
  else if text = to_canonical_json app_projection then some (projection_value app_projection)
  else none

theorem boundary_replay_agrees_app :
    ∃ cached, from_projection_json app_parse (to_canonical_json app_projection) = some cached ∧
      ∀ in_scope, ChecksAgree in_scope app_metadata cached ∧
        RecheckAgrees app_parse in_scope app_metadata (to_canonical_json app_projection) := by
  have hparse : app_parse (Json.to_string_pretty app_output) = some app_output := if_pos rfl
  have hdistinct : to_canonical_json app_projection ≠ Json.to_string_pretty app_output := by
    decide +kernel
  refine @boundary_replay_agrees app_parse (Json.to_string_pretty app_output) _ _ ?_ ?_ ?_
  · rw [metadata_from_str, hparse]
    rfl
  · rw [from_raw_metadata_str, hparse]
    rfl
  · rw [app_parse, if_neg hdistinct, if_pos rfl]

end Evidence.BoundaryCheck
