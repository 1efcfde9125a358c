/-
`diff.rs` -- a bundle compared with itself, and what exchanging the sides of a comparison does.

What is read twice is the same twice, and every category but the digest planes finds no change
between a value and itself: it is equal, or unverifiable where there is nothing to
compare. In a digest plane a malformed digest is a line, so a bundle that has one is reported
to have changed against itself (`comparison_symmetric_iff`).
-/
import Evidence.Diff.Exchange

set_option autoImplicit false

namespace Evidence.Diff

open Std Sorting Check Evidence.Bundle
open Verify (ReproductionJson DigestMap digest_of IsDigest compare_recipe_fields diff_digest_planes)

/-! ## Standing still -/

/-- A status that reports no change. -/
def Still (status : DiffCategoryStatus) : Prop :=
  status ≠ .Changed ∧ status ≠ .Added ∧ status ≠ .Removed

/-- A result, where there is one, reports no change. -/
def StandsStill (x : Except DiffError CategoryDiff) : Prop := ∀ d, x = .ok d → Still d.status

theorem unverifiable_still (category reason : String) :
    Still (unverifiable category reason).status := by
  refine ⟨?_, ?_, ?_⟩ <;> simp [unverifiable]

theorem StandsStill.ok {d : CategoryDiff} (h : Still d.status) : StandsStill (.ok d) := by
  intro d' hd
  rwa [← Except.ok.inj hd]

theorem StandsStill.twice {α : Type} {x : Except DiffError α}
    {compare : α → α → Except DiffError CategoryDiff} (h : ∀ a, StandsStill (compare a a)) :
    StandsStill (x >>= fun a => x >>= fun b => compare a b) := by
  intro d hd
  obtain ⟨a, ha, hd⟩ := bind_ok_iff.mp hd
  obtain ⟨b, hb, hd⟩ := bind_ok_iff.mp hd
  rw [ha, Except.ok.injEq] at hb
  subst hb
  exact h a d hd

theorem report_still_iff {f : Findings} {category : String} :
    Still (f.report category).status ↔ f.changed = false := by
  have hreport := @Findings.report_status f category
  constructor
  · intro hstill
    by_contra hchanged
    rw [Bool.not_eq_false] at hchanged
    refine hstill.1 ?_
    simp [Findings.report, status_of, hchanged]
  · intro hchanged
    refine ⟨?_, hreport.1, hreport.2⟩
    simp only [Findings.report, status_of, hchanged, Bool.false_eq_true, if_false]
    split <;> simp

theorem differences_nil_changed {details : List String} (h : details = []) :
    (Findings.differences details).changed = false := by
  rw [h]
  rfl

theorem key_lines_self {κ ν : Type} [Ord κ] [TransOrd κ] [LawfulEqOrd κ] [DecidableEq κ]
    {key : ν → κ} {map : Store key} {line : κ → Option ν → Option ν → List String}
    (h : ∀ k x, line k x x = []) :
    ((key_set map map).flatMap fun k => line k (map.get k) (map.get k)) = [] :=
  List.flatMap_eq_nil_iff.mpr fun k _ => h k _

theorem log_findings_self (file : String) (log : Bool) :
    (log_findings file log log).changed = false :=
  (log_findings_silent.mpr rfl).1

section Indexes

variable [DiffJson]

theorem field_changes_self (label : String → String) (read : String → ReproductionJson.Value)
    (fields : List String) : field_changes label read read fields = [] :=
  field_changes_eq_nil_iff.mpr fun _ _ => rfl

theorem compare_indexes_still {side : IndexedSide} {category : String}
    {findings : Index → Index → Findings} (h : ∀ i, (findings i i).changed = false) :
    Still (compare_indexes side side category findings).status := by
  unfold compare_indexes require_indexes
  cases side.index with
  | Ok i => exact report_still_iff.mpr (h i)
  | Missing => exact unverifiable_still _ _
  | Unparseable => exact unverifiable_still _ _

/-! ## The categories -/

theorem scope_still (side : IndexedSide) : Still (scope side side).status := by
  refine compare_indexes_still fun i => differences_nil_changed ?_
  have hdal : ∀ krate la, dal_line krate la la = [] := by
    intro krate la
    cases la with
    | none => rfl
    | some la => exact if_neg fun hne => hne rfl
  rw [scope_lines, field_changes_self, field_changes_self, key_lines_self hdal]
  rfl

theorem recipe_still (root : FileTree) : StandsStill (recipe root root) := by
  refine .twice fun r => ?_
  cases r with
  | none => exact .ok (unverifiable_still _ _)
  | some r =>
    refine .ok (report_still_iff.mpr (differences_nil_changed ?_))
    have hnone : compare_recipe_fields r r = [] := by
      unfold compare_recipe_fields
      rw [List.map_eq_nil_iff, List.filter_eq_nil_iff]
      intro field _
      simp
    rw [hnone]
    rfl

theorem digest_plane_still_iff {root : FileTree} {category : String} {diff : CategoryDiff}
    (h : digest_plane root root category = .ok diff) :
    Still diff.status ↔ ∀ map, PlaneLoaded root category map →
      ∀ path d, digest_of map path = some d → IsDigest d := by
  rcases digest_plane_ok h with ⟨ma, mb, hma, hmb, rfl⟩ | ⟨hnone, hstatus⟩
  · rw [← hma.unique hmb, report_still_iff, ← Bool.not_eq_true, Findings.differences_changed,
      not_not, plane_lines_eq_nil_iff]
    constructor
    · intro hall map hmap path d hd
      rw [← hma.unique hmap] at hd
      exact (hall path).2 d hd
    · intro hall path
      exact ⟨rfl, hall ma hma path⟩
  · refine iff_of_true ?_ fun map hmap => absurd hmap (hnone map map hmap)
    rw [hstatus]
    refine ⟨?_, ?_, ?_⟩ <;> simp

theorem coverage_still (root : FileTree) : StandsStill (coverage root root) := by
  have hlevel : ∀ level m, level_lines level m m = [] := by
    intro level m
    cases m with
    | none => rfl
    | some m =>
      have hbranch : branch_lines (level_label level) (aggregate_branches m)
          (aggregate_branches m) = [] := by
        cases aggregate_branches m <;> simp [branch_lines]
      simp [level_lines, hbranch]
  have hfindings : ∀ r, (coverage_findings r r).changed = false := by
    intro r
    cases r with
    | Ok c =>
      refine differences_nil_changed (List.flatMap_eq_nil_iff.mpr fun level _ => ?_)
      exact hlevel level _
    | Missing => rfl
    | Unparseable => rfl
  unfold coverage
  refine .twice fun r => .ok ?_
  have hchanged : ((coverage_findings r r).add (log_findings "coverage/lcov.info"
      (is_file root "coverage/lcov.info") (is_file root "coverage/lcov.info"))).changed =
        false := by
    rw [Findings.add, hfindings, log_findings_self]
    rfl
  unfold coverage_report
  rw [hchanged]
  dsimp only
  split <;> exact ⟨by simp [status_of], by simp [status_of], by simp [status_of]⟩

theorem commands_still (root : FileTree) : StandsStill (commands root root) := by
  have hrow : ∀ i row, row_changes root root i row row = [] := by
    intro i row
    simp [row_changes]
  have hlines : ∀ rows, command_lines root root rows rows = [] := by
    intro rows
    have hsame : ∀ row ∈ (rows.zip rows).zipIdx.take (min rows.length rows.length),
        row.1.1 = row.1.2 := by
      intro row hmem
      have hzip := List.fst_mem_of_mem_zipIdx (List.mem_of_mem_take hmem)
      rw [List.zip, List.zipWith_self, List.mem_map] at hzip
      obtain ⟨record, -, hrecord⟩ := hzip
      rw [← hrecord]
    have hdrop : rows.zipIdx.drop (min rows.length rows.length) = [] := by
      rw [Nat.min_self, List.drop_eq_nil_iff, List.length_zipIdx]
    rw [command_lines, hdrop, List.map_nil, List.append_nil, List.map_nil, List.append_nil,
      List.flatMap_eq_nil_iff]
    intro row hmem
    rw [hsame row hmem]
    exact hrow _ _
  refine .twice fun c => ?_
  cases c with
  | Ok rows => exact .ok (report_still_iff.mpr (differences_nil_changed (hlines rows)))
  | Missing => exact .ok (unverifiable_still _ _)
  | Unparseable => exact .ok (unverifiable_still _ _)

theorem compare_report_self (name : String) (v : ReproductionJson.Value) :
    compare_report name v v = [] := by
  have hline : ∀ id s, objective_line (crate_of name) id s s = [] := by
    intro id s
    cases s with
    | none => rfl
    | some s => exact if_neg fun hne => hne rfl
  rw [compare_report, field_changes_self, key_lines_self hline]
  simp

theorem objective_mappings_still [ReadDir] (side : IndexedSide) :
    StandsStill (objective_mappings side side) := by
  refine .twice fun reports => .ok ?_
  unfold compare_mappings
  cases hempty : reports.is_empty with
  | true =>
    cases hdal : dal_empty side with
    | true =>
      refine ⟨?_, ?_, ?_⟩ <;> simp
    | false => exact unverifiable_still _ _
  | false =>
    refine report_still_iff.mpr ?_
    rw [← Bool.not_eq_true, mapping_findings_changed]
    rintro ⟨name, hshows⟩
    -- A report shows no difference from itself.
    have hself : ∀ listed, ¬ ReportShows listed listed := by
      intro listed
      rw [← @report_findings_changed _ name]
      rcases listed with _ | (v | _ | _)
      · simp [report_findings]
      · simp [report_findings, compare_report_self]
      · simp [report_findings]
      · simp [report_findings]
    exact hself _ hshows

section Failures

attribute [local instance] failure_key_ord

theorem anomalies_still (side : IndexedSide) : Still (anomalies side side).status := by
  refine compare_indexes_still fun i => differences_nil_changed (key_lines_self fun key t => ?_)
  cases t with
  | none => rfl
  | some t => exact if_neg fun hne => hne rfl

end Failures

theorem tool_identity_still [ReadDir] (side : IndexedSide) :
    StandsStill (tool_identity side side) := by
  unfold tool_identity require_indexes
  cases side.index with
  | Ok i =>
    intro d hd
    simp only [bind_ok_iff, Except.ok.injEq] at hd
    obtain ⟨env, henv, env', henv', r, hr, r', hr', rfl⟩ := hd
    rw [henv, Except.ok.injEq] at henv'
    rw [hr, Except.ok.injEq] at hr'
    subst henv' hr'
    have henvs : (env_findings env env).changed = false := by
      cases env with
      | Ok e => exact differences_nil_changed (field_changes_self _ _ _)
      | Missing => rfl
      | Unparseable => rfl
    have hpacks : (pack_findings r r).changed = false :=
      differences_nil_changed (if_neg fun hne => hne rfl)
    refine report_still_iff.mpr ?_
    simp only [Findings.add, henvs, hpacks, differences_nil_changed (field_changes_self _ _ _),
      Bool.or_self]
  | Missing => exact .ok (unverifiable_still _ _)
  | Unparseable => exact .ok (unverifiable_still _ _)

theorem completeness_states_still (side : IndexedSide) :
    Still (completeness_states side side).status :=
  compare_indexes_still fun _ => differences_nil_changed (field_changes_self _ _ _)

theorem content_hash_still (side : IndexedSide) : Still (content_hash side side).status :=
  compare_indexes_still fun _ => differences_nil_changed (if_pos rfl)

end Indexes

theorem trace_graph_still [TomlJson] (root : FileTree) : StandsStill (trace_graph root root) := by
  have hentries : ∀ file e, (entry_findings file e e).changed = false := by
    intro file e
    cases e with
    | Ok map =>
      refine differences_nil_changed (diff_entries_eq_nil_iff.mpr fun key => ?_)
      cases map.get key with
      | none => exact .none
      | some entry => exact .some (by simp)
    | Missing => rfl
    | Unparseable => rfl
  unfold trace_graph
  cases is_dir root "trace" with
  | false => exact .ok (unverifiable_still _ _)
  | true =>
    intro d hd
    obtain ⟨findings, hfindings, hd⟩ := bind_ok_iff.mp hd
    rw [← Except.ok.inj hd, report_still_iff, ← Bool.not_eq_true, Findings.foldr_add_changed]
    rintro (⟨f, hf, hchanged⟩ | hmatrix)
    · obtain ⟨file, -, hfile⟩ := Collect.exists_of_mem_right (mapM_ok_iff.mp hfindings) hf
      simp only [file_findings, bind_ok_iff, Except.ok.injEq] at hfile
      obtain ⟨ea, hea, eb, heb, rfl⟩ := hfile
      rw [hea, Except.ok.injEq] at heb
      rw [← heb, hentries] at hchanged
      cases hchanged
    · rw [(matrix_findings_silent.mpr rfl).1] at hmatrix
      cases hmatrix

theorem tests_still [SerdeJson] (side : Side) : StandsStill (tests side side) := by
  refine .twice fun t => .ok ?_
  have hsummary : (summary_findings t.summary t.summary).changed = false :=
    (summary_findings_silent.mpr rfl).1
  have houtcomes : (outcome_findings t.outcomes t.outcomes).changed = false := by
    cases t.outcomes with
    | Ok rows =>
      refine differences_nil_changed (diff_entries_eq_nil_iff.mpr fun key => ?_)
      cases (Store.ofList rows : Outcomes).get key with
      | none => exact .none
      | some row => exact .some (by simp [outcome_differs])
    | Missing => rfl
    | Unparseable => rfl
  unfold compare_tests
  cases t.has_data with
  | false => exact ⟨by simp, by simp, by simp⟩
  | true =>
    refine report_still_iff.mpr ?_
    simp only [test_findings, Findings.add, hsummary, houtcomes, log_findings_self, Bool.or_self]

theorem integrity_still (root : FileTree) : Still (integrity root root).status := by
  have hnone : (integrity root root).details = [] := by
    rw [integrity_details]
    simp [presence_lines]
  have hstatus : (integrity root root).status =
      if (integrity root root).details.isEmpty then .Equal else .Changed := rfl
  rw [hstatus, hnone]
  exact ⟨by simp, by simp, by simp⟩

/-! ## The report -/

section Whole

variable [DiffJson] [ReadDir] [TomlJson]

omit [DiffJson] [ReadDir] [TomlJson] in
theorem named_plain_still_iff {compare : FileTree → FileTree → Except DiffError CategoryDiff}
    {name : String} {a b : FileTree} :
    StandsStill ((Category.plain compare).named name a b) ↔ StandsStill (compare a b) := by
  constructor
  · intro h d hd
    refine h ⟨name, d.status, d.details⟩ ?_
    simp only [Category.named, Category.plain, bind_ok_iff, Except.ok.injEq]
    exact ⟨_, ⟨d, hd, rfl⟩, rfl⟩
  · intro h d hd
    obtain ⟨given, hgiven, hstatus⟩ := named_plain_ok hd
    rw [hstatus]
    exact h given hgiven

omit [ReadDir] [TomlJson] in
theorem named_indexed_still {compare : IndexedSide → IndexedSide → Except DiffError CategoryDiff}
    {name : String} {root : FileTree} (h : ∀ side, StandsStill (compare side side)) :
    StandsStill ((Category.indexed compare).named name root root) := by
  intro d hd
  obtain ⟨side_a, side_b, given, ha, hb, hgiven, hstatus⟩ := named_indexed_ok hd
  rw [ha, Except.ok.injEq] at hb
  subst hb
  rw [hstatus]
  exact h side_a given hgiven

/-- No digest in the planes of a bundle is malformed. -/
def DigestsWellFormed (root : FileTree) : Prop :=
  ∀ category ∈ ["inputs", "outputs"], ∀ map, PlaneLoaded root category map →
    ∀ path d, digest_of map path = some d → IsDigest d

omit [ReadDir] [TomlJson] in
theorem named_plane_still_iff {root : FileTree} {name : String} {diff : CategoryDiff}
    (h : (Category.plain fun a b => digest_plane a b name).named name root root = .ok diff) :
    StandsStill ((Category.plain fun a b => digest_plane a b name).named name root root) ↔
      ∀ map, PlaneLoaded root name map → ∀ path d, digest_of map path = some d → IsDigest d := by
  obtain ⟨given, hgiven, -⟩ := named_plain_ok h
  rw [named_plain_still_iff, ← digest_plane_still_iff hgiven]
  constructor
  · intro hstill
    exact hstill given hgiven
  · intro hstill d hd
    rw [hgiven, Except.ok.injEq] at hd
    rwa [← hd]

/-- **Against itself a bundle has not changed** exactly when no digest of it is malformed. -/
theorem self_comparison_still_iff {root : FileTree} {report : List CategoryDiff}
    (h : compare_bundles bundle_categories (some root) (some root) = .ok report) :
    (∀ diff ∈ report, Still diff.status) ↔ DigestsWellFormed root := by
  simp only [compare_bundles, bind_ok_iff, Except.ok.injEq] at h
  obtain ⟨side, hside, side', hside', out, hout, rfl⟩ := h
  rw [hside, Except.ok.injEq] at hside'
  subst hside'
  obtain ⟨index, -, hindex⟩ := bind_ok_iff.mp hside
  have hroot : side.root = root := by rw [← Except.ok.inj hindex]
  have hall := mapM_ok_iff.mp hout
  have hentries : (∀ diff ∈ out.map finish, Still diff.status) ↔
      ∀ entry ∈ categories bundle_categories side side, StandsStill entry := by
    rw [List.forall_mem_map]
    constructor
    · intro hstill entry hentry d hd
      obtain ⟨given, hgiven, hok⟩ := Collect.exists_of_mem_left hall hentry
      rw [id_eq, hd, Except.ok.injEq] at hok
      rw [hok]
      exact hstill given hgiven
    · intro hstill d hd
      obtain ⟨entry, hentry, hok⟩ := Collect.exists_of_mem_right hall hd
      exact hstill entry hentry d hok
  -- The planes were read, so each of them stands still or not by its digests.
  have hplane : ∀ name, (Category.plain fun a b => digest_plane a b name).named name root root ∈
      categories bundle_categories side side →
        (StandsStill ((Category.plain fun a b => digest_plane a b name).named name root root) ↔
          ∀ map, PlaneLoaded root name map → ∀ path d, digest_of map path = some d →
            IsDigest d) := by
    intro name hmem
    obtain ⟨given, -, hok⟩ := Collect.exists_of_mem_left hall hmem
    exact named_plane_still_iff hok
  have hinputs := hplane "inputs" (by simp [categories, bundle_categories, hroot])
  have houtputs := hplane "outputs" (by simp [categories, bundle_categories, hroot])
  have hindexed : ∀ {compare : IndexedSide → IndexedSide → CategoryDiff} {name : String},
      (∀ side, Still (compare side side).status) →
        StandsStill ((Category.indexed fun a b => .ok (compare a b)).named name root root) :=
    fun h => named_indexed_still fun side => .ok (h side)
  have hreviews : StandsStill (.ok reviews_approvals) := .ok (unverifiable_still _ _)
  rw [hentries, categories]
  simp only [List.forall_mem_cons, hroot, bundle_categories, hindexed scope_still,
    trace_graph_still root, tests_still side, named_plain_still_iff.mpr (coverage_still root),
    named_plain_still_iff.mpr (commands_still root), named_plain_still_iff.mpr (recipe_still root),
    named_indexed_still objective_mappings_still, hreviews, hindexed anomalies_still,
    named_indexed_still tool_identity_still, StandsStill.ok (integrity_still root),
    hindexed completeness_states_still, hindexed content_hash_still, hinputs, houtputs,
    true_and, List.not_mem_nil, IsEmpty.forall_iff, implies_true, and_true]
  simp only [DigestsWellFormed, List.forall_mem_cons, List.not_mem_nil, IsEmpty.forall_iff,
    implies_true, and_true]

/-- **A comparison is symmetric and a bundle unchanged against itself** exactly when no digest of
the bundle is malformed; symmetric it is in any case. -/
theorem comparison_symmetric_iff {a b : FileTree} {report self : List CategoryDiff}
    (h : compare_bundles bundle_categories (some a) (some b) = .ok report)
    (hself : compare_bundles bundle_categories (some a) (some a) = .ok self) :
    ((∃ exchanged, compare_bundles bundle_categories (some b) (some a) = .ok exchanged ∧
        List.Forall₂ Exchanged report exchanged) ∧ ∀ diff ∈ self, Still diff.status) ↔
      DigestsWellFormed a := by
  rw [self_comparison_still_iff hself]
  exact and_iff_right (compare_bundles_exchange h)

end Whole

section Malformed

attribute [local instance] malformed_json no_listing system_toml

/-- A bundle with a malformed digest against an empty one, and against itself. -/
theorem comparison_symmetric_malformed : ∃ report self,
    compare_bundles bundle_categories (some malformed_inputs) (some without_system) = .ok report ∧
      compare_bundles bundle_categories (some malformed_inputs) (some malformed_inputs) =
        .ok self ∧
      (((∃ exchanged, compare_bundles bundle_categories (some without_system)
          (some malformed_inputs) = .ok exchanged ∧ List.Forall₂ Exchanged report exchanged) ∧
        ∀ diff ∈ self, Still diff.status) ↔ DigestsWellFormed malformed_inputs) := by
  have hcompared : (compare_bundles bundle_categories (some malformed_inputs)
      (some without_system)).toOption.map List.length = some 15 := by
    decide +kernel
  obtain ⟨report, hreport, -⟩ := ok_of_view hcompared
  obtain ⟨self, hself, -⟩ := malformed_compared
  exact ⟨report, self, hreport, hself, comparison_symmetric_iff hreport hself⟩

/-- **A bundle has changed against itself** where one of its digests is malformed. -/
theorem malformed_digest_changed_against_itself : ∃ self,
    compare_bundles bundle_categories (some malformed_inputs) (some malformed_inputs) = .ok self ∧
      ¬ ∀ diff ∈ self, Still diff.status := by
  obtain ⟨self, hself, hstatus⟩ := malformed_compared
  refine ⟨self, hself, fun hstill => ?_⟩
  have hmem : DiffCategoryStatus.Changed ∈ (self.filter fun diff =>
      diff.category = "inputs").map CategoryDiff.status := by
    rw [hstatus]
    exact List.mem_singleton_self _
  obtain ⟨diff, hdiff, hchanged⟩ := List.mem_map.mp hmem
  exact (hstill diff (List.mem_filter.mp hdiff).1).1 hchanged

end Malformed

end Evidence.Diff
