/-
`diff.rs` -- the comparison of two bundles, category by category.

Two verdicts are looked at: what the comparison says of the tests, and what it says of
the trace graph. Each is sound exactly when what the category does not show is the same
on both sides; the two conditions are read off the categories, and hold of the whole
report because every category is in it once.

The categories that are not modelled are the fields of `OtherCategories`: each gives a
status and its details, or ends the comparison because a file cannot be read.
-/
import Evidence.Diff.TestsCategory
import Evidence.Diff.TraceGraph

set_option autoImplicit false

namespace Evidence.Diff

open Evidence.Bundle

/-! ## The comparison -/

/-- `SHA256SUMS` and the signature, by their presence. -/
def integrity (a b : FileTree) : CategoryDiff :=
  let details := [("signature (BUNDLE.sig)", "BUNDLE.sig"), ("SHA256SUMS", "SHA256SUMS")].filterMap
    fun (label, rel) =>
      if is_file a rel ≠ is_file b rel then
        some ("~ " ++ label ++ ": " ++ presence_label (is_file a rel) ++ " -> " ++
          presence_label (is_file b rel))
      else none
  { category := "integrity"
    status := if details.isEmpty then .Equal else .Changed
    details := details }

def reviews_approvals : CategoryDiff :=
  unverifiable "reviews_approvals" ("reviews/approvals are workspace corpus state, not bundle " ++
    "artifacts (M6 binding); the category cannot be compared from bundle content")

/-- A category that is compared elsewhere. -/
abbrev Category := FileTree → FileTree → Except DiffError (DiffCategoryStatus × List String)

/-- The categories that are not modelled. -/
structure OtherCategories where
  scope : Category
  coverage : Category
  commands : Category
  recipe : Category
  inputs : Category
  outputs : Category
  objective_mappings : Category
  anomalies : Category
  tool_identity : Category
  completeness_states : Category
  content_hash : Category

def Category.named (category : Category) (name : String) (a b : FileTree) :
    Except DiffError CategoryDiff := do
  let (status, details) ← category a b
  .ok { category := name, status, details }

/-- The category names in report order. -/
def CATEGORY_ORDER : List String :=
  ["scope", "trace_graph", "tests", "coverage", "commands", "recipe", "inputs", "outputs",
    "objective_mappings", "reviews_approvals", "anomalies", "tool_identity", "integrity",
    "completeness_states", "content_hash"]

section Compare

variable [SerdeJson] [TomlJson] (others : OtherCategories)

/-- The categories in the order of the report. -/
def categories (a b : Side) : List (Except DiffError CategoryDiff) :=
  [others.scope.named "scope" a.root b.root,
    trace_graph a.root b.root,
    tests a b,
    others.coverage.named "coverage" a.root b.root,
    others.commands.named "commands" a.root b.root,
    others.recipe.named "recipe" a.root b.root,
    others.inputs.named "inputs" a.root b.root,
    others.outputs.named "outputs" a.root b.root,
    others.objective_mappings.named "objective_mappings" a.root b.root,
    .ok reviews_approvals,
    others.anomalies.named "anomalies" a.root b.root,
    others.tool_identity.named "tool_identity" a.root b.root,
    .ok (integrity a.root b.root),
    others.completeness_states.named "completeness_states" a.root b.root,
    others.content_hash.named "content_hash" a.root b.root]

/-- Compare two bundles; `none` is a path that is no directory. -/
def compare_bundles (a b : Option FileTree) : Except DiffError (List CategoryDiff) :=
  match a, b with
  | none, _ => .error .BundleNotFound
  | _, none => .error .BundleNotFound
  | some a, some b => do
    let side_a ← Side.load a
    let side_b ← Side.load b
    let out ← (categories others side_a side_b).mapM id
    .ok (out.map finish)

def Reports (report : List CategoryDiff) (category : String) (status : DiffCategoryStatus) : Prop :=
  ∃ diff ∈ report, diff.category = category ∧ diff.status = status

variable {others}

/-! ## Reading a report -/

omit [SerdeJson] [TomlJson] in
theorem named_category {category : Category} {name : String} {a b : FileTree} {diff : CategoryDiff}
    (h : category.named name a b = .ok diff) : diff.category = name := by
  obtain ⟨verdict, -, hdiff⟩ := Check.bind_ok_iff.mp h
  rw [← Except.ok.inj hdiff]

omit [SerdeJson] in
theorem trace_graph_category {a b : FileTree} {diff : CategoryDiff}
    (h : trace_graph a b = .ok diff) : diff.category = "trace_graph" := by
  unfold trace_graph at h
  split at h
  case h_4 =>
    obtain ⟨findings, -, hdiff⟩ := Check.bind_ok_iff.mp h
    rw [← Except.ok.inj hdiff]
    rfl
  all_goals
    rw [← Except.ok.inj h]
    rfl

omit [TomlJson] in
theorem tests_ok {a b : Side} {diff : CategoryDiff} (h : tests a b = .ok diff) :
    ∃ ta tb, TestSide.load a = .ok ta ∧ TestSide.load b = .ok tb ∧ diff = compare_tests ta tb := by
  simp only [tests, Check.bind_ok_iff, Except.ok.injEq] at h
  obtain ⟨ta, hta, tb, htb, rfl⟩ := h
  exact ⟨ta, tb, hta, htb, rfl⟩

theorem categories_named (a b : Side) : List.Forall₂
    (fun category name => ∀ diff, category = .ok diff → diff.category = name)
    (categories others a b) CATEGORY_ORDER := by
  have hnamed : ∀ (category : Category) (name : String) (diff : CategoryDiff),
      category.named name a.root b.root = .ok diff → diff.category = name :=
    fun _ _ _ => named_category
  have hgiven : ∀ given diff : CategoryDiff,
      (Except.ok given : Except DiffError CategoryDiff) = .ok diff →
        diff.category = given.category := fun _ _ h => by rw [Except.ok.inj h]
  have htests : ∀ diff, tests a b = .ok diff → diff.category = "tests" := by
    intro diff h
    obtain ⟨ta, tb, -, -, rfl⟩ := tests_ok h
    exact compare_tests_category ta tb
  refine .cons (hnamed _ _) (.cons (fun _ => trace_graph_category) (.cons htests ?_))
  refine .cons (hnamed _ _) (.cons (hnamed _ _) (.cons (hnamed _ _) (.cons (hnamed _ _) ?_)))
  refine .cons (hnamed _ _) (.cons (hnamed _ _) (.cons (hgiven _) (.cons (hnamed _ _) ?_)))
  exact .cons (hnamed _ _) (.cons (hgiven _) (.cons (hnamed _ _) (.cons (hnamed _ _) .nil)))

/-- **A report has one entry for every category, in order.** -/
theorem report_names {a b : Side} {out : List CategoryDiff}
    (h : (categories others a b).mapM id = .ok out) :
    (out.map finish).map CategoryDiff.category = CATEGORY_ORDER := by
  have hout := Check.mapM_ok_iff.mp h
  have hnames : List.Forall₂ _ (categories others a b) CATEGORY_ORDER := categories_named a b
  rw [List.map_map]
  clear h
  generalize categories others a b = given at hout hnames
  generalize CATEGORY_ORDER = names at hnames ⊢
  induction hnames generalizing out with
  | nil =>
    rw [List.forall₂_nil_left_iff.mp hout]
    rfl
  | cons hname _ ih =>
    obtain ⟨diff, rest, hdiff, hrest, rfl⟩ := List.forall₂_cons_left_iff.mp hout
    rw [List.map_cons, ih hrest]
    exact congrArg (· :: _) (hname diff hdiff)

theorem reports_iff {a b : Side} {out : List CategoryDiff}
    (h : (categories others a b).mapM id = .ok out) {diff : CategoryDiff}
    (hdiff : .ok diff ∈ categories others a b) (status : DiffCategoryStatus) :
    Reports (out.map finish) diff.category status ↔ diff.status = status := by
  obtain ⟨given, hgiven, heq⟩ := Collect.exists_of_mem_left (Check.mapM_ok_iff.mp h) hdiff
  rw [id_eq, Except.ok.injEq] at heq
  subst heq
  have hmem := List.mem_map_of_mem (f := finish) hgiven
  constructor
  · rintro ⟨said, hsaid, hcategory, rfl⟩
    have hnodup : ((out.map finish).map CategoryDiff.category).Nodup := by
      rw [report_names h]
      decide
    rw [List.inj_on_of_nodup_map hnodup hsaid hmem hcategory, finish_status]
  · intro hstatus
    exact ⟨finish diff, hmem, finish_category diff, hstatus⟩

/-- **What a report says of the tests and of the trace graph is what these say.** -/
theorem compare_bundles_ok {a b : FileTree} {report : List CategoryDiff}
    (h : compare_bundles others (some a) (some b) = .ok report) :
    ∃ A B graph, TestEvidence.read a = .ok A ∧ TestEvidence.read b = .ok B ∧
      trace_graph a b = .ok graph ∧
      (∀ status, Reports report "tests" status ↔ (compare_tests A.side B.side).status = status) ∧
      (∀ status, Reports report "trace_graph" status ↔ graph.status = status) := by
  simp only [compare_bundles, Check.bind_ok_iff, Except.ok.injEq] at h
  obtain ⟨side_a, hside_a, side_b, hside_b, out, hout, rfl⟩ := h
  obtain ⟨index_a, -, hroot_a⟩ := Check.bind_ok_iff.mp hside_a
  obtain ⟨index_b, -, hroot_b⟩ := Check.bind_ok_iff.mp hside_b
  have hall := Check.mapM_ok_iff.mp hout
  -- The two categories looked at are the second and the third.
  obtain ⟨graph, -, hgraph⟩ := Collect.exists_of_mem_left hall
    (List.mem_cons_of_mem _ List.mem_cons_self)
  obtain ⟨diff, -, hdiff⟩ := Collect.exists_of_mem_left hall
    (List.mem_cons_of_mem _ (List.mem_cons_of_mem _ List.mem_cons_self))
  obtain ⟨ta, tb, hta, htb, rfl⟩ := tests_ok hdiff
  refine ⟨⟨side_a.index, ta⟩, ⟨side_b.index, tb⟩, graph, ?_, ?_, ?_, fun status => ?_,
    fun status => ?_⟩
  · exact Check.bind_ok_iff.mpr ⟨side_a, hside_a, Check.bind_ok_iff.mpr ⟨ta, hta, rfl⟩⟩
  · exact Check.bind_ok_iff.mpr ⟨side_b, hside_b, Check.bind_ok_iff.mpr ⟨tb, htb, rfl⟩⟩
  · rw [← Except.ok.inj hroot_a, ← Except.ok.inj hroot_b] at hgraph
    exact hgraph
  · rw [← compare_tests_category ta tb]
    refine reports_iff hout ?_ status
    rw [← hdiff]
    exact List.mem_cons_of_mem _ (List.mem_cons_of_mem _ List.mem_cons_self)
  · rw [← trace_graph_category hgraph]
    refine reports_iff hout ?_ status
    rw [← hgraph]
    exact List.mem_cons_of_mem _ List.mem_cons_self

end Compare

/-! ## Small bundles -/

/-- A path below the root. -/
def path_of (names : List String) : RelPath := names.map fun name => os_name name.toList

/-- A bundle without an index whose only file is the one under a directory. -/
def one_file_bundle (dir file : String) (content : List UInt8)
    (hdir : IsName (os_name dir.toList)) (hfile : IsName (os_name file.toList)) : FileTree where
  entries := [(path_of [dir], .Dir), (path_of [dir, file], .File content)]
  outside := fun _ => none
  nodup := by simp [path_of]
  named := by simp [path_of, hdir, hfile]
  parents := by simp [path_of]

/-- A bundle of a directory without files. -/
def empty_dir (dir : String) (hdir : IsName (os_name dir.toList)) : FileTree where
  entries := [(path_of [dir], .Dir)]
  outside := fun _ => none
  nodup := by simp
  named := by simp [path_of, hdir]
  parents := by simp [path_of]

/-- Parsers that accept nothing. -/
@[reducible] def rejecting : SerdeJson where
  index_from_slice := fun _ => none
  outcome_from_str := fun _ => none

/-- The text of a trace file of one system requirement. -/
def system_text : String := "[[requirements]]\nid = \"SYS-1\"\n"

def system_entry : Toml.Value := .table [("id", .str "SYS-1")]

@[reducible] def system_toml : TomlJson where
  from_str := fun text =>
    if text = system_text then some (.table [("requirements", .array [system_entry])]) else none
  Json := String
  json_eq := inferInstance
  null := "null"
  to_value := Toml.Value.as_str

/-- What the other categories say of two bundles that hold neither an index nor any artifact
of theirs. -/
def bare_categories : OtherCategories :=
  let unindexed : Category := fun _ _ =>
    .ok (.Unverifiable, ["! index.json missing in bundle A and missing in bundle B"])
  { scope := unindexed
    coverage := fun _ _ => .ok (.Equal, ["no coverage data on either side"])
    commands := fun _ _ => .ok (.Unverifiable, ["! commands.json missing in both bundles"])
    recipe := fun _ _ => .ok (.Unverifiable,
      ["! deterministic-manifest.json missing or unparseable in both bundles"])
    inputs := fun _ _ => .ok (.Unverifiable,
      ["! inputs_hashes.json missing or unparseable in both bundles"])
    outputs := fun _ _ => .ok (.Unverifiable,
      ["! outputs_hashes.json missing or unparseable in both bundles"])
    objective_mappings := fun _ _ => .ok (.Unverifiable,
      ["! compliance/ absent or empty in both bundles"])
    anomalies := unindexed
    tool_identity := unindexed
    completeness_states := unindexed
    content_hash := unindexed }

/-! ## The tests -/

section Tests

variable [SerdeJson] [TomlJson] {others : OtherCategories}

/-- **What a report says of the tests is sound exactly when their differences are told.** -/
theorem compare_bundles_tests_sound_iff {a b : FileTree} {report : List CategoryDiff}
    (h : compare_bundles others (some a) (some b) = .ok report) :
    ∃ A B, TestEvidence.read a = .ok A ∧ TestEvidence.read b = .ok B ∧
      (VerdictSound A B (Reports report "tests") ↔ Told A B) := by
  obtain ⟨A, B, -, hA, hB, -, htests, -⟩ := compare_bundles_ok h
  have hverdict : Reports report "tests" = ((compare_tests A.side B.side).status = ·) :=
    funext fun status => propext (htests status)
  refine ⟨A, B, hA, hB, ?_⟩
  rw [hverdict]
  exact verdict_sound_iff

end Tests

/-- A bundle whose outcome file breaks off in its first row. -/
def cut_outcomes : FileTree :=
  one_file_bundle "tests" "test_outcomes.jsonl" [123] (by decide) (by decide)

/-- A bundle whose only evidence is a captured log. -/
def logged : FileTree :=
  one_file_bundle "tests" "cargo_test_stdout.txt" [] (by decide) (by decide)

/-- What a report says of two bundles with the same log is sound as far as it is told. -/
theorem compare_bundles_tests_sound_logged :
    ∃ report A B, @compare_bundles rejecting system_toml bare_categories (some logged)
        (some logged) = .ok report ∧
      @TestEvidence.read rejecting logged = .ok A ∧ @TestEvidence.read rejecting logged = .ok B ∧
      (VerdictSound A B (Reports report "tests") ↔ Told A B) := by
  obtain ⟨A, B, hA, hB, hiff⟩ :=
    @compare_bundles_tests_sound_iff rejecting system_toml bare_categories logged logged _ rfl
  exact ⟨_, A, B, rfl, hA, hB, hiff⟩

/-- **An outcome file that does not parse is no evidence**: against a bundle without any it is
reported equal. -/
theorem compare_bundles_tests_conceal :
    ∃ report A B, @compare_bundles rejecting system_toml bare_categories (some cut_outcomes)
        (some (empty_dir "tests" (by decide))) = .ok report ∧
      @TestEvidence.read rejecting cut_outcomes = .ok A ∧
      @TestEvidence.read rejecting (empty_dir "tests" (by decide)) = .ok B ∧
      ¬ VerdictSound A B (Reports report "tests") := by
  refine ⟨_, ⟨.Missing, ⟨none, .Unparseable, false, false⟩⟩,
    ⟨.Missing, ⟨none, .Missing, false, false⟩⟩, rfl, by decide +kernel, by decide +kernel, ?_⟩
  intro hsound
  refine (hsound.equal ⟨_, List.mem_cons_of_mem _ (List.mem_cons_of_mem _ List.mem_cons_self),
    ?_, ?_⟩).outcomes_a rfl
  · decide +kernel
  · decide +kernel

/-! ## The trace graph -/

section Traces

variable [SerdeJson] [TomlJson] {others : OtherCategories}

/-- **That a report says the trace graphs are equal is sound exactly when bundles that show the
same have the same behind it.** -/
theorem compare_bundles_traces_sound_iff {a b : FileTree} {report : List CategoryDiff}
    (h : compare_bundles others (some a) (some b) = .ok report) :
    (Reports report "trace_graph" .Equal → SameTraces a b) ↔
      (TracesShowAlike a b → SameBehind a b) := by
  obtain ⟨-, -, graph, -, -, hgraph, -, htraces⟩ := compare_bundles_ok h
  rw [htraces, trace_graph_equal_iff hgraph]
  constructor
  · intro hsame halike
    exact (same_traces_iff halike).mp (hsame halike)
  · intro hbehind halike
    exact (same_traces_iff halike).mpr (hbehind halike)

end Traces

/-- A bundle whose only trace file is that of the system requirements. -/
def with_system : FileTree :=
  one_file_bundle "trace" "sys.toml" (str_bytes system_text) (by decide) (by decide)

def without_system : FileTree := empty_dir "trace" (by decide)

/-- That a report says a bundle has the trace graph of itself is sound. -/
theorem compare_bundles_traces_sound_self :
    ∃ report, @compare_bundles rejecting system_toml bare_categories (some with_system)
        (some with_system) = .ok report ∧
      ((Reports report "trace_graph" .Equal → @SameTraces system_toml with_system with_system) ↔
        (@TracesShowAlike system_toml with_system with_system →
          @SameBehind system_toml with_system with_system)) :=
  ⟨_, rfl, @compare_bundles_traces_sound_iff rejecting system_toml bare_categories with_system
    with_system _ rfl⟩

theorem system_entries : @entries_at system_toml with_system "sys.toml" = some [system_entry] := by
  have hbytes : read_bytes with_system (trace_path "sys.toml") = some (str_bytes system_text) := by
    decide +kernel
  have hread : read_to_string with_system (trace_path "sys.toml") = some system_text := by
    rw [read_to_string, hbytes]
    exact from_utf8_str_bytes system_text
  have hexists : with_system.exists_text (trace_path "sys.toml").toList = true := by decide +kernel
  simp only [entries_at, read_trace_value, load, hexists, hread, Bool.not_true, Bool.false_eq_true,
    if_false]
  rfl

/-- **The system requirements are in no verdict**: a bundle that has some and one that has none
are reported to have equal trace graphs. -/
theorem compare_bundles_traces_conceal :
    ∃ report, @compare_bundles rejecting system_toml bare_categories (some with_system)
        (some without_system) = .ok report ∧
      ¬ (Reports report "trace_graph" .Equal →
        @SameTraces system_toml with_system without_system) := by
  refine ⟨_, rfl, fun hsound => ?_⟩
  have hequal := hsound ⟨_, List.mem_cons_of_mem _ List.mem_cons_self, by decide +kernel,
    by decide +kernel⟩
  have hfile : IsTraceFile with_system without_system "sys.toml" := by
    refine ⟨by decide +kernel, by decide +kernel, .inl ?_⟩
    decide +kernel
  obtain ⟨ea, eb, hea, heb, hperm⟩ :=
    @SameTraces.entries system_toml _ _ hequal "sys.toml" hfile
  have hnone : @entries_at system_toml without_system "sys.toml" = some [] := rfl
  rw [system_entries, Option.some.injEq] at hea
  rw [hnone, Option.some.injEq] at heb
  rw [← hea, ← heb] at hperm
  exact absurd hperm.length_eq (by decide)

end Evidence.Diff
