/-
`trace/matrix.rs` and `trace/matrix/view.rs` -- the traceability matrix.

The matrix is one Markdown document over the high-level requirements, the low-level
requirements and the tests of a trace. Its rows come from the trace files or from
the corpus graph; the document is the same function of the rows, sorted by sort key and
then by id. Links enter it as sets: a table asks whether some link of a row names a
uid, and the names a row's links give are sorted. So a document is the document of its
rows under sorted links (`render_canonical`).
-/
import Evidence.Corpus.Legacy
import Evidence.Trace.ReportView

set_option autoImplicit false

namespace Evidence.Trace

open Std Sorting Corpus

/-! ## Rows -/

structure MatrixRequirement where
  uid : Option String
  ns : Option String
  id : String
  title : String
  sort_key : Option Int64
  scope : Option String
  category : Option String
  source : Option String
  modules : List String
  traces_to : List String
deriving DecidableEq

structure MatrixTest where
  ns : Option String
  id : String
  title : String
  sort_key : Option Int64
  category : Option String
  test_selector : Option String
  source : Option String
  traces_to : List String
deriving DecidableEq

structure MatrixView where
  hlrs : List MatrixRequirement
  llrs : List MatrixRequirement
  tests : List MatrixTest
deriving DecidableEq

/-- Rows are ordered by sort key, which counts as zero when absent, then by id. -/
def row_order {α : Type} (sort_key : α → Option Int64) (id : α → String) : α → α → Ordering :=
  compareLex (compareOn fun row => ((sort_key row).getD 0).toInt) (compareOn id)

def matrix_requirement_order : MatrixRequirement → MatrixRequirement → Ordering :=
  row_order MatrixRequirement.sort_key MatrixRequirement.id

def matrix_test_order : MatrixTest → MatrixTest → Ordering :=
  row_order MatrixTest.sort_key MatrixTest.id

def MatrixView.new (hlrs llrs : List MatrixRequirement) (tests : List MatrixTest) : MatrixView where
  hlrs := sortBy matrix_requirement_order hlrs
  llrs := sortBy matrix_requirement_order llrs
  tests := sortBy matrix_test_order tests

/-! ### Rows of the files -/

def requirement_from_hlr (entry : HlrEntry) : MatrixRequirement where
  uid := entry.uid
  ns := entry.ns
  id := entry.id
  title := entry.title
  sort_key := entry.sort_key
  scope := entry.scope
  category := entry.category
  source := entry.source
  modules := []
  traces_to := entry.traces_to

def requirement_from_llr (entry : LlrEntry) : MatrixRequirement where
  uid := entry.uid
  ns := entry.ns
  id := entry.id
  title := entry.title
  sort_key := entry.sort_key
  scope := none
  category := none
  source := entry.source
  modules := entry.modules
  traces_to := entry.traces_to

def test_from_entry (entry : TestEntry) : MatrixTest where
  ns := entry.ns
  id := entry.id
  title := entry.title
  sort_key := entry.sort_key
  category := entry.category
  test_selector := entry.test_selector
  source := entry.source
  traces_to := entry.traces_to

def MatrixView.from_trace_files (hlr : HlrFile) (llr : LlrFile) (tests : TestsFile) : MatrixView :=
  .new (hlr.requirements.map requirement_from_hlr) (llr.requirements.map requirement_from_llr)
    (tests.tests.map test_from_entry)

/-! ### Rows of the graph -/

def project_requirement (graph : CorpusGraph) (requirement : RequirementNode) :
    MatrixRequirement :=
  let metadata := requirement_metadata graph requirement.uid
  { uid := some requirement.uid
    ns := metadata.bind (·.namespace)
    id := requirement.id
    title := requirement.title
    sort_key := metadata.bind (·.sort_key)
    scope := metadata.bind (·.scope)
    category := metadata.bind (·.category)
    source := metadata.bind (·.source)
    modules := metadata.elim [] (·.modules)
    traces_to := edge_targets .DerivesFrom requirement.edges }

def project_test (graph : CorpusGraph) (test : TestNode) : MatrixTest :=
  let metadata := test_metadata graph test.uid
  { ns := metadata.bind (·.namespace)
    id := test.id
    title := test.title
    sort_key := metadata.bind (·.sort_key)
    category := metadata.bind (·.category)
    test_selector := metadata.bind (·.primary_selector)
    source := metadata.bind (·.source)
    traces_to := edge_targets .Verifies test.edges }

def requirement_row (graph : CorpusGraph) (layer : RequirementLayer) : Node →
    Option MatrixRequirement
  | .Requirement requirement =>
    if requirement.layer = layer then some (project_requirement graph requirement) else none
  | .Test _ | .Review _ | .SourceRevision _ => none

def test_row (graph : CorpusGraph) : Node → Option MatrixTest
  | .Test test => some (project_test graph test)
  | .Requirement _ | .Review _ | .SourceRevision _ => none

def MatrixView.from_graph (graph : CorpusGraph) : MatrixView :=
  .new (graph.nodes.values.filterMap (requirement_row graph .Hlr))
    (graph.nodes.values.filterMap (requirement_row graph .Llr))
    (graph.nodes.values.filterMap (test_row graph))

/-! ## Tables -/

/-- An id under its namespace. -/
def display_id (ns : Option String) (id : String) : String :=
  match ns with
  | some ns => ns ++ ":" ++ id
  | none => id

def links_to (traces_to : List String) (uid : Option String) : Bool :=
  traces_to.any fun link => some link == uid

def tracing_requirements (llrs : List MatrixRequirement) (uid : Option String) :
    List MatrixRequirement :=
  llrs.filter fun llr => links_to llr.traces_to uid

def tracing_tests (tests : List MatrixTest) (uid : Option String) : List MatrixTest :=
  tests.filter fun test => links_to test.traces_to uid

def id_cell (ids : List String) : String :=
  if ids.isEmpty then "*(none)*" else ", ".intercalate ids

def table_row (first second third : String) : String :=
  "| " ++ first ++ " | " ++ second ++ " | " ++ third ++ " |\n"

def table (heading columns rule : String) (rows : List String) : String :=
  heading ++ columns ++ rule ++ String.join rows

def hlr_to_llr (hlrs llrs : List MatrixRequirement) : String :=
  table "## HLR to LLR Traceability\n\n"
    "| HLR ID | HLR Title | LLR IDs |\n"
    "|--------|-----------|--------|\n"
    (hlrs.map fun h => table_row (display_id h.ns h.id) h.title
      (id_cell (sortBy compare ((tracing_requirements llrs h.uid).map (·.id)))))

def llr_to_test (llrs : List MatrixRequirement) (tests : List MatrixTest) : String :=
  table "\n## LLR to Test Traceability\n\n"
    "| LLR ID | LLR Title | Test IDs |\n"
    "|--------|-----------|----------|\n"
    (llrs.map fun l => table_row (display_id l.ns l.id) l.title
      (id_cell (sortBy compare ((tracing_tests tests l.uid).map (·.id)))))

/-- The names of the requirements that links resolve to. -/
def linked_ids (requirements : List MatrixRequirement) (traces_to : List String) : List String :=
  traces_to.filterMap fun link =>
    (requirements.find? fun r => r.uid == some link).map fun r => display_id r.ns r.id

/-- The high-level requirements each low-level one traces to, under its uid. -/
def llr_uid_to_hlr_ids (hlrs llrs : List MatrixRequirement) :
    Store (Prod.fst : String × List String → String) :=
  .ofList (llrs.filterMap fun l =>
    l.uid.map fun uid => (uid, sortBy compare (linked_ids hlrs l.traces_to)))

/-- The high-level requirements that a link of a test leads to. -/
def rolled_up_ids (hlrs llrs : List MatrixRequirement) (link : String) : List String :=
  match llrs.find? fun l => l.uid == some link with
  | none => []
  | some l =>
    match l.uid.bind (llr_uid_to_hlr_ids hlrs llrs).get with
    | some (_, parent_hlrs) => parent_hlrs
    | none => []

def reverse_trace (hlrs llrs : List MatrixRequirement) (tests : List MatrixTest) : String :=
  table "\n## Reverse Trace: Test to LLR to HLR\n\n"
    "| Test ID | LLR IDs | HLR IDs |\n"
    "|---------|---------|--------|\n"
    (tests.map fun t => table_row (display_id t.ns t.id)
      (id_cell (sortBy compare (linked_ids llrs t.traces_to)))
      (id_cell (canonical_strings (t.traces_to.flatMap (rolled_up_ids hlrs llrs)))))

/-! ## Annotations -/

def annotation_part (label : String) (value : Option String) : List String :=
  (value.map fun value => label ++ "=" ++ value).toList

def annotation_line (kind id : String) (parts : List String) : String :=
  if parts.isEmpty then "" else "- " ++ kind ++ " " ++ id ++ ": " ++ ", ".intercalate parts ++ "\n"

def hlr_annotation (h : MatrixRequirement) : String :=
  annotation_line "HLR" h.id
    (annotation_part "scope" h.scope ++ annotation_part "category" h.category ++
      annotation_part "source" h.source)

def llr_annotation (l : MatrixRequirement) : String :=
  annotation_line "LLR" l.id
    (annotation_part "source" l.source ++
      if l.modules.isEmpty then [] else ["modules=[" ++ ", ".intercalate l.modules ++ "]"])

def test_annotation (t : MatrixTest) : String :=
  annotation_line "TEST" t.id
    (annotation_part "category" t.category ++ annotation_part "selector" t.test_selector ++
      annotation_part "source" t.source)

def annotations (view : MatrixView) : String :=
  let lines := String.join (view.hlrs.map hlr_annotation) ++
    String.join (view.llrs.map llr_annotation) ++ String.join (view.tests.map test_annotation)
  if lines.isEmpty then "" else "\n## Annotations\n\n" ++ lines

/-! ## Roll-up, coverage and gaps -/

def end_to_end (hlrs llrs : List MatrixRequirement) (tests : List MatrixTest) : String :=
  table "\n## End-to-End: HLR to Test Roll-Up\n\n"
    "| HLR ID | HLR Title | Test IDs (via LLR) |\n"
    "|--------|-----------|--------------------|\n"
    (hlrs.map fun h => table_row (display_id h.ns h.id) h.title
      (id_cell (canonical_strings ((tracing_requirements llrs h.uid).flatMap fun l =>
        (tracing_tests tests l.uid).map fun t => display_id t.ns t.id))))

/-- The high-level requirements that no low-level one traces to. -/
def uncovered_hlrs (hlrs llrs : List MatrixRequirement) : List MatrixRequirement :=
  hlrs.filter fun h => !llrs.any fun l => links_to l.traces_to h.uid

/-- The low-level requirements that no test traces to. -/
def uncovered_llrs (llrs : List MatrixRequirement) (tests : List MatrixTest) :
    List MatrixRequirement :=
  llrs.filter fun l => !tests.any fun t => links_to t.traces_to l.uid

def orphan_tests (tests : List MatrixTest) : List MatrixTest :=
  tests.filter fun t => t.traces_to.isEmpty

def count_line (label : String) (count : Nat) : String :=
  "- **" ++ label ++ ":** " ++ toString count ++ "\n"

def coverage_section (hlrs llrs tests hlr_without_llr llr_without_test orphans : Nat) : String :=
  "\n## Coverage Summary\n\n" ++
    count_line "HLR count" hlrs ++
    count_line "LLR count" llrs ++
    count_line "Test count" tests ++
    count_line "HLR without LLR" hlr_without_llr ++
    count_line "LLR without Test" llr_without_test ++
    count_line "Orphan tests (no LLR link)" orphans ++ "\n"

def coverage_summary (view : MatrixView) : String :=
  coverage_section view.hlrs.length view.llrs.length view.tests.length
    (uncovered_hlrs view.hlrs view.llrs).length (uncovered_llrs view.llrs view.tests).length
    (orphan_tests view.tests).length

def gap_line (id title : String) : String := "- " ++ id ++ " (" ++ title ++ ")\n"

def gap_list (heading : String) (lines : List String) : String :=
  if lines.isEmpty then "" else "### " ++ heading ++ "\n\n" ++ String.join lines ++ "\n"

def gap_section (hlrs llrs orphans : List String) : String :=
  if hlrs.isEmpty && llrs.isEmpty && orphans.isEmpty then ""
  else
    "## Gaps\n\n" ++ gap_list "HLRs without LLR coverage" hlrs ++
      gap_list "LLRs without Test coverage" llrs ++ gap_list "Orphan Tests (no LLR link)" orphans

def gaps (view : MatrixView) : String :=
  gap_section
    ((uncovered_hlrs view.hlrs view.llrs).map fun h => gap_line h.id h.title)
    ((uncovered_llrs view.llrs view.tests).map fun l => gap_line l.id l.title)
    ((orphan_tests view.tests).map fun t => gap_line (display_id t.ns t.id) t.title)

/-! ## The document -/

def provenance_line (label : String) (schema : Schema) («meta» : TraceMeta) : String :=
  "- **" ++ label ++ ":** schema=" ++ schema.version ++ ", document=" ++ «meta».document_id ++
    ", rev=" ++ «meta».revision ++ "\n"

/-- What stands before the provenance lines; there are no timestamps in it. -/
def title_block (doc_id : String) : String :=
  "<!-- GENERATED FILE. DO NOT EDIT.\n" ++
  "     Source of truth: cert/trace/*.toml\n" ++
  "     Regenerate: cargo xtask trace\n" ++
  "-->\n\n" ++
  "# Traceability Matrix\n\n" ++
  "<!-- Source: cert/trace roots (see project.toml trace.roots) -->\n" ++
  "**Document ID:** " ++ doc_id ++ "\n\n" ++
  "## Schema & Provenance\n\n"

def matrix_header (hlr : HlrFile) (llr : LlrFile) (tests : TestsFile) (doc_id : String) : String :=
  title_block doc_id ++ provenance_line "HLR" hlr.schema hlr.meta ++
    provenance_line "LLR" llr.schema llr.meta ++
    provenance_line "Tests" tests.schema tests.meta ++ "\n"

def render_traceability_matrix (view : MatrixView) (hlr : HlrFile) (llr : LlrFile)
    (tests : TestsFile) (doc_id : String) : String :=
  matrix_header hlr llr tests doc_id ++
  hlr_to_llr view.hlrs view.llrs ++
  llr_to_test view.llrs view.tests ++
  reverse_trace view.hlrs view.llrs view.tests ++
  annotations view ++
  end_to_end view.hlrs view.llrs view.tests ++
  coverage_summary view ++
  gaps view

def generate_traceability_matrix (hlr : HlrFile) (llr : LlrFile) (tests : TestsFile)
    (doc_id : String) : String :=
  render_traceability_matrix (.from_trace_files hlr llr tests) hlr llr tests doc_id

/-- The matrix of a corpus graph; the files give the document's provenance only. -/
def generate_corpus_traceability_matrix (graph : CorpusGraph) (hlr : HlrFile) (llr : LlrFile)
    (tests : TestsFile) (doc_id : String) : String :=
  render_traceability_matrix (.from_graph graph) hlr llr tests doc_id

/-! ## The document of rows under sorted links -/

theorem compare_string_eq {a b : String} (h : compare a b = .eq) : a = b :=
  LawfulEqOrd.compare_eq_iff_eq.mp h

/-- Sorting names forgets the order they were found in. -/
theorem sort_names_congr {l l' : List String} (h : l.Perm l') :
    sortBy compare l = sortBy compare l' :=
  sortBy_congr h fun _ _ _ _ => compare_string_eq

/-- So does a set of names. -/
theorem canonical_strings_congr {l l' : List String} (h : l.Perm l') :
    canonical_strings l = canonical_strings l' := by
  rw [canonical_strings, sort_names_congr h, canonical_strings]

def MatrixRequirement.canonical (row : MatrixRequirement) : MatrixRequirement :=
  { row with traces_to := sortBy compare row.traces_to }

def MatrixTest.canonical (row : MatrixTest) : MatrixTest :=
  { row with traces_to := sortBy compare row.traces_to }

namespace MatrixRequirement

variable (row : MatrixRequirement)

@[simp] theorem canonical_uid : row.canonical.uid = row.uid := rfl
@[simp] theorem canonical_ns : row.canonical.ns = row.ns := rfl
@[simp] theorem canonical_id : row.canonical.id = row.id := rfl
@[simp] theorem canonical_title : row.canonical.title = row.title := rfl
@[simp] theorem canonical_traces_to :
    row.canonical.traces_to = sortBy compare row.traces_to := rfl

end MatrixRequirement

namespace MatrixTest

variable (row : MatrixTest)

@[simp] theorem canonical_ns : row.canonical.ns = row.ns := rfl
@[simp] theorem canonical_id : row.canonical.id = row.id := rfl
@[simp] theorem canonical_title : row.canonical.title = row.title := rfl
@[simp] theorem canonical_traces_to :
    row.canonical.traces_to = sortBy compare row.traces_to := rfl

end MatrixTest

/-- The rows under sorted links. -/
def MatrixView.canonical (view : MatrixView) : MatrixView where
  hlrs := view.hlrs.map MatrixRequirement.canonical
  llrs := view.llrs.map MatrixRequirement.canonical
  tests := view.tests.map MatrixTest.canonical

@[simp] theorem links_to_sort (traces_to : List String) (uid : Option String) :
    links_to (sortBy compare traces_to) uid = links_to traces_to uid :=
  (sortBy_perm traces_to).any_eq

@[simp] theorem isEmpty_sort (traces_to : List String) :
    (sortBy compare traces_to).isEmpty = traces_to.isEmpty :=
  (sortBy_perm traces_to).isEmpty_eq

section Canonical

variable (hlrs llrs : List MatrixRequirement) (tests : List MatrixTest)

theorem tracing_requirements_canonical (uid : Option String) :
    tracing_requirements (llrs.map .canonical) uid =
      (tracing_requirements llrs uid).map .canonical := by
  rw [tracing_requirements, tracing_requirements, List.filter_map]
  simp [Function.comp_def]

theorem tracing_tests_canonical (uid : Option String) :
    tracing_tests (tests.map .canonical) uid = (tracing_tests tests uid).map .canonical := by
  rw [tracing_tests, tracing_tests, List.filter_map]
  simp [Function.comp_def]

theorem find_canonical (link : String) :
    (llrs.map MatrixRequirement.canonical).find? (fun l => l.uid == some link) =
      (llrs.find? fun l => l.uid == some link).map .canonical :=
  List.find?_map ..

theorem linked_ids_canonical (traces_to : List String) :
    linked_ids (llrs.map .canonical) traces_to = linked_ids llrs traces_to := by
  refine List.filterMap_congr fun link _ => ?_
  rw [find_canonical, Option.map_map]
  rfl

theorem linked_ids_sort (traces_to : List String) :
    sortBy compare (linked_ids llrs (sortBy compare traces_to)) =
      sortBy compare (linked_ids llrs traces_to) :=
  sort_names_congr ((sortBy_perm traces_to).filterMap _)

theorem llr_uid_to_hlr_ids_canonical :
    llr_uid_to_hlr_ids (hlrs.map .canonical) (llrs.map .canonical) =
      llr_uid_to_hlr_ids hlrs llrs := by
  rw [llr_uid_to_hlr_ids, llr_uid_to_hlr_ids, List.filterMap_map]
  congr 1
  refine List.filterMap_congr fun l _ => ?_
  simp only [Function.comp_apply, linked_ids_canonical]
  rw [MatrixRequirement.canonical, linked_ids_sort]

theorem rolled_up_ids_canonical (link : String) :
    rolled_up_ids (hlrs.map .canonical) (llrs.map .canonical) link =
      rolled_up_ids hlrs llrs link := by
  rw [rolled_up_ids, find_canonical, llr_uid_to_hlr_ids_canonical, rolled_up_ids]
  cases llrs.find? fun l => l.uid == some link with
  | none => rfl
  | some l => rfl

theorem hlr_to_llr_canonical :
    hlr_to_llr (hlrs.map .canonical) (llrs.map .canonical) = hlr_to_llr hlrs llrs := by
  simp [hlr_to_llr, tracing_requirements_canonical, Function.comp_def]

theorem llr_to_test_canonical :
    llr_to_test (llrs.map .canonical) (tests.map .canonical) = llr_to_test llrs tests := by
  simp [llr_to_test, tracing_tests_canonical, Function.comp_def]

theorem reverse_trace_canonical :
    reverse_trace (hlrs.map .canonical) (llrs.map .canonical) (tests.map .canonical) =
      reverse_trace hlrs llrs tests := by
  have hrow : ∀ t : MatrixTest,
      sortBy compare (linked_ids llrs t.canonical.traces_to) =
          sortBy compare (linked_ids llrs t.traces_to) ∧
        canonical_strings (t.canonical.traces_to.flatMap (rolled_up_ids hlrs llrs)) =
          canonical_strings (t.traces_to.flatMap (rolled_up_ids hlrs llrs)) := by
    intro t
    refine ⟨linked_ids_sort llrs t.traces_to, canonical_strings_congr ?_⟩
    exact (sortBy_perm t.traces_to).flatMap_right _
  have hrolled : rolled_up_ids (hlrs.map .canonical) (llrs.map .canonical) =
      rolled_up_ids hlrs llrs := funext (rolled_up_ids_canonical hlrs llrs)
  simp only [reverse_trace, List.map_map, hrolled, linked_ids_canonical]
  congr 2
  refine funext fun t => ?_
  simp only [Function.comp_apply, (hrow t).1, (hrow t).2, MatrixTest.canonical_ns,
    MatrixTest.canonical_id]

theorem annotations_canonical (view : MatrixView) :
    annotations view.canonical = annotations view := by
  have hhlr : hlr_annotation ∘ .canonical = hlr_annotation := rfl
  have hllr : llr_annotation ∘ .canonical = llr_annotation := rfl
  have htest : test_annotation ∘ .canonical = test_annotation := rfl
  simp only [annotations, MatrixView.canonical, List.map_map, hhlr, hllr, htest]

theorem end_to_end_canonical :
    end_to_end (hlrs.map .canonical) (llrs.map .canonical) (tests.map .canonical) =
      end_to_end hlrs llrs tests := by
  simp [end_to_end, tracing_requirements_canonical, tracing_tests_canonical, Function.comp_def,
    List.flatMap_map]

theorem uncovered_hlrs_canonical :
    uncovered_hlrs (hlrs.map .canonical) (llrs.map .canonical) =
      (uncovered_hlrs hlrs llrs).map .canonical := by
  rw [uncovered_hlrs, uncovered_hlrs, List.filter_map]
  simp [Function.comp_def]

theorem uncovered_llrs_canonical :
    uncovered_llrs (llrs.map .canonical) (tests.map .canonical) =
      (uncovered_llrs llrs tests).map .canonical := by
  rw [uncovered_llrs, uncovered_llrs, List.filter_map]
  simp [Function.comp_def]

theorem orphan_tests_canonical :
    orphan_tests (tests.map .canonical) = (orphan_tests tests).map .canonical := by
  rw [orphan_tests, orphan_tests, List.filter_map]
  simp [Function.comp_def]

theorem coverage_summary_canonical (view : MatrixView) :
    coverage_summary view.canonical = coverage_summary view := by
  simp only [coverage_summary, MatrixView.canonical, uncovered_hlrs_canonical,
    uncovered_llrs_canonical, orphan_tests_canonical, List.length_map]

theorem gaps_canonical (view : MatrixView) : gaps view.canonical = gaps view := by
  simp only [gaps, MatrixView.canonical, uncovered_hlrs_canonical, uncovered_llrs_canonical,
    orphan_tests_canonical, List.map_map, Function.comp_def,
    MatrixRequirement.canonical_id, MatrixRequirement.canonical_title, MatrixTest.canonical_ns,
    MatrixTest.canonical_id, MatrixTest.canonical_title]

end Canonical

/-- **A document is the document of its rows under sorted links.** -/
theorem render_canonical (view : MatrixView) (hlr : HlrFile) (llr : LlrFile) (tests : TestsFile)
    (doc_id : String) :
    render_traceability_matrix view.canonical hlr llr tests doc_id =
      render_traceability_matrix view hlr llr tests doc_id := by
  rw [render_traceability_matrix, annotations_canonical, coverage_summary_canonical,
    gaps_canonical]
  simp only [MatrixView.canonical, hlr_to_llr_canonical, llr_to_test_canonical,
    reverse_trace_canonical, end_to_end_canonical, render_traceability_matrix]

end Evidence.Trace
