/-
The sections of the traceability matrix against each other -- `trace/matrix.rs`.

Every section works out the links of its rows anew: the two tables downwards by asking
which rows link to a uid, the table upwards by looking up what each link names, the
roll-up by two nested filters, and the gap lists by filters of their own. They agree
on one relation, whether the links of a row name the uid of another: the two
tables of the tests and the low-level requirements are two texts of it
(`reverse_trace_eq`), and the roll-up is a text of its composition (`end_to_end_eq`).

The list of orphan tests is the exception. Its heading says that they have no link to
a low-level requirement, and its filter asks for tests without any link. A test may
verify a requirement of any layer, so the list misses the tests that verify
requirements of other layers alone (`matrix_consistent_iff`).
-/
import Evidence.Corpus.ApprovedClaims
import Evidence.Trace.Matrix

set_option autoImplicit false

namespace Evidence.Trace

open Sorting Corpus

/-! ## The relations of the matrix -/

/-- A low-level requirement derives from a high-level one. -/
def derives (l h : MatrixRequirement) : Bool := links_to l.traces_to h.uid

/-- A test verifies a low-level requirement. -/
def verifies (t : MatrixTest) (l : MatrixRequirement) : Bool := links_to t.traces_to l.uid

def requirement_name (row : MatrixRequirement) : String := display_id row.ns row.id

def test_name (row : MatrixTest) : String := display_id row.ns row.id

/-- The table from high-level to low-level requirements that stands for a relation. -/
def derived_section (related : MatrixRequirement → MatrixRequirement → Bool) (view : MatrixView) :
    String :=
  table "## HLR to LLR Traceability\n\n"
    "| HLR ID | HLR Title | LLR IDs |\n"
    "|--------|-----------|--------|\n"
    (view.hlrs.map fun h => table_row (requirement_name h) h.title
      (id_cell (sortBy compare ((view.llrs.filter (related · h)).map (·.id)))))

/-- The table from low-level requirements to tests that stands for a relation. -/
def forward_section (related : MatrixTest → MatrixRequirement → Bool) (view : MatrixView) :
    String :=
  table "\n## LLR to Test Traceability\n\n"
    "| LLR ID | LLR Title | Test IDs |\n"
    "|--------|-----------|----------|\n"
    (view.llrs.map fun l => table_row (requirement_name l) l.title
      (id_cell (sortBy compare ((view.tests.filter (related · l)).map (·.id)))))

/-- The table from tests to low-level and high-level requirements that stands for two
relations. -/
def reverse_section (related : MatrixTest → MatrixRequirement → Bool)
    (rolled : MatrixTest → MatrixRequirement → Bool) (view : MatrixView) : String :=
  table "\n## Reverse Trace: Test to LLR to HLR\n\n"
    "| Test ID | LLR IDs | HLR IDs |\n"
    "|---------|---------|--------|\n"
    (view.tests.map fun t => table_row (test_name t)
      (id_cell (sortBy compare ((view.llrs.filter (related t)).map requirement_name)))
      (id_cell (canonical_strings ((view.hlrs.filter (rolled t)).map requirement_name))))

/-- The roll-up that stands for a relation. -/
def roll_up_section (rolled : MatrixTest → MatrixRequirement → Bool) (view : MatrixView) :
    String :=
  table "\n## End-to-End: HLR to Test Roll-Up\n\n"
    "| HLR ID | HLR Title | Test IDs (via LLR) |\n"
    "|--------|-----------|--------------------|\n"
    (view.hlrs.map fun h => table_row (requirement_name h) h.title
      (id_cell (canonical_strings ((view.tests.filter (rolled · h)).map test_name))))

/-- A test reaches a high-level requirement over a low-level one. -/
def reaches (llrs : List MatrixRequirement) (t : MatrixTest) (h : MatrixRequirement) : Bool :=
  llrs.any fun l => verifies t l && derives l h

/-! ## Looking links up -/

section Lookup

variable {rows : List MatrixRequirement}

theorem find_row_iff (huids : (rows.map MatrixRequirement.uid).Nodup) {link : String}
    {row : MatrixRequirement} :
    (rows.find? fun r => r.uid == some link) = some row ↔ row ∈ rows ∧ row.uid = some link :=
  Lists.find?_eq_some_iff_of_nodup huids

theorem links_to_iff {traces_to : List String} {row : MatrixRequirement} :
    links_to traces_to row.uid = true ↔ ∃ link ∈ traces_to, row.uid = some link := by
  simp only [links_to, List.any_eq_true, beq_iff_eq]
  exact exists_congr fun link => and_congr_right fun _ => eq_comm

theorem mem_linked_ids (huids : (rows.map MatrixRequirement.uid).Nodup) {traces_to : List String}
    {name : String} :
    name ∈ linked_ids rows traces_to ↔
      ∃ row ∈ rows, links_to traces_to row.uid = true ∧ requirement_name row = name := by
  simp only [linked_ids, List.mem_filterMap, Option.map_eq_some_iff, find_row_iff huids,
    links_to_iff]
  constructor
  · rintro ⟨link, hlink, row, ⟨hrow, huid⟩, hname⟩
    exact ⟨row, hrow, ⟨link, hlink, huid⟩, hname⟩
  · rintro ⟨row, hrow, ⟨link, hlink, huid⟩, hname⟩
    exact ⟨link, hlink, row, ⟨hrow, huid⟩, hname⟩

/-- **Looking links up and asking which rows are linked to is the same**, where no link and no
uid is repeated. -/
theorem linked_ids_perm (huids : (rows.map MatrixRequirement.uid).Nodup)
    {traces_to : List String} (hlinks : traces_to.Nodup) :
    (linked_ids rows traces_to).Perm
      ((rows.filter fun row => links_to traces_to row.uid).map requirement_name) := by
  have hfound : linked_ids rows traces_to =
      (traces_to.filterMap fun link => rows.find? fun r => r.uid == some link).map
        requirement_name := by
    rw [linked_ids, List.map_filterMap]
    rfl
  rw [hfound]
  refine List.Perm.map _ ((List.perm_ext_iff_of_nodup ?_ ?_).mpr ?_)
  · -- a row is found under one link
    refine hlinks.filterMap ?_
    intro link link' row hrow hrow'
    obtain ⟨-, huid⟩ := (find_row_iff huids).mp hrow
    obtain ⟨-, huid'⟩ := (find_row_iff huids).mp hrow'
    exact Option.some.inj (huid.symm.trans huid')
  · exact (List.Nodup.of_map _ huids).filter _
  · intro row
    simp only [List.mem_filterMap, List.mem_filter, find_row_iff huids, links_to_iff]
    constructor
    · rintro ⟨link, hlink, hrow, huid⟩
      exact ⟨hrow, link, hlink, huid⟩
    · rintro ⟨hrow, link, hlink, huid⟩
      exact ⟨link, hlink, hrow, huid⟩

end Lookup

/-! ## The tables of a view -/

/-- A view whose requirements have uids of their own, and whose tests repeat no link. -/
structure MatrixView.Keyed (view : MatrixView) : Prop where
  hlrs : (view.hlrs.map MatrixRequirement.uid).Nodup
  llrs : (view.llrs.map MatrixRequirement.uid).Nodup
  named : ∀ l ∈ view.llrs, l.uid.isSome = true
  links : ∀ t ∈ view.tests, t.traces_to.Nodup

section Tables

variable {view : MatrixView}

/-- The high-level requirements stored for a low-level one. -/
theorem get_llr_uid_to_hlr_ids (hkeyed : view.Keyed) {l : MatrixRequirement} (hl : l ∈ view.llrs)
    {uid : String} (huid : l.uid = some uid) :
    (llr_uid_to_hlr_ids view.hlrs view.llrs).get uid =
      some (uid, sortBy compare (linked_ids view.hlrs l.traces_to)) := by
  have hkeys : ((view.llrs.filterMap fun l => l.uid.map fun uid =>
      (uid, sortBy compare (linked_ids view.hlrs l.traces_to))).map Prod.fst).Nodup := by
    rw [List.map_filterMap]
    have heq : (view.llrs.filterMap fun l => (l.uid.map fun uid =>
        (uid, sortBy compare (linked_ids view.hlrs l.traces_to))).map Prod.fst) =
        (view.llrs.map MatrixRequirement.uid).filterMap id := by
      rw [List.filterMap_map]
      refine List.filterMap_congr fun l _ => ?_
      rw [Function.comp_apply, id, Option.map_map]
      exact congrFun Option.map_id l.uid
    rw [heq]
    refine hkeyed.llrs.filterMap ?_
    intro a b uid ha hb
    exact Eq.trans ha hb.symm
  have hmem : (uid, sortBy compare (linked_ids view.hlrs l.traces_to)) ∈
      (llr_uid_to_hlr_ids view.hlrs view.llrs).values := by
    rw [llr_uid_to_hlr_ids, Store.mem_values_ofList hkeys, List.mem_filterMap]
    exact ⟨l, hl, by rw [huid, Option.map_some]⟩
  exact Store.mem_values.mp hmem

/-- What a link of a test leads to. -/
theorem mem_rolled_up_ids (hkeyed : view.Keyed) {link name : String} :
    name ∈ rolled_up_ids view.hlrs view.llrs link ↔
      ∃ l ∈ view.llrs, l.uid = some link ∧ name ∈ linked_ids view.hlrs l.traces_to := by
  unfold rolled_up_ids
  cases hfind : view.llrs.find? fun l => l.uid == some link with
  | none =>
    simp only [List.not_mem_nil, false_iff]
    rintro ⟨l, hl, huid, -⟩
    rw [List.find?_eq_none] at hfind
    exact hfind l hl (beq_iff_eq.mpr huid)
  | some found =>
    obtain ⟨hfound, huid⟩ := (find_row_iff hkeyed.llrs).mp hfind
    simp only [huid, Option.bind_some, get_llr_uid_to_hlr_ids hkeyed hfound huid, mem_sortBy]
    constructor
    · intro hname
      exact ⟨found, hfound, huid, hname⟩
    · rintro ⟨l, hl, hkey, hname⟩
      rwa [List.inj_on_of_nodup_map hkeyed.llrs hfound hl (huid.trans hkey.symm)]

theorem hlr_to_llr_eq : hlr_to_llr view.hlrs view.llrs = derived_section derives view := rfl

theorem llr_to_test_eq : llr_to_test view.llrs view.tests = forward_section verifies view := rfl

/-- **The reverse table is a text of the same relation**, and its last column of the
composition. -/
theorem reverse_trace_eq (hkeyed : view.Keyed) :
    reverse_trace view.hlrs view.llrs view.tests =
      reverse_section verifies (reaches view.llrs) view := by
  unfold reverse_trace reverse_section
  congr 1
  refine List.map_congr_left fun t ht => ?_
  have hllrs : sortBy compare (linked_ids view.llrs t.traces_to) =
      sortBy compare ((view.llrs.filter (verifies t)).map requirement_name) :=
    sort_names_congr (linked_ids_perm hkeyed.llrs (hkeyed.links t ht))
  have hhlrs : canonical_strings (t.traces_to.flatMap (rolled_up_ids view.hlrs view.llrs)) =
      canonical_strings ((view.hlrs.filter (reaches view.llrs t)).map requirement_name) := by
    rw [canonical_strings_eq_iff]
    intro name
    simp only [List.mem_flatMap, mem_rolled_up_ids hkeyed, mem_linked_ids hkeyed.hlrs,
      List.mem_map, List.mem_filter, reaches, verifies, derives, List.any_eq_true,
      Bool.and_eq_true, links_to_iff]
    constructor
    · rintro ⟨link, hlink, l, hl, huid, h, hh, hderives, hname⟩
      exact ⟨h, ⟨hh, l, hl, ⟨link, hlink, huid⟩, hderives⟩, hname⟩
    · rintro ⟨h, ⟨hh, l, hl, ⟨link, hlink, huid⟩, hderives⟩, hname⟩
      exact ⟨link, hlink, l, hl, huid, h, hh, hderives, hname⟩
  rw [hllrs, hhlrs]
  rfl

/-- **The roll-up is a text of the composition.** -/
theorem end_to_end_eq :
    end_to_end view.hlrs view.llrs view.tests = roll_up_section (reaches view.llrs) view := by
  unfold end_to_end roll_up_section
  congr 1
  refine List.map_congr_left fun h _ => ?_
  have htests : canonical_strings ((tracing_requirements view.llrs h.uid).flatMap fun l =>
      (tracing_tests view.tests l.uid).map fun t => display_id t.ns t.id) =
      canonical_strings ((view.tests.filter (reaches view.llrs · h)).map test_name) := by
    rw [canonical_strings_eq_iff]
    intro name
    simp only [tracing_requirements, tracing_tests, List.mem_flatMap, List.mem_map,
      List.mem_filter, reaches, verifies, derives, List.any_eq_true, Bool.and_eq_true]
    constructor
    · rintro ⟨l, ⟨hl, hderives⟩, t, ⟨ht, hverifies⟩, hname⟩
      exact ⟨t, ⟨ht, l, hl, hverifies, hderives⟩, hname⟩
    · rintro ⟨t, ⟨ht, l, hl, hverifies, hderives⟩, hname⟩
      exact ⟨l, ⟨hl, hderives⟩, t, ⟨ht, hverifies⟩, hname⟩
  rw [htests]
  rfl

end Tables

/-! ## The gap lists of a view -/

/-- The lines of the requirements that are listed as uncovered, and of the orphan tests. -/
def hlr_gaps (view : MatrixView) : List String :=
  (uncovered_hlrs view.hlrs view.llrs).map fun h => gap_line h.id h.title

def llr_gaps (view : MatrixView) : List String :=
  (uncovered_llrs view.llrs view.tests).map fun l => gap_line l.id l.title

def test_gaps (view : MatrixView) : List String :=
  (orphan_tests view.tests).map fun t => gap_line (test_name t) t.title

structure MatrixView.Consistent (view : MatrixView) : Prop where
  /-- The two tables of low-level requirements and tests are texts of one relation. -/
  one_relation : llr_to_test view.llrs view.tests = forward_section verifies view ∧
    reverse_trace view.hlrs view.llrs view.tests =
      reverse_section verifies (reaches view.llrs) view
  /-- The roll-up is a text of the composition of the two tables downwards. -/
  rolled_up : hlr_to_llr view.hlrs view.llrs = derived_section derives view ∧
    end_to_end view.hlrs view.llrs view.tests = roll_up_section (reaches view.llrs) view
  /-- The counts are the lengths of the lists. -/
  counted : coverage_summary view = coverage_section view.hlrs.length view.llrs.length
      view.tests.length (hlr_gaps view).length (llr_gaps view).length (test_gaps view).length ∧
    gaps view = gap_section (hlr_gaps view) (llr_gaps view) (test_gaps view)
  /-- A requirement is listed as uncovered exactly if its row shows nothing. -/
  uncovered_hlrs : ∀ h ∈ view.hlrs, h ∈ uncovered_hlrs view.hlrs view.llrs ↔
    tracing_requirements view.llrs h.uid = []
  uncovered_llrs : ∀ l ∈ view.llrs, l ∈ uncovered_llrs view.llrs view.tests ↔
    tracing_tests view.tests l.uid = []
  /-- A test is listed as an orphan exactly if its row shows no requirement. -/
  orphans : ∀ t ∈ view.tests, t ∈ orphan_tests view.tests ↔
    linked_ids view.llrs t.traces_to = []

/-- **All but the list of orphans is consistent**; and that is when every test with a link has
one to a low-level requirement. -/
theorem MatrixView.consistent_iff {view : MatrixView} (hkeyed : view.Keyed) :
    view.Consistent ↔
      ∀ t ∈ view.tests, t.traces_to ≠ [] → ∃ l ∈ view.llrs, verifies t l = true := by
  have hshown : ∀ t : MatrixTest, linked_ids view.llrs t.traces_to = [] ↔
      ∀ l ∈ view.llrs, ¬ verifies t l = true := by
    intro t
    rw [List.eq_nil_iff_forall_not_mem]
    simp only [mem_linked_ids hkeyed.llrs, verifies]
    constructor
    · intro hnone l hl hlinked
      exact hnone _ ⟨l, hl, hlinked, rfl⟩
    · rintro hnone name ⟨l, hl, hlinked, -⟩
      exact hnone l hl hlinked
  have horphan : ∀ t ∈ view.tests, (t ∈ orphan_tests view.tests ↔ t.traces_to = []) := by
    intro t ht
    rw [orphan_tests, List.mem_filter, List.isEmpty_iff]
    exact and_iff_right ht
  constructor
  · intro h t ht hlinks
    by_contra hnone
    refine hlinks ((horphan t ht).mp ((h.orphans t ht).mpr ((hshown t).mpr ?_)))
    intro l hl hverifies
    exact hnone ⟨l, hl, hverifies⟩
  · intro hlow
    refine ⟨⟨llr_to_test_eq, reverse_trace_eq hkeyed⟩, ⟨hlr_to_llr_eq, end_to_end_eq⟩,
      ⟨?_, rfl⟩, ?_, ?_, ?_⟩
    · simp only [coverage_summary, hlr_gaps, llr_gaps, test_gaps, List.length_map]
    · intro h hh
      rw [Trace.uncovered_hlrs, List.mem_filter, tracing_requirements, List.filter_eq_nil_iff]
      simp [hh]
    · intro l hl
      rw [Trace.uncovered_llrs, List.mem_filter, tracing_tests, List.filter_eq_nil_iff]
      simp [hl]
    · intro t ht
      rw [horphan t ht, hshown t]
      constructor
      · intro hnil l _ hverifies
        rw [verifies, hnil] at hverifies
        cases hverifies
      · intro hnone
        by_contra hlinks
        obtain ⟨l, hl, hverifies⟩ := hlow t ht hlinks
        exact hnone l hl hverifies

/-! ## The matrix of a graph -/

section Graph

variable {graph : CorpusGraph}

theorem mem_requirement_rows {layer : RequirementLayer} {row : MatrixRequirement} :
    row ∈ sortBy matrix_requirement_order
        (graph.nodes.values.filterMap (requirement_row graph layer)) ↔
      ∃ requirement, Node.Requirement requirement ∈ graph.nodes.values ∧
        requirement.layer = layer ∧ project_requirement graph requirement = row := by
  rw [mem_sortBy, List.mem_filterMap]
  constructor
  · rintro ⟨node, hnode, hrow⟩
    cases node with
    | Requirement requirement =>
      rw [requirement_row] at hrow
      split_ifs at hrow with hlayer
      exact ⟨requirement, hnode, hlayer, Option.some.inj hrow⟩
    | Test test => cases hrow
    | Review review => cases hrow
    | SourceRevision revision => cases hrow
  · rintro ⟨requirement, hnode, hlayer, hrow⟩
    exact ⟨_, hnode, by rw [requirement_row, if_pos hlayer, hrow]⟩

theorem mem_test_rows {row : MatrixTest} :
    row ∈ (MatrixView.from_graph graph).tests ↔
      ∃ test, Node.Test test ∈ graph.nodes.values ∧ project_test graph test = row := by
  rw [MatrixView.from_graph, MatrixView.new, mem_sortBy, List.mem_filterMap]
  constructor
  · rintro ⟨node, hnode, hrow⟩
    cases node with
    | Test test => exact ⟨test, hnode, Option.some.inj hrow⟩
    | Requirement requirement => cases hrow
    | Review review => cases hrow
    | SourceRevision revision => cases hrow
  · rintro ⟨test, hnode, hrow⟩
    exact ⟨_, hnode, congrArg some hrow⟩

theorem requirement_rows_nodup (layer : RequirementLayer) :
    ((sortBy matrix_requirement_order
      (graph.nodes.values.filterMap (requirement_row graph layer))).map
        MatrixRequirement.uid).Nodup := by
  have hkeys : ((graph.nodes.values.map Node.uid).map some).Nodup :=
    (List.nodup_map_iff (Option.some_injective _)).mpr graph.nodes.values_keys_nodup
  rw [((sortBy_perm _).map _).nodup_iff]
  rw [List.map_map] at hkeys
  refine hkeys.sublist (Lists.map_filterMap_sublist ?_ _)
  intro node row hrow
  cases node with
  | Requirement requirement =>
    rw [requirement_row] at hrow
    split_ifs at hrow
    rw [← Option.some.inj hrow]
    rfl
  | Test test => cases hrow
  | Review review => cases hrow
  | SourceRevision revision => cases hrow

theorem from_graph_keyed (hbuilt : graph.Built) : (MatrixView.from_graph graph).Keyed where
  hlrs := requirement_rows_nodup .Hlr
  llrs := requirement_rows_nodup .Llr
  named := by
    intro l hl
    obtain ⟨requirement, -, -, rfl⟩ := mem_requirement_rows.mp hl
    rfl
  links := by
    intro t ht
    obtain ⟨test, htest, rfl⟩ := mem_test_rows.mp ht
    exact edge_targets_nodup (hbuilt.edges_nodup _ htest)

def VerifiesLowLevel (graph : CorpusGraph) : Prop :=
  ∀ test, Node.Test test ∈ graph.nodes.values → edge_targets .Verifies test.edges ≠ [] →
    ∃ target ∈ edge_targets .Verifies test.edges, ∃ requirement,
      graph.get target = some (.Requirement requirement) ∧ requirement.layer = .Llr

/-- **The matrix of a graph is consistent exactly when every test that verifies a requirement
verifies a low-level one.** -/
theorem matrix_consistent_iff (hbuilt : graph.Built) :
    (MatrixView.from_graph graph).Consistent ↔ VerifiesLowLevel graph := by
  rw [MatrixView.consistent_iff (from_graph_keyed hbuilt)]
  have hverifies : ∀ test, (∃ l ∈ (MatrixView.from_graph graph).llrs,
        verifies (project_test graph test) l = true) ↔
      ∃ target ∈ edge_targets .Verifies test.edges, ∃ requirement,
        graph.get target = some (.Requirement requirement) ∧ requirement.layer = .Llr := by
    intro test
    constructor
    · rintro ⟨l, hl, hlinked⟩
      obtain ⟨requirement, hnode, hlayer, rfl⟩ := mem_requirement_rows.mp hl
      obtain ⟨target, htarget, huid⟩ := links_to_iff.mp hlinked
      refine ⟨target, htarget, requirement, ?_, hlayer⟩
      rw [← Option.some.inj huid]
      exact Store.mem_values.mp hnode
    · rintro ⟨target, htarget, requirement, hget, hlayer⟩
      refine ⟨project_requirement graph requirement, mem_requirement_rows.mpr
        ⟨requirement, Store.mem_values_of_get hget, hlayer, rfl⟩,
        links_to_iff.mpr ⟨target, htarget, ?_⟩⟩
      have hkey : (Node.Requirement requirement).uid = target := Store.key_of_get hget
      exact congrArg some hkey
  constructor
  · intro h test htest hlinks
    exact (hverifies test).mp (h _ (mem_test_rows.mpr ⟨test, htest, rfl⟩) hlinks)
  · intro h t ht hlinks
    obtain ⟨test, htest, rfl⟩ := mem_test_rows.mp ht
    exact (hverifies test).mpr (h test htest hlinks)

end Graph

/-! ## A test of a high-level requirement -/

/-- A high-level requirement. -/
def braking : Node :=
  .Requirement
    { uid := "req_a", id := "HLR-1", title := "Stop", layer := .Hlr, edges := [],
      description := none, rationale := none, scope := none, category := none, source := none,
      verification_methods := [], safety_impact := none }

/-- The test that verifies it, and nothing else. -/
def braking_test : Node :=
  .Test
    { uid := "test_a", id := "TEST-1", title := "Stops", selectors := [],
      edges := [(.Verifies, "req_a")] }

def verified_above : CorpusGraph :=
  { CorpusGraph.new with nodes := (Store.empty.put braking).put braking_test }

theorem verified_above_built : verified_above.Built := by
  have hfirst : CorpusGraph.new.insert braking =
      .ok { CorpusGraph.new with nodes := Store.empty.put braking } :=
    CorpusGraph.insert_ok_iff.mpr ⟨by decide +kernel, by decide +kernel, by decide +kernel, rfl⟩
  have hsecond : { CorpusGraph.new with nodes := Store.empty.put braking }.insert braking_test =
      .ok verified_above :=
    CorpusGraph.insert_ok_iff.mpr ⟨by decide +kernel, by decide +kernel, by decide +kernel, rfl⟩
  exact .insert (.insert .new hfirst) hsecond

section Instances

attribute [local instance] fips180 F64.exact_display

/-- **A test of a high-level requirement alone is no orphan, and shows no requirement.** -/
theorem matrix_consistent_fails :
    ¬ ∀ graph : CorpusGraph, graph.Built → graph.validate = .ok () →
      (MatrixView.from_graph graph).Consistent := by
  intro hall
  have h := hall verified_above verified_above_built (by decide +kernel)
  have hrow : project_test verified_above
      { uid := "test_a", id := "TEST-1", title := "Stops", selectors := [],
        edges := [(.Verifies, "req_a")] } ∈ (MatrixView.from_graph verified_above).tests := by
    decide +kernel
  exact absurd ((h.orphans _ hrow).mpr (by decide +kernel)) (by decide +kernel)

/-- Its matrix is as consistent as its tests verify low-level requirements. -/
theorem matrix_consistent_above :
    (MatrixView.from_graph verified_above).Consistent ↔ VerifiesLowLevel verified_above :=
  matrix_consistent_iff verified_above_built

end Instances

end Evidence.Trace
