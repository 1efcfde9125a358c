/-
`requirement_report/view.rs` -- the rows of the requirement report.

Every SYS, HLR and LLR requirement and every test of the graph becomes a row, with
the targets of its edges in edge order. An edge to anything but a requirement of
the layer above is a *link gap*; the row keeps the message of its first one. An edge
of another kind than the row's ends the whole report. A row with a link gap is no
child of any row, not even along its other edges.
-/
import Evidence.Corpus.Graph.Basic
import Evidence.Lib.Check

set_option autoImplicit false

namespace Evidence.Trace

open Corpus Sorting Check

/-! ## Rows -/

/-- A graph shape that the report cannot represent. -/
inductive RequirementReportError where
  | UnsupportedEdge («from» : String) (kind : EdgeKind)
deriving DecidableEq

structure ReportRequirement where
  uid : String
  id : String
  traces_to : List String
  verification_methods : List String
  link_gap : Option String
  sort_key : Option Int64
deriving DecidableEq

structure ReportTest where
  uid : String
  id : String
  selectors : List String
  traces_to : List String
  link_gap : Option String
  sort_key : Option Int64
deriving DecidableEq

inductive RequirementKind where
  | Sys
  | Hlr
  | Llr
deriving DecidableEq

/-- The row of a node. -/
inductive Row where
  | Requirement (kind : RequirementKind) (row : ReportRequirement)
  | Test (row : ReportTest)
deriving DecidableEq

namespace Row

def uid : Row → String
  | Requirement _ row => row.uid
  | Test row => row.uid

def traces_to : Row → List String
  | Requirement _ row => row.traces_to
  | Test row => row.traces_to

def link_gap : Row → Option String
  | Requirement _ row => row.link_gap
  | Test row => row.link_gap

def as_requirement (kind : RequirementKind) : Row → Option ReportRequirement
  | Requirement kind' row => if kind' = kind then some row else none
  | Test _ => none

def as_test : Row → Option ReportTest
  | Requirement _ _ => none
  | Test row => some row

end Row

/-! ## Links -/

def layer_label : RequirementLayer → String
  | .Source => "SOURCE"
  | .Sys => "SYS"
  | .Hlr => "HLR"
  | .Llr => "LLR"
  | .Derived => "DERIVED"

/-- The layer a requirement's edges lead to. -/
def expected_layer : RequirementLayer → Option RequirementLayer
  | .Sys => none
  | .Hlr => some .Sys
  | .Llr => some .Hlr
  | .Source | .Derived => none

/-- The loop over the edges of a row: every target in edge order, and the first gap.
It stops at an edge of another kind. -/
def collect_links («from» : String) (kind : EdgeKind) (gap_at : String → Option String)
    (edges : List Edge) : Except RequirementReportError (List String × Option String) :=
  edges.foldlM (fun links edge =>
    if edge.1 ≠ kind then .error (.UnsupportedEdge «from» edge.1)
    else .ok (links.1 ++ [edge.2], links.2.orElse fun _ => gap_at edge.2)) ([], none)

section Links

variable (graph : CorpusGraph)

/-- What is wrong with a requirement's edge to a target. -/
def requirement_link_gap (requirement : RequirementNode) (target_uid : String) : Option String :=
  match expected_layer requirement.layer, graph.get target_uid with
  | none, _ =>
    some ("SYS " ++ requirement.id ++ " has an inapplicable parent edge to " ++ target_uid)
  | some _, none =>
    some (layer_label requirement.layer ++ " " ++ requirement.id ++
      " links to missing requirement " ++ target_uid)
  | some expected, some (.Requirement target) =>
    if target.layer ≠ expected then
      some (layer_label requirement.layer ++ " " ++ requirement.id ++ " links to " ++
        layer_label target.layer ++ " layer; expected " ++ layer_label expected)
    else none
  | some _, some (.Test _) =>
    some (layer_label requirement.layer ++ " " ++ requirement.id ++
      " parent edge targets a TEST node")
  | some _, some (.Review _) =>
    some (layer_label requirement.layer ++ " " ++ requirement.id ++
      " parent edge targets a REVIEW node")
  | some _, some (.SourceRevision _) =>
    some (layer_label requirement.layer ++ " " ++ requirement.id ++
      " parent edge targets a SOURCE REVISION node")

/-- The targets of a requirement's edges, and its link gap. -/
def requirement_links (requirement : RequirementNode) :
    Except RequirementReportError (List String × Option String) :=
  match requirement.layer with
  | .Source | .Derived => .ok ([], none)
  | .Sys | .Hlr | .Llr =>
    collect_links requirement.uid .DerivesFrom (requirement_link_gap graph requirement)
      requirement.edges

/-- What is wrong with a test's edge to a target. -/
def test_link_gap (test : TestNode) (target_uid : String) : Option String :=
  match graph.get target_uid with
  | none => some ("TEST " ++ test.id ++ " links to missing requirement " ++ target_uid)
  | some (.Requirement target) =>
    if target.layer ≠ .Llr then
      some ("TEST " ++ test.id ++ " verifies " ++ layer_label target.layer ++
        " layer; expected LLR")
    else none
  | some (.Test _) => some ("TEST " ++ test.id ++ " verifies a TEST node")
  | some (.Review _) => some ("TEST " ++ test.id ++ " verifies a REVIEW node")
  | some (.SourceRevision _) => some ("TEST " ++ test.id ++ " verifies a SOURCE REVISION node")

/-- The targets of a test's edges, and its link gap. -/
def test_links (test : TestNode) : Except RequirementReportError (List String × Option String) :=
  collect_links test.uid .Verifies (test_link_gap graph test) test.edges

/-! ## The view -/

def report_kind : RequirementLayer → Option RequirementKind
  | .Sys => some .Sys
  | .Hlr => some .Hlr
  | .Llr => some .Llr
  | .Source | .Derived => none

def requirement_metadata (uid : String) : Option RequirementMetadata :=
  match (graph.trace_metadata.get uid).map Prod.snd with
  | some (.Requirement metadata) => some metadata
  | some (.Test _) | none => none

def test_metadata (uid : String) : Option TestMetadata :=
  match (graph.trace_metadata.get uid).map Prod.snd with
  | some (.Test metadata) => some metadata
  | some (.Requirement _) | none => none

/-- The row of a node, when it has one: review decisions, source revisions and the
requirements of the other two layers are not rows. -/
def report_row : Node → Except RequirementReportError (Option Row)
  | .Requirement requirement =>
    match report_kind requirement.layer with
    | none => .ok none
    | some kind => do
      let metadata := requirement_metadata graph requirement.uid
      let links ← requirement_links graph requirement
      .ok (some (.Requirement kind
        { uid := requirement.uid
          id := requirement.id
          traces_to := links.1
          verification_methods := metadata.elim [] RequirementMetadata.verification_methods
          link_gap := links.2
          sort_key := metadata.bind RequirementMetadata.sort_key }))
  | .Test test => do
    let metadata := test_metadata graph test.uid
    let links ← test_links graph test
    .ok (some (.Test
      { uid := test.uid
        id := test.id
        selectors := test.selectors
        traces_to := links.1
        link_gap := links.2
        sort_key := metadata.bind TestMetadata.sort_key }))
  | .Review _ | .SourceRevision _ => .ok none

end Links

/-- Requirement rows are ordered by sort key, id and uid. -/
def requirement_order : ReportRequirement → ReportRequirement → Ordering :=
  compareLex (compareOn fun row => row.sort_key.getD 0)
    (compareLex (compareOn ReportRequirement.id) (compareOn ReportRequirement.uid))

/-- Test rows are ordered alike. -/
def test_order : ReportTest → ReportTest → Ordering :=
  compareLex (compareOn fun row => row.sort_key.getD 0)
    (compareLex (compareOn ReportTest.id) (compareOn ReportTest.uid))

structure ReportView where
  sys : List ReportRequirement
  hlrs : List ReportRequirement
  llrs : List ReportRequirement
  tests : List ReportTest

namespace ReportView

/-- Project a graph: its nodes in uid order, then every layer sorted. -/
def from_graph (graph : CorpusGraph) : Except RequirementReportError ReportView := do
  let rows ← graph.nodes.values.mapM (report_row graph)
  let rows := rows.filterMap id
  .ok
    { sys := sortBy requirement_order (rows.filterMap (Row.as_requirement .Sys))
      hlrs := sortBy requirement_order (rows.filterMap (Row.as_requirement .Hlr))
      llrs := sortBy requirement_order (rows.filterMap (Row.as_requirement .Llr))
      tests := sortBy test_order (rows.filterMap Row.as_test) }

/-- The rows in the order the child index reads them. -/
def rows (view : ReportView) : List Row :=
  view.hlrs.map (.Requirement .Hlr) ++ view.llrs.map (.Requirement .Llr) ++
    view.sys.map (.Requirement .Sys) ++ view.tests.map .Test

/-- The parent and the child of every entry of the child index, as they are pushed. -/
def index_children (view : ReportView) : List (String × String) :=
  view.rows.flatMap fun row =>
    if row.link_gap.isNone then row.traces_to.map fun parent => (parent, row.uid) else []

/-- The children filed under a uid, sorted. -/
def children_of (view : ReportView) (uid : String) : List String :=
  sortBy compare ((view.index_children.filter fun entry => entry.1 = uid).map Prod.snd)

/-- The ids and selectors of the test rows. -/
def selector_inputs (view : ReportView) : List (String × List String) :=
  view.tests.map fun test => (test.id, test.selectors)

def layer (view : ReportView) : RequirementKind → List ReportRequirement
  | .Sys => view.sys
  | .Hlr => view.hlrs
  | .Llr => view.llrs

/-! ## The rows of a view -/

theorem mem_rows_requirement {view : ReportView} {kind : RequirementKind}
    {row : ReportRequirement} :
    Row.Requirement kind row ∈ view.rows ↔ row ∈ view.layer kind := by
  simp only [rows, List.mem_append, List.mem_map, Row.Requirement.injEq, reduceCtorEq, and_false,
    exists_false, or_false]
  cases kind <;> simp [layer]

theorem mem_rows_test {view : ReportView} {row : ReportTest} :
    Row.Test row ∈ view.rows ↔ row ∈ view.tests := by
  simp [rows]

theorem mem_children_of {view : ReportView} {parent child : String} :
    child ∈ view.children_of parent ↔
      ∃ row ∈ view.rows, row.uid = child ∧ row.link_gap = none ∧ parent ∈ row.traces_to := by
  simp only [children_of, mem_sortBy, List.mem_map, List.mem_filter, decide_eq_true_eq,
    index_children, List.mem_flatMap]
  constructor
  · rintro ⟨entry, ⟨⟨row, hrow, hentry⟩, hparent⟩, hchild⟩
    split at hentry
    · next hnone =>
      obtain ⟨target, htarget, rfl⟩ := List.mem_map.mp hentry
      exact ⟨row, hrow, hchild, Option.isNone_iff_eq_none.mp hnone, hparent ▸ htarget⟩
    · exact absurd hentry List.not_mem_nil
  · rintro ⟨row, hrow, rfl, hnone, hparent⟩
    refine ⟨(parent, row.uid), ⟨⟨row, hrow, ?_⟩, rfl⟩, rfl⟩
    rw [hnone, Option.isNone_none, if_pos rfl]
    exact List.mem_map.mpr ⟨parent, hparent, rfl⟩

end ReportView

/-! ## The rows of a graph -/

/-- The row of a node on which the projection succeeds. -/
def row_of (graph : CorpusGraph) (node : Node) : Option Row :=
  match report_row graph node with
  | .ok row => row
  | .error _ => none

/-- The rows of a graph, in uid order. -/
def graph_rows (graph : CorpusGraph) : List Row := graph.nodes.values.filterMap (row_of graph)

/-- What the loop over a row's edges collects. -/
theorem collect_links_ok {«from» : String} {kind : EdgeKind} {gap_at : String → Option String}
    {edges : List Edge} {links : List String × Option String}
    (h : collect_links «from» kind gap_at edges = .ok links) :
    (∀ edge ∈ edges, edge.1 = kind) ∧ links.1 = edges.map Prod.snd ∧
      links.2 = (edges.map Prod.snd).findSome? gap_at := by
  -- The loop is read from any targets and gap it may have collected before.
  have hloop : ∀ (edges : List Edge) (done : List String × Option String),
      edges.foldlM (fun links edge =>
        if edge.1 ≠ kind then Except.error (RequirementReportError.UnsupportedEdge «from» edge.1)
        else .ok (links.1 ++ [edge.2], links.2.orElse fun _ => gap_at edge.2)) done = .ok links →
      (∀ edge ∈ edges, edge.1 = kind) ∧ links.1 = done.1 ++ edges.map Prod.snd ∧
        links.2 = done.2.or ((edges.map Prod.snd).findSome? gap_at) := by
    intro edges
    induction edges with
    | nil =>
      intro done hdone
      rw [← Except.ok.inj hdone]
      simp
    | cons edge edges ih =>
      intro done hdone
      rw [List.foldlM_cons, bind_ok_iff] at hdone
      obtain ⟨next, hnext, hrest⟩ := hdone
      split at hnext
      · exact nomatch hnext
      · next hkind =>
        obtain ⟨hkinds, htargets, hgap⟩ := ih next hrest
        rw [← Except.ok.inj hnext] at htargets hgap
        refine ⟨List.forall_mem_cons.mpr ⟨not_not.mp hkind, hkinds⟩, ?_, ?_⟩
        · rw [htargets, List.append_assoc]
          rfl
        · rw [hgap, List.map_cons, List.findSome?_cons]
          cases done.2 with
          | some gap => rfl
          | none =>
            simp only [Option.orElse_none, Option.none_or]
            cases gap_at edge.2 <;> rfl
  have hstart := hloop edges ([], none) h
  rwa [List.nil_append, Option.none_or] at hstart

namespace Row

/-- The kind of requirement a row hangs under. -/
def parent_kind : Row → Option RequirementKind
  | Requirement .Sys _ => none
  | Requirement .Hlr _ => some .Sys
  | Requirement .Llr _ => some .Hlr
  | Test _ => some .Llr

end Row

theorem Row.parent_kind_requirement {layer above : RequirementLayer} {kind : RequirementKind}
    (row : ReportRequirement) (hkind : report_kind layer = some kind)
    (habove : expected_layer layer = some above) :
    ∃ parent, report_kind above = some parent ∧
      (Row.Requirement kind row).parent_kind = some parent := by
  cases layer <;> cases hkind <;> cases habove
  · exact ⟨.Sys, rfl, rfl⟩
  · exact ⟨.Hlr, rfl, rfl⟩

theorem requirement_link_gap_eq_none {graph : CorpusGraph} {requirement : RequirementNode}
    {target_uid : String} (h : requirement_link_gap graph requirement target_uid = none) :
    ∃ target, graph.get target_uid = some (.Requirement target) ∧
      expected_layer requirement.layer = some target.layer := by
  unfold requirement_link_gap at h
  split at h <;> try cases h
  next expected target hexpected hget =>
    refine ⟨target, hget, ?_⟩
    split_ifs at h with hlayer
    rw [hexpected, not_not.mp hlayer]

theorem test_link_gap_eq_none {graph : CorpusGraph} {test : TestNode} {target_uid : String}
    (h : test_link_gap graph test target_uid = none) :
    ∃ target, graph.get target_uid = some (.Requirement target) ∧ target.layer = .Llr := by
  unfold test_link_gap at h
  split at h <;> try cases h
  next target hget =>
    refine ⟨target, hget, ?_⟩
    split_ifs at h with hlayer
    exact not_not.mp hlayer

/-- **The row of a node**: it has the node's uid and the targets of its edges, which are
of the two kinds the report follows; and without a link gap every target is a
requirement of the layer the row hangs under. -/
structure RowOf (graph : CorpusGraph) (node : Node) (row : Row) : Prop where
  uid : row.uid = node.uid
  kinds : ∀ edge ∈ node.edges, edge.1 = .DerivesFrom ∨ edge.1 = .Verifies
  targets : row.traces_to = node.edges.map Prod.snd
  linked : row.link_gap = none → ∀ target_uid ∈ row.traces_to, ∃ target kind,
    graph.get target_uid = some (.Requirement target) ∧ report_kind target.layer = some kind ∧
      row.parent_kind = some kind

theorem rowOf_of_report_row {graph : CorpusGraph} {node : Node} {row : Row}
    (h : report_row graph node = .ok (some row)) : RowOf graph node row := by
  cases node with
  | Requirement requirement =>
    rw [report_row] at h
    split at h
    · cases h
    · next kind hkind =>
      obtain ⟨links, hlinks, hrow⟩ := bind_ok_iff.mp h
      rw [← Option.some.inj (Except.ok.inj hrow)]
      have hcollect : collect_links requirement.uid .DerivesFrom
          (requirement_link_gap graph requirement) requirement.edges = .ok links := by
        unfold requirement_links at hlinks
        cases hlayer : requirement.layer <;> rw [hlayer] at hkind hlinks <;>
          first | cases hkind; done | exact hlinks
      obtain ⟨hkinds, htargets, hgap⟩ := collect_links_ok hcollect
      refine ⟨rfl, fun edge hedge => .inl (hkinds edge hedge), htargets, fun hnone => ?_⟩
      intro target_uid htarget
      have hfind : links.2 = none := hnone
      rw [hgap, List.findSome?_eq_none_iff, ← htargets] at hfind
      obtain ⟨target, hget, hexpected⟩ := requirement_link_gap_eq_none (hfind target_uid htarget)
      obtain ⟨parent, habove, hparent⟩ := Row.parent_kind_requirement _ hkind hexpected
      exact ⟨target, parent, hget, habove, hparent⟩
  | Test test =>
    obtain ⟨links, hlinks, hrow⟩ := bind_ok_iff.mp h
    rw [← Option.some.inj (Except.ok.inj hrow)]
    obtain ⟨hkinds, htargets, hgap⟩ := collect_links_ok hlinks
    refine ⟨rfl, fun edge hedge => .inr (hkinds edge hedge), htargets, fun hnone => ?_⟩
    intro target_uid htarget
    have hfind : links.2 = none := hnone
    rw [hgap, List.findSome?_eq_none_iff, ← htargets] at hfind
    obtain ⟨target, hget, hlayer⟩ := test_link_gap_eq_none (hfind target_uid htarget)
    exact ⟨target, .Llr, hget, by rw [hlayer]; rfl, rfl⟩
  | Review review => exact nomatch h
  | SourceRevision revision => exact nomatch h

theorem row_of_eq_some {graph : CorpusGraph} {node : Node} {row : Row} :
    row_of graph node = some row ↔ report_row graph node = .ok (some row) := by
  unfold row_of
  cases report_row graph node <;> simp

theorem mem_graph_rows {graph : CorpusGraph} {row : Row} :
    row ∈ graph_rows graph ↔
      ∃ node, graph.get row.uid = some node ∧ report_row graph node = .ok (some row) := by
  simp only [graph_rows, List.mem_filterMap, row_of_eq_some]
  constructor
  · rintro ⟨node, hnode, hrow⟩
    refine ⟨node, ?_, hrow⟩
    rw [(rowOf_of_report_row hrow).uid]
    exact Store.mem_values.mp hnode
  · rintro ⟨node, hget, hrow⟩
    exact ⟨node, Store.mem_values_of_get hget, hrow⟩

theorem row_unique {graph : CorpusGraph} {row row' : Row} (h : row ∈ graph_rows graph)
    (h' : row' ∈ graph_rows graph) (huid : row.uid = row'.uid) : row = row' := by
  obtain ⟨node, hget, hrow⟩ := mem_graph_rows.mp h
  obtain ⟨node', hget', hrow'⟩ := mem_graph_rows.mp h'
  rw [huid, hget', Option.some.injEq] at hget
  rw [← hget, hrow', Except.ok.injEq, Option.some.injEq] at hrow
  exact hrow.symm

namespace ReportView

variable {graph : CorpusGraph} {view : ReportView}

/-- **A view sorts the rows of its graph into layers**, and has a row for every node of
a reported kind. -/
theorem from_graph_ok (h : from_graph graph = .ok view) :
    view =
      { sys := sortBy requirement_order ((graph_rows graph).filterMap (Row.as_requirement .Sys))
        hlrs := sortBy requirement_order ((graph_rows graph).filterMap (Row.as_requirement .Hlr))
        llrs := sortBy requirement_order ((graph_rows graph).filterMap (Row.as_requirement .Llr))
        tests := sortBy test_order ((graph_rows graph).filterMap Row.as_test) } ∧
    ∀ node ∈ graph.nodes.values, ∃ row, report_row graph node = .ok row := by
  obtain ⟨rows, hrows, hview⟩ := bind_ok_iff.mp h
  have hall := mapM_ok_iff.mp hrows
  have hsame : rows.filterMap id = graph_rows graph := by
    unfold graph_rows
    clear h hrows hview
    generalize graph.nodes.values = nodes at hall ⊢
    induction hall with
    | nil => rfl
    | @cons node row nodes rows hrow _ ih =>
      have hof : row_of graph node = row := by rw [row_of, hrow]
      rw [List.filterMap_cons, List.filterMap_cons, hof]
      cases row with
      | none => exact ih
      | some row => exact congrArg (row :: ·) ih
  refine ⟨?_, fun node hnode => ?_⟩
  · rw [← Except.ok.inj hview, hsame]
  · obtain ⟨i, hi, rfl⟩ := List.getElem_of_mem hnode
    exact ⟨_, (List.forall₂_iff_get.mp hall).2 i hi (hall.length_eq ▸ hi)⟩

end ReportView

end Evidence.Trace
