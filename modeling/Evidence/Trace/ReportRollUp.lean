/-
The requirement report as a roll-up.

A row without a link gap hangs under the targets of its edges, which are then
requirements of the layer above; what hangs under a row stands below it in `rank`.
The report files the verdict of every row exactly once, and builds a layer's
verdicts from those filed one layer below. `report_rollUp` puts the two together:
gaps and passes are rolled up along `HangsUnder`, from the gaps of the rows' own and
from the tests that passed.
-/
import Evidence.Lib.Lists
import Evidence.Lib.RollUp
import Evidence.Trace.RequirementReport

set_option autoImplicit false

namespace Evidence.Trace

open Corpus Check Relation Sorting
open Evidence.Bundle (Outcomes)

/-! ## What a requirement rests on -/

section Rests

variable (graph : CorpusGraph)

/-- A row without a link gap hangs under the targets of its edges. -/
def HangsUnder (parent child : String) : Prop :=
  ∃ row ∈ graph_rows graph, row.uid = child ∧ row.link_gap = none ∧ parent ∈ row.traces_to

/-- A row with a link gap. -/
def Mislinked (uid : String) : Prop :=
  ∃ row ∈ graph_rows graph, row.uid = uid ∧ row.link_gap ≠ none

variable (outcomes : Outcomes) (unresolved : List String) (policy : TracePolicy)

def has_structural_gap (kind : RequirementKind) (row : ReportRequirement) : Bool :=
  (structural_gap ⟨kind, row, "", ""⟩ policy).isSome

/-- A gap of the row's own: a test that is one, or a requirement with a structural gap
or with nothing hanging under it. -/
def OwnGap (uid : String) : Prop :=
  ∃ row ∈ graph_rows graph, row.uid = uid ∧
    match row with
    | .Test test => (build_test_diag test outcomes unresolved).1.status = .Gap
    | .Requirement kind requirement =>
      has_structural_gap policy kind requirement = true ∨ ∀ child, ¬ HangsUnder graph uid child

def PassedTest (uid : String) : Prop :=
  ∃ test, Row.Test test ∈ graph_rows graph ∧ test.uid = uid ∧
    (build_test_diag test outcomes unresolved).1.status = .Pass

/-- What hangs below a node supports it: none of it is a gap of its own, and among it is
a test that passed. -/
def Supported (uid : String) : Prop :=
  (∀ below, ReflTransGen (HangsUnder graph) uid below →
    ¬ OwnGap graph outcomes unresolved policy below) ∧
  ∃ below, ReflTransGen (HangsUnder graph) uid below ∧ PassedTest graph outcomes unresolved below

end Rests

/-! ## Layers -/

def RequirementKind.height : RequirementKind → ℕ
  | .Sys => 3
  | .Hlr => 2
  | .Llr => 1

/-- How far a node stands above the tests. -/
def rank (graph : CorpusGraph) (uid : String) : ℕ :=
  match graph.get uid with
  | some (.Requirement requirement) => (report_kind requirement.layer).elim 0 RequirementKind.height
  | _ => 0

theorem rank_eq {graph : CorpusGraph} {uid : String} {requirement : RequirementNode}
    {kind : RequirementKind} (hget : graph.get uid = some (.Requirement requirement))
    (hkind : report_kind requirement.layer = some kind) : rank graph uid = kind.height := by
  rw [rank, hget]
  simp only [hkind, Option.elim_some]

theorem report_row_requirement {graph : CorpusGraph} {node : Node} {kind : RequirementKind}
    {row : ReportRequirement} (h : report_row graph node = .ok (some (.Requirement kind row))) :
    ∃ requirement, node = .Requirement requirement ∧ report_kind requirement.layer = some kind := by
  cases node with
  | Requirement requirement =>
    rw [report_row] at h
    split at h
    · cases h
    · next kind' hkind =>
      obtain ⟨links, -, hrow⟩ := bind_ok_iff.mp h
      rw [Except.ok.injEq, Option.some.injEq, Row.Requirement.injEq] at hrow
      exact ⟨requirement, rfl, hrow.1 ▸ hkind⟩
  | Test test =>
    obtain ⟨links, -, hrow⟩ := bind_ok_iff.mp h
    cases hrow
  | Review review => cases h
  | SourceRevision revision => cases h

theorem kind_of_get {graph : CorpusGraph} {kind : RequirementKind} {row : ReportRequirement}
    (h : Row.Requirement kind row ∈ graph_rows graph) {requirement : RequirementNode}
    (hget : graph.get row.uid = some (.Requirement requirement)) :
    report_kind requirement.layer = some kind := by
  obtain ⟨node, hnode, hrow⟩ := mem_graph_rows.mp h
  obtain ⟨found, rfl, hkind⟩ := report_row_requirement hrow
  have hsame : some (Node.Requirement found) = some (.Requirement requirement) :=
    hnode.symm.trans hget
  cases hsame
  exact hkind

theorem report_row_test {graph : CorpusGraph} {node : Node} {row : ReportTest}
    (h : report_row graph node = .ok (some (.Test row))) : ∃ test, node = .Test test := by
  cases node with
  | Requirement requirement =>
    rw [report_row] at h
    split at h
    · cases h
    · obtain ⟨links, -, hrow⟩ := bind_ok_iff.mp h
      cases hrow
  | Test test => exact ⟨test, rfl⟩
  | Review review => cases h
  | SourceRevision revision => cases h

theorem parent_of_hangsUnder {graph : CorpusGraph} {row : Row} (hrow : row ∈ graph_rows graph)
    (hlinked : row.link_gap = none) {parent : String} (hparent : parent ∈ row.traces_to) :
    ∃ requirement kind, graph.get parent = some (.Requirement requirement) ∧
      report_kind requirement.layer = some kind ∧ row.parent_kind = some kind := by
  obtain ⟨node, -, hof⟩ := mem_graph_rows.mp hrow
  exact (rowOf_of_report_row hof).linked hlinked parent hparent

/-- **The layers descend**: what hangs under a node stands below it. -/
theorem rank_lt {graph : CorpusGraph} {parent child : String} (h : HangsUnder graph parent child) :
    rank graph child < rank graph parent := by
  obtain ⟨row, hrow, rfl, hlinked, hparent⟩ := h
  obtain ⟨requirement, kind, hget, hkind, habove⟩ := parent_of_hangsUnder hrow hlinked hparent
  rw [rank_eq hget hkind]
  obtain ⟨node, hnode, hof⟩ := mem_graph_rows.mp hrow
  cases row with
  | Requirement own row =>
    obtain ⟨found, rfl, hown⟩ := report_row_requirement hof
    rw [rank_eq hnode hown]
    revert habove
    cases own <;> cases kind <;> simp [Row.parent_kind, RequirementKind.height]
  | Test test =>
    obtain ⟨found, rfl⟩ := report_row_test hof
    rw [rank, hnode]
    cases kind <;> simp [RequirementKind.height]

theorem hangsUnder_wellFounded (graph : CorpusGraph) :
    WellFounded fun child parent => HangsUnder graph parent child :=
  Subrelation.wf (fun h => rank_lt h) (measure (rank graph)).wf

theorem parent_row {graph : CorpusGraph}
    (hall : ∀ node ∈ graph.nodes.values, ∃ row, report_row graph node = .ok row) {row : Row}
    (hrow : row ∈ graph_rows graph) (hlinked : row.link_gap = none) {parent : String}
    (hparent : parent ∈ row.traces_to) :
    ∃ kind above, Row.Requirement kind above ∈ graph_rows graph ∧ above.uid = parent ∧
      row.parent_kind = some kind := by
  obtain ⟨requirement, kind, hget, hkind, habove⟩ := parent_of_hangsUnder hrow hlinked hparent
  obtain ⟨found, hfound⟩ := hall _ (Store.mem_values_of_get hget)
  have hreport := hfound
  rw [report_row] at hreport
  simp only [hkind] at hreport
  obtain ⟨links, -, hof⟩ := bind_ok_iff.mp hreport
  rw [← Except.ok.inj hof] at hfound
  have hkey := Store.key_of_get hget
  have huid : requirement.uid = parent := hkey
  subst huid
  refine ⟨kind, _, mem_graph_rows.mpr ⟨_, ?_, hfound⟩, rfl, habove⟩
  exact hget

/-! ## The statuses of a layer -/

theorem graph_rows_nodup (graph : CorpusGraph) : ((graph_rows graph).map Row.uid).Nodup :=
  (graph.nodes.values_keys_nodup).sublist
    (Lists.map_filterMap_sublist (fun _ _ h => (rowOf_of_report_row (row_of_eq_some.mp h)).uid) _)

/-- A layer without a repeated uid files the status of each of its rows. -/
theorem statuses_get_iff {layer : List Reported} (hnodup : (layer.map Prod.fst).Nodup)
    {u : String} {entry : String × TestStatus} :
    (statuses layer).get u = some entry ↔ entry.1 = u ∧ ∃ r ∈ layer, (r.1, r.2.1) = entry := by
  have hkeys : ((layer.map fun r => (r.1, r.2.1)).map Prod.fst).Nodup := by
    rw [List.map_map]
    exact hnodup
  have hmem := @Store.mem_values_ofList _ _ _ _ _ Prod.fst _ _ hkeys entry
  rw [Store.mem_values, List.mem_map] at hmem
  constructor
  · intro h
    have hkey : entry.1 = u := Store.key_of_get h
    exact ⟨hkey, hmem.mp (hkey ▸ h)⟩
  · rintro ⟨rfl, hr⟩
    exact hmem.mpr hr

/-- The statuses of a layer without a repeated uid are those of its rows. -/
theorem child_status_is_iff {layer : List Reported} (hnodup : (layer.map Prod.fst).Nodup)
    {u : String} {s : RequirementStatus} :
    child_status_is (statuses layer) u s ↔ ∃ r ∈ layer, r.1 = u ∧ r.2.1.status = s := by
  unfold child_status_is
  constructor
  · intro h
    obtain ⟨st, hst, hstatus⟩ := Option.map_eq_some_iff.mp h
    obtain ⟨entry, hentry, rfl⟩ := Option.map_eq_some_iff.mp hst
    obtain ⟨hu, r, hr, rfl⟩ := (statuses_get_iff hnodup).mp hentry
    exact ⟨r, hr, hu, hstatus⟩
  · rintro ⟨r, hr, hu, hstatus⟩
    rw [(statuses_get_iff hnodup).mpr ⟨hu, r, hr, rfl⟩, Option.map_some, Option.map_some, hstatus]

/-! ## The verdict of a requirement -/

theorem structural_gap_isSome (entry : CascadeEntry) (policy : TracePolicy) :
    (structural_gap entry policy).isSome = has_structural_gap policy entry.kind entry.row := by
  unfold has_structural_gap structural_gap
  cases entry.row.link_gap with
  | some message => rfl
  | none =>
    simp only
    split_ifs <;> rfl

section Cascade

variable {entry : CascadeEntry} {us : List String} {child_status : Statuses} {policy : TracePolicy}

theorem cascade_gap_iff :
    (build_cascade_diag entry us child_status policy).1.status = .Gap ↔
      has_structural_gap policy entry.kind entry.row = true ∨ us = [] ∨
        ∃ u ∈ us, child_status_is child_status u .Gap := by
  rw [← structural_gap_isSome, ← aggregate_gap_iff]
  unfold build_cascade_diag
  cases hgap : structural_gap entry policy with
  | some gap => simp [direct_gap]
  | none =>
    by_cases hempty : us = []
    · simp [hempty, direct_gap]
    · have hfalse : us.isEmpty = false := List.isEmpty_eq_false_iff.mpr hempty
      simp only [hfalse, Bool.false_eq_true, if_false, Option.isSome_none, hempty, false_or]

theorem cascade_pass_iff (hall : ∀ u ∈ us, ∃ s, child_status_is child_status u s) :
    (build_cascade_diag entry us child_status policy).1.status = .Pass ↔
      ¬ (build_cascade_diag entry us child_status policy).1.status = .Gap ∧
        ∃ u ∈ us, child_status_is child_status u .Pass := by
  unfold build_cascade_diag
  cases hgap : structural_gap entry policy with
  | some gap => simp [direct_gap]
  | none =>
    by_cases hempty : us = []
    · simp [hempty, direct_gap]
    · have hfalse : us.isEmpty = false := List.isEmpty_eq_false_iff.mpr hempty
      simp only [hfalse, Bool.false_eq_true, if_false]
      rw [aggregate_pass_iff hempty hall, aggregate_gap_iff]

end Cascade

/-! ## The report, layer by layer -/

section Report

variable {graph : CorpusGraph} {view : ReportView} {outcomes : Outcomes}
  {unresolved : List String} {policy : TracePolicy}

def reports_below (view : ReportView) (outcomes : Outcomes) (unresolved : List String)
    (policy : TracePolicy) : RequirementKind → List Reported
  | .Llr => build_tests view outcomes unresolved
  | .Hlr => build_layer view .Llr (statuses (build_tests view outcomes unresolved)) policy
  | .Sys =>
    build_layer view .Hlr
      (statuses (build_layer view .Llr (statuses (build_tests view outcomes unresolved)) policy))
      policy

/-- The verdicts of a row's layer. -/
def reports_of (view : ReportView) (outcomes : Outcomes) (unresolved : List String)
    (policy : TracePolicy) : Row → List Reported
  | .Test _ => build_tests view outcomes unresolved
  | .Requirement kind _ =>
    build_layer view kind (statuses (reports_below view outcomes unresolved policy kind)) policy

theorem reports_of_eq_below {row : Row} {kind : RequirementKind}
    (h : row.parent_kind = some kind) :
    reports_of view outcomes unresolved policy row =
      reports_below view outcomes unresolved policy kind := by
  cases row with
  | Test test =>
    cases h
    rfl
  | Requirement own row => cases own <;> cases h <;> rfl

theorem mem_layer (h : ReportView.from_graph graph = .ok view) {kind : RequirementKind}
    {row : ReportRequirement} :
    row ∈ view.layer kind ↔ Row.Requirement kind row ∈ graph_rows graph := by
  have has : ∀ other, Row.as_requirement kind other = some row ↔ other = .Requirement kind row := by
    intro other
    cases other with
    | Test test => simp [Row.as_requirement]
    | Requirement kind' row' =>
      simp only [Row.as_requirement, Row.Requirement.injEq]
      split_ifs with hkind
      · simp [hkind]
      · simp [hkind]
  rw [(ReportView.from_graph_ok h).1]
  cases kind <;>
    simp only [ReportView.layer, mem_sortBy, List.mem_filterMap, has, exists_eq_right]

theorem mem_tests (h : ReportView.from_graph graph = .ok view) {row : ReportTest} :
    row ∈ view.tests ↔ Row.Test row ∈ graph_rows graph := by
  have has : ∀ other, Row.as_test other = some row ↔ other = .Test row := by
    intro other
    cases other <;> simp [Row.as_test]
  rw [(ReportView.from_graph_ok h).1]
  simp only [mem_sortBy, List.mem_filterMap, has, exists_eq_right]

theorem mem_view_rows (h : ReportView.from_graph graph = .ok view) {row : Row} :
    row ∈ view.rows ↔ row ∈ graph_rows graph := by
  cases row with
  | Requirement kind row => rw [ReportView.mem_rows_requirement, mem_layer h]
  | Test row => rw [ReportView.mem_rows_test, mem_tests h]

theorem mem_children_iff (h : ReportView.from_graph graph = .ok view) {parent child : String} :
    child ∈ view.children_of parent ↔ HangsUnder graph parent child := by
  rw [ReportView.mem_children_of]
  simp only [HangsUnder, mem_view_rows h]

theorem of_mem_build_layer {kind : RequirementKind} {child_status : Statuses} {r : Reported}
    (hr : r ∈ build_layer view kind child_status policy) :
    ∃ entry : CascadeEntry, entry.kind = kind ∧ entry.row ∈ view.layer kind ∧
      r = (entry.row.uid,
        build_cascade_diag entry (view.children_of entry.row.uid) child_status policy) := by
  obtain ⟨indexed, hindexed, rfl⟩ := List.mem_map.mp hr
  exact ⟨⟨kind, indexed.1, "requirements[" ++ decimal indexed.2 ++ "]", file_name kind⟩, rfl,
    List.fst_mem_of_mem_zipIdx hindexed, rfl⟩

theorem map_fst_build_layer {kind : RequirementKind} {child_status : Statuses} :
    (build_layer view kind child_status policy).map Prod.fst =
      (view.layer kind).map ReportRequirement.uid := by
  have hfst : (view.layer kind).zipIdx.map Prod.fst = view.layer kind := List.zipIdx_map_fst _ _
  rw [build_layer, List.map_map]
  conv_rhs => rw [← hfst]
  rw [List.map_map]
  rfl

theorem exists_report (h : ReportView.from_graph graph = .ok view) {row : Row}
    (hrow : row ∈ graph_rows graph) :
    ∃ r ∈ reports_of view outcomes unresolved policy row, r.1 = row.uid := by
  have hmem : row.uid ∈ (reports_of view outcomes unresolved policy row).map Prod.fst := by
    cases row with
    | Test test =>
      refine List.mem_map.mpr ⟨_, List.mem_map_of_mem ((mem_tests h).mpr hrow), rfl⟩
    | Requirement kind row =>
      rw [reports_of, map_fst_build_layer]
      exact List.mem_map_of_mem ((mem_layer h).mpr hrow)
  exact List.mem_map.mp hmem

/-- No uid is reported twice in a layer. -/
theorem reports_of_nodup (h : ReportView.from_graph graph = .ok view) (row : Row) :
    ((reports_of view outcomes unresolved policy row).map Prod.fst).Nodup := by
  have hnodup := graph_rows_nodup graph
  cases row with
  | Test test =>
    have hperm : (view.tests.map ReportTest.uid).Perm
        (((graph_rows graph).filterMap Row.as_test).map ReportTest.uid) := by
      rw [(ReportView.from_graph_ok h).1]
      exact (sortBy_perm _).map _
    rw [reports_of, build_tests, List.map_map]
    refine (hperm.nodup_iff).mpr (hnodup.sublist (Lists.map_filterMap_sublist ?_ _))
    intro other test' hother
    cases other <;> cases hother
    rfl
  | Requirement kind row =>
    have hperm : ((view.layer kind).map ReportRequirement.uid).Perm
        (((graph_rows graph).filterMap (Row.as_requirement kind)).map ReportRequirement.uid) := by
      rw [(ReportView.from_graph_ok h).1]
      cases kind <;> exact (sortBy_perm _).map _
    rw [reports_of, map_fst_build_layer]
    refine (hperm.nodup_iff).mpr (hnodup.sublist (Lists.map_filterMap_sublist ?_ _))
    intro other found hother
    cases other with
    | Test test => cases hother
    | Requirement kind' row' =>
      rw [Row.as_requirement] at hother
      split_ifs at hother
      cases hother
      rfl

theorem mem_build_rows (h : ReportView.from_graph graph = .ok view) {r : Reported} :
    r ∈ build_rows view outcomes unresolved policy ↔
      ∃ row ∈ graph_rows graph, row.uid = r.1 ∧
        r ∈ reports_of view outcomes unresolved policy row := by
  have hrows : r ∈ build_rows view outcomes unresolved policy ↔
      r ∈ build_tests view outcomes unresolved ∨
        ∃ kind, r ∈ build_layer view kind
          (statuses (reports_below view outcomes unresolved policy kind)) policy := by
    unfold build_rows
    simp only [List.mem_append, or_assoc]
    constructor
    · rintro (htest | hllr | hhlr | hsys)
      · exact .inl htest
      · exact .inr ⟨.Llr, hllr⟩
      · exact .inr ⟨.Hlr, hhlr⟩
      · exact .inr ⟨.Sys, hsys⟩
    · rintro (htest | ⟨kind, hkind⟩)
      · exact .inl htest
      · cases kind with
        | Sys => exact .inr (.inr (.inr hkind))
        | Hlr => exact .inr (.inr (.inl hkind))
        | Llr => exact .inr (.inl hkind)
  rw [hrows]
  constructor
  · rintro (htest | ⟨kind, hkind⟩)
    · obtain ⟨test, hmem, rfl⟩ := List.mem_map.mp htest
      exact ⟨.Test test, (mem_tests h).mp hmem, rfl, htest⟩
    · obtain ⟨entry, -, hmem, rfl⟩ := of_mem_build_layer hkind
      exact ⟨.Requirement kind entry.row, (mem_layer h).mp hmem, rfl, hkind⟩
  · rintro ⟨row, -, -, hr⟩
    cases row with
    | Test test => exact .inl hr
    | Requirement kind row => exact .inr ⟨kind, hr⟩

/-- **No uid is reported twice.** -/
theorem reported_unique (h : ReportView.from_graph graph = .ok view) {r r' : Reported}
    (hr : r ∈ build_rows view outcomes unresolved policy)
    (hr' : r' ∈ build_rows view outcomes unresolved policy) (huid : r.1 = r'.1) : r = r' := by
  obtain ⟨row, hrow, hkey, hmem⟩ := (mem_build_rows h).mp hr
  obtain ⟨row', hrow', hkey', hmem'⟩ := (mem_build_rows h).mp hr'
  have hsame : row = row' := row_unique hrow hrow' (hkey.trans (huid.trans hkey'.symm))
  subst hsame
  exact List.inj_on_of_nodup_map (reports_of_nodup h row) hmem hmem' huid

/-! ## The report rolls up -/

/-- The report gives a node this status. -/
def HasStatus (view : ReportView) (outcomes : Outcomes) (unresolved : List String)
    (policy : TracePolicy) (s : RequirementStatus) (uid : String) : Prop :=
  ∃ r ∈ build_rows view outcomes unresolved policy, r.1 = uid ∧ r.2.1.status = s

theorem child_status_iff_hasStatus (h : ReportView.from_graph graph = .ok view)
    {kind : RequirementKind} {child : Row} (hchild : child ∈ graph_rows graph)
    (habove : child.parent_kind = some kind) {s : RequirementStatus} :
    child_status_is (statuses (reports_below view outcomes unresolved policy kind)) child.uid s ↔
      HasStatus view outcomes unresolved policy s child.uid := by
  rw [← reports_of_eq_below habove, child_status_is_iff (reports_of_nodup h child)]
  constructor
  · rintro ⟨r, hr, huid, hstatus⟩
    exact ⟨r, (mem_build_rows h).mpr ⟨child, hchild, huid.symm, hr⟩, huid, hstatus⟩
  · rintro ⟨r, hr, huid, hstatus⟩
    obtain ⟨row, hrow, hkey, hmem⟩ := (mem_build_rows h).mp hr
    have hsame : row = child := row_unique hrow hchild (hkey.trans huid)
    exact ⟨r, hsame ▸ hmem, huid, hstatus⟩

theorem requirement_verdict (h : ReportView.from_graph graph = .ok view) {kind : RequirementKind}
    {row : ReportRequirement} {r : Reported}
    (hr : r ∈ reports_of view outcomes unresolved policy (.Requirement kind row))
    (huid : r.1 = row.uid) (hrow : Row.Requirement kind row ∈ graph_rows graph) :
    (r.2.1.status = .Gap ↔ has_structural_gap policy kind row = true ∨
      (∀ child, ¬ HangsUnder graph row.uid child) ∨
      ∃ child, HangsUnder graph row.uid child ∧
        HasStatus view outcomes unresolved policy .Gap child) ∧
    (r.2.1.status = .Pass ↔ ¬ r.2.1.status = .Gap ∧
      ∃ child, HangsUnder graph row.uid child ∧
        HasStatus view outcomes unresolved policy .Pass child) := by
  obtain ⟨entry, hkind, hmem, rfl⟩ := of_mem_build_layer hr
  have hsame : Row.Requirement kind entry.row = .Requirement kind row :=
    row_unique ((mem_layer h).mp hmem) hrow huid
  rw [Row.Requirement.injEq] at hsame
  obtain ⟨-, rfl⟩ := hsame
  -- A child's status is filed below the row's own kind.
  have hfiled : ∀ child, HangsUnder graph entry.row.uid child → ∀ s,
      child_status_is (statuses (reports_below view outcomes unresolved policy kind)) child s ↔
        HasStatus view outcomes unresolved policy s child := by
    rintro child ⟨below, hbelow, rfl, hlinked, hparent⟩ s
    obtain ⟨requirement, kind', hget, hkind', habove⟩ := parent_of_hangsUnder hbelow hlinked hparent
    rw [kind_of_get hrow hget, Option.some.injEq] at hkind'
    exact child_status_iff_hasStatus h hbelow (hkind' ▸ habove)
  have hchildren : ∀ child, child ∈ view.children_of entry.row.uid ↔
      HangsUnder graph entry.row.uid child := fun child => mem_children_iff h
  have hfind : ∀ s, (∃ u ∈ view.children_of entry.row.uid,
      child_status_is (statuses (reports_below view outcomes unresolved policy kind)) u s) ↔
      ∃ child, HangsUnder graph entry.row.uid child ∧
        HasStatus view outcomes unresolved policy s child := by
    intro s
    constructor
    · rintro ⟨u, hu, hs⟩
      exact ⟨u, (hchildren u).mp hu, (hfiled u ((hchildren u).mp hu) s).mp hs⟩
    · rintro ⟨u, hu, hs⟩
      exact ⟨u, (hchildren u).mpr hu, (hfiled u hu s).mpr hs⟩
  have hall : ∀ u ∈ view.children_of entry.row.uid, ∃ s,
      child_status_is (statuses (reports_below view outcomes unresolved policy kind)) u s := by
    intro u hu
    have hhangs := (hchildren u).mp hu
    obtain ⟨below, hbelow, rfl, -, -⟩ := hhangs
    obtain ⟨r, hr, hkey⟩ := @exists_report _ _ outcomes unresolved policy h _ hbelow
    refine ⟨r.2.1.status, (hfiled _ ((hchildren _).mp hu) _).mpr ⟨r, ?_, hkey, rfl⟩⟩
    exact (mem_build_rows h).mpr ⟨below, hbelow, hkey.symm, hr⟩
  have hempty : view.children_of entry.row.uid = [] ↔
      ∀ child, ¬ HangsUnder graph entry.row.uid child := by
    rw [List.eq_nil_iff_forall_not_mem]
    simp only [hchildren]
  constructor
  · rw [cascade_gap_iff, hfind, hempty, hkind]
  · rw [cascade_pass_iff hall, hfind]

/-- **The report is rolled up along `HangsUnder`.** -/
theorem report_rollUp (h : ReportView.from_graph graph = .ok view) :
    RollUp (HangsUnder graph) (OwnGap graph outcomes unresolved policy)
      (PassedTest graph outcomes unresolved)
      (HasStatus view outcomes unresolved policy .Gap)
      (HasStatus view outcomes unresolved policy .Pass) := by
  -- Whatever something hangs under is a requirement with a verdict.
  have hparent : ∀ {parent child}, HangsUnder graph parent child →
      ∃ kind row r, Row.Requirement kind row ∈ graph_rows graph ∧ row.uid = parent ∧
        r ∈ reports_of view outcomes unresolved policy (.Requirement kind row) ∧ r.1 = row.uid := by
    rintro parent child ⟨below, hbelow, -, hlinked, htraces⟩
    obtain ⟨kind, row, hrow, huid, -⟩ :=
      parent_row (ReportView.from_graph_ok h).2 hbelow hlinked htraces
    obtain ⟨r, hr, hkey⟩ := @exists_report _ _ outcomes unresolved policy h _ hrow
    exact ⟨kind, row, r, hrow, huid, hr, hkey⟩
  have hreported : ∀ {row : Row} {r : Reported}, row ∈ graph_rows graph →
      r ∈ reports_of view outcomes unresolved policy row → r.1 = row.uid →
      r ∈ build_rows view outcomes unresolved policy :=
    fun hrow hr hkey => (mem_build_rows h).mpr ⟨_, hrow, hkey.symm, hr⟩
  constructor
  · intro uid
    constructor
    · rintro ⟨r, hr, rfl, hstatus⟩
      obtain ⟨row, hrow, hkey, hmem⟩ := (mem_build_rows h).mp hr
      cases row with
      | Test test =>
        obtain ⟨test', htest', rfl⟩ := List.mem_map.mp hmem
        exact .inl ⟨.Test test', (mem_tests h).mp htest', rfl, hstatus⟩
      | Requirement kind row =>
        rcases (requirement_verdict h hmem hkey.symm hrow).1.mp hstatus with hgap | hnone | hbelow
        · exact .inl ⟨_, hrow, hkey, .inl hgap⟩
        · exact .inl ⟨_, hrow, hkey, .inr (hkey ▸ hnone)⟩
        · exact .inr (hkey ▸ hbelow)
    · rintro (⟨row, hrow, rfl, hown⟩ | ⟨child, hhangs, hgap⟩)
      · obtain ⟨r, hr, hkey⟩ := @exists_report _ _ outcomes unresolved policy h _ hrow
        refine ⟨r, hreported hrow hr hkey, hkey, ?_⟩
        cases row with
        | Test test =>
          obtain ⟨test', htest', rfl⟩ := List.mem_map.mp hr
          have hsame : Row.Test test' = .Test test :=
            row_unique ((mem_tests h).mp htest') hrow hkey
          rw [Row.Test.injEq] at hsame
          rw [hsame]
          exact hown
        | Requirement kind row =>
          refine (requirement_verdict h hr hkey hrow).1.mpr ?_
          rcases hown with hgap | hnone
          · exact .inl hgap
          · exact .inr (.inl hnone)
      · obtain ⟨kind, row, r, hrow, rfl, hr, hkey⟩ := hparent hhangs
        exact ⟨r, hreported hrow hr hkey, hkey,
          (requirement_verdict h hr hkey hrow).1.mpr (.inr (.inr ⟨child, hhangs, hgap⟩))⟩
  · intro uid
    constructor
    · rintro ⟨r, hr, rfl, hstatus⟩
      refine ⟨?_, ?_⟩
      · rintro ⟨r', hr', hkey', hgap⟩
        rw [reported_unique h hr' hr hkey', hstatus] at hgap
        cases hgap
      · obtain ⟨row, hrow, hkey, hmem⟩ := (mem_build_rows h).mp hr
        cases row with
        | Test test =>
          obtain ⟨test', htest', rfl⟩ := List.mem_map.mp hmem
          exact .inl ⟨test', (mem_tests h).mp htest', rfl, hstatus⟩
        | Requirement kind row =>
          have hbelow := ((requirement_verdict h hmem hkey.symm hrow).2.mp hstatus).2
          exact .inr (hkey ▸ hbelow)
    · rintro ⟨hnogap, ⟨test, htest, rfl, hpass⟩ | ⟨child, hhangs, hpass⟩⟩
      · refine ⟨(test.uid, build_test_diag test outcomes unresolved), ?_, rfl, hpass⟩
        exact hreported htest (List.mem_map_of_mem ((mem_tests h).mpr htest)) rfl
      · obtain ⟨kind, row, r, hrow, rfl, hr, hkey⟩ := hparent hhangs
        have hmem := hreported hrow hr hkey
        refine ⟨r, hmem, hkey, (requirement_verdict h hr hkey hrow).2.mpr
          ⟨fun hgap => hnogap ⟨r, hmem, hkey, hgap⟩, child, hhangs, hpass⟩⟩

end Report

end Evidence.Trace
