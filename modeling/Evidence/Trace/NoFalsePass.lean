/-
When the requirement report passes nothing above a gap.

Read along `HangsUnder` the report is exact: a requirement passes when no row below
it is a gap of its own and a test below it passed. What the roll-up does not see are
the rows with a link gap: they are reported as gaps and are nobody's children, not
even along the edges that are as they should be. A path of edges either hangs
together or has such a row on it, so a pass stands above a gap exactly where such a
row reaches a requirement that its other descendants support.
-/
import Evidence.Trace.ReportRollUp

set_option autoImplicit false

namespace Evidence.Trace

open Corpus Check Relation
open Evidence.Bundle (Outcomes)

/-! ## The property -/

section Property

variable (graph : CorpusGraph)

/-- An edge the report follows, from a child to its parent. -/
def ChildEdge (child parent : String) : Prop :=
  ∃ node, graph.get child = some node ∧
    ∃ edge ∈ node.edges, (edge.1 = .DerivesFrom ∨ edge.1 = .Verifies) ∧ edge.2 = parent

/-- A SYS, HLR or LLR node. -/
def IsRequirement (uid : String) : Prop :=
  ∃ requirement, graph.get uid = some (.Requirement requirement) ∧
    (report_kind requirement.layer).isSome = true

/-- A diagnostic of the report gives a node this status. -/
def ReportedAs (diagnostics : List Diagnostic) (uid : String) (status : RequirementStatus) : Prop :=
  ∃ diagnostic ∈ diagnostics, diagnostic.code = status.code ∧
    ∃ place, diagnostic.location = some place ∧ place.entry_uid = some uid

/-- No requirement is reported as passed above a node that is reported as a gap. -/
def NoFalsePass (diagnostics : List Diagnostic) : Prop :=
  ∀ parent child, IsRequirement graph parent → ReportedAs diagnostics parent .Pass →
    TransGen (ChildEdge graph) child parent → ¬ ReportedAs diagnostics child .Gap

end Property

/-! ## Paths -/

/-- **A path of edges either hangs together or has a mislinked node on it.** -/
theorem mislinked_or_hangs {graph : CorpusGraph}
    (hall : ∀ node ∈ graph.nodes.values, ∃ row, report_row graph node = .ok row)
    {parent child : String} (hpath : TransGen (ChildEdge graph) child parent)
    (hrow : ∃ row ∈ graph_rows graph, row.uid = child) :
    (∃ bad, Mislinked graph bad ∧ TransGen (ChildEdge graph) bad parent) ∨
      ReflTransGen (HangsUnder graph) parent child := by
  -- An edge of a row without a link gap leads to what the row hangs under.
  have hedge : ∀ {c d : String} {row : Row}, row ∈ graph_rows graph → row.uid = c →
      row.link_gap = none → ChildEdge graph c d → HangsUnder graph d c := by
    rintro c d row hrow huid hnone ⟨node, hget, edge, hedge, -, rfl⟩
    obtain ⟨found, hfound, hof⟩ := mem_graph_rows.mp hrow
    rw [huid, hget, Option.some.injEq] at hfound
    refine ⟨row, hrow, huid, hnone, ?_⟩
    rw [(rowOf_of_report_row hof).targets, ← hfound]
    exact List.mem_map_of_mem hedge
  induction hpath using TransGen.head_induction_on with
  | single hlast =>
    obtain ⟨row, hmem, huid⟩ := hrow
    by_cases hnone : row.link_gap = none
    · exact .inr (.single (hedge hmem huid hnone hlast))
    · exact .inl ⟨_, ⟨row, hmem, huid, hnone⟩, .single hlast⟩
  | head hfirst hrest ih =>
    obtain ⟨row, hmem, huid⟩ := hrow
    by_cases hnone : row.link_gap = none
    · have hhangs := hedge hmem huid hnone hfirst
      obtain ⟨row', hmem', -, hnone', hparent'⟩ := hhangs
      obtain ⟨kind, above, habove, huid', -⟩ := parent_row hall hmem' hnone' hparent'
      rcases ih ⟨_, habove, huid'⟩ with hbad | hbelow
      · exact .inl hbad
      · exact .inr (hbelow.tail (hedge hmem huid hnone hfirst))
    · exact .inl ⟨_, ⟨row, hmem, huid, hnone⟩, .head hfirst hrest⟩

/-! ## What the report shows -/

section Report

variable {graph : CorpusGraph} {view : ReportView} {outcomes : Outcomes}
  {unresolved : List String} {policy : TracePolicy}

theorem names_build_rows {r : Reported} (hr : r ∈ build_rows view outcomes unresolved policy) :
    Names r.1 r.2 := by
  have hlayer : ∀ {kind child_status}, ∀ r ∈ build_layer view kind child_status policy,
      Names r.1 r.2 := by
    intro kind child_status r hr
    obtain ⟨entry, -, -, rfl⟩ := of_mem_build_layer hr
    exact names_build_cascade_diag entry _ _ _
  simp only [build_rows, List.mem_append] at hr
  rcases hr with ((htest | hllr) | hhlr) | hsys
  · obtain ⟨test, -, rfl⟩ := List.mem_map.mp htest
    exact names_build_test_diag test outcomes unresolved
  · exact hlayer r hllr
  · exact hlayer r hhlr
  · exact hlayer r hsys

/-- The diagnostics of the report are its verdicts. -/
theorem reportedAs_iff {s : RequirementStatus} {uid : String} :
    ReportedAs ((build_rows view outcomes unresolved policy).map fun reported => reported.2.2)
        uid s ↔
      HasStatus view outcomes unresolved policy s uid := by
  constructor
  · rintro ⟨diagnostic, hmem, hcode, place, hplace, huid⟩
    obtain ⟨r, hr, rfl⟩ := List.mem_map.mp hmem
    obtain ⟨hstatus, place', hplace', huid'⟩ := names_build_rows hr
    rw [hplace', Option.some.injEq] at hplace
    rw [hplace, huid, Option.some.injEq] at huid'
    exact ⟨r, hr, huid'.symm, RequirementStatus.code_inj (hstatus.symm.trans hcode)⟩
  · rintro ⟨r, hr, rfl, rfl⟩
    obtain ⟨hstatus, place, hplace, huid⟩ := names_build_rows hr
    exact ⟨r.2.2, List.mem_map_of_mem hr, hstatus, place, hplace, huid⟩

theorem ownGap_of_mislinked {uid : String} (h : Mislinked graph uid) :
    OwnGap graph outcomes unresolved policy uid := by
  obtain ⟨row, hrow, huid, hlink⟩ := h
  obtain ⟨message, hmessage⟩ := Option.ne_none_iff_exists'.mp hlink
  refine ⟨row, hrow, huid, ?_⟩
  cases row with
  | Test test =>
    have hgap : test.link_gap = some message := hmessage
    simp only [build_test_diag, hgap, test_gap]
  | Requirement kind row =>
    have hgap : row.link_gap = some message := hmessage
    refine .inl ?_
    simp only [has_structural_gap, structural_gap, hgap, Option.isSome_some]

end Report

/-! ## No false pass -/

/-- **The report passes nothing above a gap, exactly when no node with a link gap reaches
a requirement that what hangs below it supports.** -/
theorem no_false_pass_iff {resolve_selector_inputs : List (String × List String) → List String}
    {graph : CorpusGraph} {outcomes : Outcomes} {policy : TracePolicy} {view : ReportView}
    {diagnostics : List Diagnostic} (hview : ReportView.from_graph graph = .ok view)
    (hreport : build_corpus_requirement_report resolve_selector_inputs graph outcomes policy =
      .ok diagnostics) :
    NoFalsePass graph diagnostics ↔
      ∀ parent child, IsRequirement graph parent →
        Supported graph outcomes (resolve_selector_inputs view.selector_inputs) policy parent →
        TransGen (ChildEdge graph) child parent → ¬ Mislinked graph child := by
  have hdiagnostics : (build_rows view outcomes (resolve_selector_inputs view.selector_inputs)
      policy).map (fun reported => reported.2.2) = diagnostics := by
    rw [build_corpus_requirement_report, hview] at hreport
    exact Except.ok.inj hreport
  have hroll := @report_rollUp _ _ outcomes (resolve_selector_inputs view.selector_inputs) policy
    hview
  have hwf := hangsUnder_wellFounded graph
  unfold NoFalsePass
  simp only [← hdiagnostics, reportedAs_iff]
  constructor
  · intro hsafe parent child hparent hsupported hpath hbad
    refine hsafe parent child hparent ((hroll.pass_iff_below hwf).mpr hsupported) hpath ?_
    exact (hroll.gap_iff _).mpr (.inl (ownGap_of_mislinked hbad))
  · intro hsafe parent child hparent hpass hpath hgap
    have hclean := ((hroll.pass_iff _).mp hpass).1
    have hsupported := (hroll.pass_iff_below hwf).mp hpass
    obtain ⟨r, hr, hchild, -⟩ := id hgap
    obtain ⟨row, hrow, hkey, -⟩ := (mem_build_rows hview).mp hr
    rcases mislinked_or_hangs (ReportView.from_graph_ok hview).2 hpath
      ⟨row, hrow, hkey.trans hchild⟩ with ⟨bad, hbad, hreach⟩ | hbelow
    · exact hsafe parent bad hparent hsupported hreach hbad
    · exact hclean (hroll.gap_of_below hbelow hgap)

/-! ## A test above its layer -/

def small_requirement (uid id : String) (layer : RequirementLayer) (edges : List Edge) : Node :=
  .Requirement
    { uid := uid
      id := id
      title := id
      layer := layer
      edges := edges
      description := none
      rationale := none
      scope := none
      category := none
      source := none
      verification_methods := []
      safety_impact := none }

/-- A test of a small trace, with the one selector of its run. -/
def small_test (uid id : String) (edges : List Edge) : Node :=
  .Test ⟨uid, id, id, ["passes"], edges⟩

/-- Two tests verify the low-level requirement; the second also verifies the high-level
one, and is no child of either for it. -/
def crossed_trace : CorpusGraph :=
  { CorpusGraph.new with
    nodes := Store.ofList
      [small_requirement "hlr" "HLR-1" .Hlr [],
        small_requirement "llr" "LLR-1" .Llr [(.DerivesFrom, "hlr")],
        small_test "test" "TEST-1" [(.Verifies, "llr")],
        small_test "crossed" "TEST-2" [(.Verifies, "llr"), (.Verifies, "hlr")]] }

/-- The one test function passed. -/
def small_run : Outcomes := Store.ofList [("crate::passes", .Passed)]

theorem crossed_trace_report :
    ((build_corpus_requirement_report (fun _ => []) crossed_trace small_run
      TracePolicy.default).toOption.map fun diagnostics => diagnostics.map fun diagnostic =>
        (diagnostic.code, diagnostic.location.bind Location.entry_uid)) =
      some [("REQ_PASS", some "test"), ("REQ_GAP", some "crossed"), ("REQ_PASS", some "llr"),
        ("REQ_PASS", some "hlr")] := by
  decide +kernel

theorem reportedAs_of_mem {diagnostics : List Diagnostic} {uid : String} {s : RequirementStatus}
    (h : (s.code, some uid) ∈ diagnostics.map fun diagnostic =>
      (diagnostic.code, diagnostic.location.bind Location.entry_uid)) :
    ReportedAs diagnostics uid s := by
  obtain ⟨diagnostic, hmem, heq⟩ := List.mem_map.mp h
  rw [Prod.mk.injEq] at heq
  obtain ⟨place, hplace, huid⟩ := Option.bind_eq_some_iff.mp heq.2
  exact ⟨diagnostic, hmem, heq.1, place, hplace, huid⟩

/-- **A low-level requirement passes over a failing test**: the test is reported as a gap
for its other edge, and is left out of the requirement's children. -/
theorem no_false_pass_fails :
    ¬ ∀ (resolve_selector_inputs : List (String × List String) → List String)
      (graph : CorpusGraph) (outcomes : Outcomes) (policy : TracePolicy)
      (diagnostics : List Diagnostic),
      build_corpus_requirement_report resolve_selector_inputs graph outcomes policy =
        .ok diagnostics → NoFalsePass graph diagnostics := by
  intro hclaim
  obtain ⟨diagnostics, hok, hcodes⟩ := Option.map_eq_some_iff.mp crossed_trace_report
  have hreport : build_corpus_requirement_report (fun _ => []) crossed_trace small_run
      TracePolicy.default = .ok diagnostics := by
    revert hok
    cases build_corpus_requirement_report (fun _ => []) crossed_trace small_run
      TracePolicy.default <;> simp [Except.toOption]
  have hpass : ReportedAs diagnostics "llr" .Pass := by
    refine reportedAs_of_mem ?_
    rw [hcodes]
    decide
  have hgap : ReportedAs diagnostics "crossed" .Gap := by
    refine reportedAs_of_mem ?_
    rw [hcodes]
    decide
  have hrequirement : IsRequirement crossed_trace "llr" :=
    ⟨_, (by decide +kernel : crossed_trace.get "llr" =
      some (small_requirement "llr" "LLR-1" .Llr [(.DerivesFrom, "hlr")])), rfl⟩
  have hedge : ChildEdge crossed_trace "crossed" "llr" :=
    ⟨_, (by decide +kernel : crossed_trace.get "crossed" =
      some (small_test "crossed" "TEST-2" [(.Verifies, "llr"), (.Verifies, "hlr")])),
      (.Verifies, "llr"), List.mem_cons_self, .inr rfl, rfl⟩
  exact hclaim _ _ _ _ _ hreport "llr" "crossed" hrequirement hpass (.single hedge) hgap

/-- The condition at the small trace. -/
theorem no_false_pass_iff_crossed :
    ∃ view diagnostics, ReportView.from_graph crossed_trace = .ok view ∧
      (NoFalsePass crossed_trace diagnostics ↔
        ∀ parent child, IsRequirement crossed_trace parent →
          Supported crossed_trace small_run [] TracePolicy.default parent →
          TransGen (ChildEdge crossed_trace) child parent → ¬ Mislinked crossed_trace child) := by
  have hview : (ReportView.from_graph crossed_trace).toOption.isSome = true := by decide +kernel
  cases hcase : ReportView.from_graph crossed_trace with
  | error e =>
    rw [hcase] at hview
    cases hview
  | ok view =>
    obtain ⟨diagnostics, hreport⟩ : ∃ diagnostics,
        build_corpus_requirement_report (fun _ => []) crossed_trace small_run
          TracePolicy.default = .ok diagnostics := by
      rw [build_corpus_requirement_report, hcase]
      exact ⟨_, rfl⟩
    exact ⟨view, diagnostics, rfl, no_false_pass_iff hcase hreport⟩

end Evidence.Trace
