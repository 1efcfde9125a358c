/-
Which entry a gap of the requirement report is blamed on.

A gap without a root cause is a defect of its own entry. A gap with one was rolled up:
the requirement took the root cause of the first child that is a gap, and a child that is
a gap of its own has itself for its root. So the root cause of a gap is reported as a gap
without one, and hangs below the entry (`gap_attribution`). The report has one diagnostic
for each row of the graph, in the order of the layers.

The argument follows the roll-up downwards: below an entry, a root cause is found one
layer further down, and the layers end at the tests.
-/
import Evidence.Trace.NoFalsePass
import Evidence.Trace.Selectors

set_option autoImplicit false

namespace Evidence.Trace

open Corpus Check Relation Sorting
open Evidence.Bundle (Outcomes TestOutcome)

/-! ## Defects of an entry itself -/

section Defects

/-- What is wrong with a test itself: a link gap, a selector that names no function of the
workspace, no selector, no requirement to verify, or a selector that did not run, matches
several functions, or failed. -/
def TestDefect (outcomes : Outcomes) (unresolved : List String) (test : ReportTest) : Prop :=
  test.link_gap ≠ none ∨ test.id ∈ unresolved ∨ test.selectors = [] ∨ test.traces_to = [] ∨
    ∃ selector ∈ test.selectors, ∀ key outcome,
      matching_outcomes outcomes selector = [(key, outcome)] → outcome = .Failed

/-- What is wrong with a requirement itself: a link gap, no parent where the policy or the
layer asks for one, no verification method where the policy asks for one, or no child. -/
def RequirementDefect (graph : CorpusGraph) (policy : TracePolicy) (kind : RequirementKind)
    (row : ReportRequirement) : Prop :=
  row.link_gap ≠ none ∨
    (kind = .Hlr ∧ policy.require_hlr_sys_trace = true ∧ row.traces_to = []) ∨
    (kind = .Llr ∧ row.traces_to = []) ∨
    (verification_required kind policy = true ∧ row.verification_methods = []) ∨
    ∀ child, ¬ HangsUnder graph row.uid child

/-- A defect of the entry itself. -/
def OwnDefect (graph : CorpusGraph) (outcomes : Outcomes) (unresolved : List String)
    (policy : TracePolicy) (uid : String) : Prop :=
  ∃ row ∈ graph_rows graph, row.uid = uid ∧
    match row with
    | .Test test => TestDefect outcomes unresolved test
    | .Requirement kind requirement => RequirementDefect graph policy kind requirement

theorem selector_gap_iff {outcomes : Outcomes} {selector : String} :
    selector_status outcomes selector = .Gap ↔
      ∀ key outcome, matching_outcomes outcomes selector = [(key, outcome)] → outcome = .Failed := by
  unfold selector_status
  cases matching_outcomes outcomes selector with
  | nil => simp [matched_status]
  | cons first rest =>
    obtain ⟨key, outcome⟩ := first
    cases rest with
    | nil => cases outcome <;> simp [matched_status]
    | cons second rest => cases outcome <;> simp [matched_status]

theorem test_gap_iff {test : ReportTest} {outcomes : Outcomes} {unresolved : List String} :
    (build_test_diag test outcomes unresolved).1.status = .Gap ↔
      TestDefect outcomes unresolved test := by
  simp only [TestDefect, ← selector_gap_iff]
  unfold build_test_diag
  cases hlink : test.link_gap with
  | some message => simp [test_gap]
  | none =>
    simp only [ne_eq, not_true_eq_false, false_or, List.contains_iff_mem]
    split_ifs with hunresolved hselectors htraces
    · simp [hunresolved, unresolved_gap, test_gap]
    · simp [List.isEmpty_iff.mp hselectors, missing_selector_gap, test_gap]
    · simp [List.isEmpty_iff.mp htraces, orphan_gap, test_gap]
    · rw [List.isEmpty_iff] at hselectors htraces
      simp only [hunresolved, hselectors, htraces, false_or]
      split
      · next selector heq =>
        rw [single_selector_status_eq, heq]
        simp
      · rw [multi_selector_status_fold, worst_eq_gap, List.mem_map]

theorem requirement_defect_iff {graph : CorpusGraph} {policy : TracePolicy}
    {kind : RequirementKind} {row : ReportRequirement} :
    RequirementDefect graph policy kind row ↔
      has_structural_gap policy kind row = true ∨ ∀ child, ¬ HangsUnder graph row.uid child := by
  unfold RequirementDefect has_structural_gap structural_gap
  cases hlink : row.link_gap with
  | some message => simp
  | none =>
    simp only [ne_eq, not_true_eq_false, false_or]
    split_ifs with hparent hllr hmethods
    · exact iff_of_true (.inl hparent) (.inl rfl)
    · exact iff_of_true (.inr (.inl hllr)) (.inl rfl)
    · exact iff_of_true (.inr (.inr (.inl hmethods))) (.inl rfl)
    · simp only [hparent, hllr, hmethods, Option.isSome_none, Bool.false_eq_true, false_or]

end Defects

/-! ## The root causes of a verdict -/

/-- The verdict of a test blames nothing but the test. -/
theorem test_root {test : ReportTest} {outcomes : Outcomes} {unresolved : List String} :
    (build_test_diag test outcomes unresolved).2.root_cause_uid = none ∧
      ((build_test_diag test outcomes unresolved).1.status = .Gap →
        (build_test_diag test outcomes unresolved).1.root_cause_uid = some test.uid) := by
  unfold build_test_diag
  split
  · exact ⟨rfl, fun _ => rfl⟩
  · split_ifs
    · exact ⟨rfl, fun _ => rfl⟩
    · exact ⟨rfl, fun _ => rfl⟩
    · exact ⟨rfl, fun _ => rfl⟩
    · split
      · unfold single_selector_status
        split
        · exact ⟨rfl, fun _ => rfl⟩
        · next only _ =>
          unfold matched_selector
          cases only.2
          · exact ⟨rfl, fun h => by cases h⟩
          · exact ⟨rfl, fun _ => rfl⟩
          · exact ⟨rfl, fun h => by cases h⟩
        · exact ⟨rfl, fun _ => rfl⟩
      · unfold multi_selector_status
        simp only
        split_ifs
        · exact ⟨rfl, fun _ => rfl⟩
        · exact ⟨rfl, fun _ => rfl⟩
        · exact ⟨rfl, fun _ => rfl⟩
        · exact ⟨rfl, fun h => by cases h⟩
        · exact ⟨rfl, fun h => by cases h⟩

def filed (child_status : Statuses) (u : String) (s : TestStatus) : Prop :=
  (child_status.get u).map Prod.snd = some s

theorem Tally.add_root {child_status : Statuses} {tally : Tally} {u root : String}
    (h : (tally.add child_status u).first_gap_root = some root) :
    tally.first_gap_root = some root ∨
      ∃ s, filed child_status u s ∧ s.status = .Gap ∧ s.root_cause_uid.getD u = root := by
  unfold Tally.add at h
  unfold filed
  cases hfiled : (child_status.get u).map Prod.snd with
  | none =>
    rw [hfiled] at h
    exact .inl h
  | some s =>
    rw [hfiled] at h
    cases hstatus : s.status with
    | Pass =>
      simp only [hstatus] at h
      exact .inl h
    | Skip =>
      simp only [hstatus] at h
      exact .inl h
    | Gap =>
      simp only [hstatus] at h
      cases hfirst : tally.first_gap_root with
      | some first =>
        rw [hfirst] at h
        exact .inl h
      | none =>
        rw [hfirst] at h
        refine .inr ⟨s, rfl, hstatus, ?_⟩
        cases hroot : s.root_cause_uid with
        | none =>
          rw [hroot] at h
          exact Option.some.inj h
        | some own =>
          rw [hroot] at h
          exact Option.some.inj h

theorem Tally.foldl_root {child_status : Statuses} {us : List String} {tally : Tally}
    {root : String} (h : (us.foldl (Tally.add child_status) tally).first_gap_root = some root) :
    tally.first_gap_root = some root ∨
      ∃ u ∈ us, ∃ s, filed child_status u s ∧ s.status = .Gap ∧ s.root_cause_uid.getD u = root := by
  induction us generalizing tally with
  | nil => exact .inl h
  | cons u us ih =>
    rcases ih h with hadd | ⟨v, hv, hrest⟩
    · rcases Tally.add_root hadd with hfirst | hchild
      · exact .inl hfirst
      · exact .inr ⟨u, List.mem_cons_self, hchild⟩
    · exact .inr ⟨v, List.mem_cons_of_mem u hv, hrest⟩

theorem aggregate_of_root {child_status : Statuses} {us : List String} {root : String}
    (h : (us.foldl (Tally.add child_status) ⟨none, false, false⟩).first_gap_root = some root) :
    aggregate_child_status us child_status = ⟨.Gap, some root⟩ := by
  rw [aggregate_child_status]
  simp only [h]

theorem aggregate_of_no_root {child_status : Statuses} {us : List String}
    (h : (us.foldl (Tally.add child_status) ⟨none, false, false⟩).first_gap_root = none) :
    (aggregate_child_status us child_status).status ≠ .Gap := by
  rw [aggregate_child_status]
  simp only [h]
  split_ifs <;> exact fun heq => by cases heq

/-- **What a requirement that is a gap is blamed on**: itself, for a defect of its own, or the
root cause of a child that is a gap. -/
theorem cascade_root {entry : CascadeEntry} {us : List String} {child_status : Statuses}
    {policy : TracePolicy} (h : (build_cascade_diag entry us child_status policy).1.status = .Gap) :
    ((has_structural_gap policy entry.kind entry.row = true ∨ us = []) ∧
      (build_cascade_diag entry us child_status policy).2.root_cause_uid = none ∧
      (build_cascade_diag entry us child_status policy).1.root_cause_uid = some entry.row.uid) ∨
    (¬ (has_structural_gap policy entry.kind entry.row = true ∨ us = []) ∧
      ∃ root, (build_cascade_diag entry us child_status policy).2.root_cause_uid = some root ∧
        (build_cascade_diag entry us child_status policy).1.root_cause_uid = some root ∧
        ∃ u ∈ us, ∃ s, filed child_status u s ∧ s.status = .Gap ∧
          s.root_cause_uid.getD u = root) := by
  rw [← structural_gap_isSome]
  unfold build_cascade_diag at h ⊢
  cases hgap : structural_gap entry policy with
  | some gap => exact .inl ⟨.inl rfl, rfl, rfl⟩
  | none =>
    by_cases hempty : us = []
    · rw [hempty]
      exact .inl ⟨.inr rfl, rfl, rfl⟩
    · have hfalse : us.isEmpty = false := List.isEmpty_eq_false_iff.mpr hempty
      simp only [hgap, hfalse, Bool.false_eq_true, if_false] at h ⊢
      right
      refine ⟨by simp [hempty], ?_⟩
      cases hroot : (us.foldl (Tally.add child_status) ⟨none, false, false⟩).first_gap_root with
      | none => exact absurd h (aggregate_of_no_root hroot)
      | some root =>
        rw [aggregate_of_root hroot]
        rcases Tally.foldl_root hroot with hnone | hchild
        · cases hnone
        · exact ⟨root, rfl, rfl, hchild⟩

/-! ## The rows that are reported -/

section Report

variable {graph : CorpusGraph} {view : ReportView} {outcomes : Outcomes}
  {unresolved : List String} {policy : TracePolicy}

/-- The filed statuses of a layer without a repeated uid are those of its rows. -/
theorem filed_iff {layer : List Reported} (hnodup : (layer.map Prod.fst).Nodup) {u : String}
    {s : TestStatus} : filed (statuses layer) u s ↔ ∃ r ∈ layer, r.1 = u ∧ r.2.1 = s := by
  unfold filed
  constructor
  · intro h
    obtain ⟨entry, hentry, rfl⟩ := Option.map_eq_some_iff.mp h
    obtain ⟨hkey, r, hr, rfl⟩ := (statuses_get_iff hnodup).mp hentry
    exact ⟨r, hr, hkey, rfl⟩
  · rintro ⟨r, hr, rfl, rfl⟩
    rw [(statuses_get_iff hnodup).mpr ⟨rfl, r, hr, rfl⟩]
    rfl

/-- The verdict of a row as the report has it: its own defect, or the root cause below it. -/
def Attributed (graph : CorpusGraph) (rows : List Reported) (own : String → Prop)
    (r : Reported) : Prop :=
  (own r.1 ∧ r.2.2.root_cause_uid = none ∧ r.2.1.root_cause_uid = some r.1) ∨
    (¬ own r.1 ∧ ∃ root, r.2.2.root_cause_uid = some root ∧ r.2.1.root_cause_uid = some root ∧
      TransGen (HangsUnder graph) r.1 root ∧
      ∃ cause ∈ rows, cause.1 = root ∧ cause.2.1.status = .Gap ∧
        cause.2.2.root_cause_uid = none)

/-- **Every gap is attributed.** -/
theorem gap_attributed (h : ReportView.from_graph graph = .ok view) {r : Reported}
    (hr : r ∈ build_rows view outcomes unresolved policy) (hgap : r.2.1.status = .Gap) :
    Attributed graph (build_rows view outcomes unresolved policy)
      (OwnDefect graph outcomes unresolved policy) r := by
  obtain ⟨uid, huid⟩ : ∃ uid, r.1 = uid := ⟨_, rfl⟩
  -- The induction is along what hangs under the entry.
  induction uid using (hangsUnder_wellFounded graph).induction generalizing r with
  | _ uid ih =>
    obtain ⟨row, hrow, hkey, hmem⟩ := (mem_build_rows h).mp hr
    cases row with
    | Test test =>
      obtain ⟨test', htest', rfl⟩ := List.mem_map.mp hmem
      have hdefect : OwnDefect graph outcomes unresolved policy test'.uid :=
        ⟨.Test test', (mem_tests h).mp htest', rfl, test_gap_iff.mp hgap⟩
      exact .inl ⟨hdefect, test_root.1, test_root.2 hgap⟩
    | Requirement kind row =>
      obtain ⟨entry, hkind, hlayer, rfl⟩ := of_mem_build_layer hmem
      have hsame : Row.Requirement kind entry.row = .Requirement kind row :=
        row_unique ((mem_layer h).mp hlayer) hrow hkey.symm
      rw [Row.Requirement.injEq] at hsame
      obtain ⟨-, rfl⟩ := hsame
      have hempty : view.children_of entry.row.uid = [] ↔
          ∀ child, ¬ HangsUnder graph entry.row.uid child := by
        rw [List.eq_nil_iff_forall_not_mem]
        simp only [mem_children_iff h]
      have hown : OwnDefect graph outcomes unresolved policy entry.row.uid ↔
          has_structural_gap policy entry.kind entry.row = true ∨
            view.children_of entry.row.uid = [] := by
        rw [hempty, hkind, ← requirement_defect_iff]
        constructor
        · rintro ⟨other, hother, hsame, hdefect⟩
          have heq : other = .Requirement kind entry.row := row_unique hother hrow hsame
          subst heq
          exact hdefect
        · intro hdefect
          exact ⟨_, hrow, rfl, hdefect⟩
      rcases cascade_root hgap with ⟨hdefect, hnone, hself⟩ |
        ⟨hdefect, root, hdiagnosed, hroot, u, hu, s, hfiled, hs, hsroot⟩
      · exact .inl ⟨hown.mpr hdefect, hnone, hself⟩
      · -- The root is that of a child, which the report has as well.
        have hhangs := (mem_children_iff h).mp hu
        obtain ⟨below, hbelow, hbelowkey, hlinked, hparent⟩ := id hhangs
        obtain ⟨requirement, kind', hget, hkind', habove⟩ :=
          parent_of_hangsUnder hbelow hlinked hparent
        rw [kind_of_get hrow hget, Option.some.injEq] at hkind'
        subst hkind'
        have hnodup := @reports_of_nodup _ _ outcomes unresolved policy h below
        rw [reports_of_eq_below habove] at hnodup
        obtain ⟨child, hchild, hchildkey, rfl⟩ := (filed_iff hnodup).mp hfiled
        have hreported : child ∈ build_rows view outcomes unresolved policy := by
          refine (mem_build_rows h).mpr ⟨below, hbelow, hbelowkey.trans hchildkey.symm, ?_⟩
          rw [reports_of_eq_below habove]
          exact hchild
        refine .inr ⟨hown.not.mpr hdefect, root, hdiagnosed, hroot, ?_⟩
        rcases ih u (huid ▸ hhangs) hreported hs hchildkey with ⟨-, hchildnone, hchildself⟩ |
          ⟨-, root', -, hchildroot, hpath, hcause⟩
        · rw [hchildself, Option.getD_some, hchildkey] at hsroot
          rw [← hsroot]
          exact ⟨.single hhangs, child, hreported, hchildkey, hs, hchildnone⟩
        · rw [hchildroot, Option.getD_some] at hsroot
          rw [hchildkey] at hpath
          rw [← hsroot]
          exact ⟨.head hhangs hpath, hcause⟩

/-! ## One diagnostic for each row -/

/-- A node that the report has a row for: a SYS, HLR or LLR requirement, or a test. -/
def is_reported : Node → Bool
  | .Requirement requirement => (report_kind requirement.layer).isSome
  | .Test _ => true
  | .Review _ => false
  | .SourceRevision _ => false

theorem row_of_uid {node : Node} {row : Option Row} (h : report_row graph node = .ok row) :
    row.map Row.uid = if is_reported node then some node.uid else none := by
  cases row with
  | some row =>
    have hreported : is_reported node = true := by
      cases node with
      | Requirement requirement =>
        rw [report_row] at h
        split at h
        · cases h
        · next kind hkind => rw [is_reported, hkind, Option.isSome_some]
      | Test test => rfl
      | Review review => cases h
      | SourceRevision revision => cases h
    rw [hreported, if_pos rfl, Option.map_some, (rowOf_of_report_row h).uid]
  | none =>
    have hreported : is_reported node = false := by
      cases node with
      | Requirement requirement =>
        rw [report_row] at h
        split at h
        · next hkind => rw [is_reported, hkind, Option.isSome_none]
        · obtain ⟨links, -, hrow⟩ := bind_ok_iff.mp h
          cases hrow
      | Test test =>
        obtain ⟨links, -, hrow⟩ := bind_ok_iff.mp h
        cases hrow
      | Review review => rfl
      | SourceRevision revision => rfl
    rw [hreported]
    rfl

theorem graph_rows_uids
    (hall : ∀ node ∈ graph.nodes.values, ∃ row, report_row graph node = .ok row) :
    (graph_rows graph).map Row.uid = (graph.nodes.values.filter is_reported).map Node.uid := by
  unfold graph_rows
  revert hall
  induction graph.nodes.values with
  | nil => exact fun _ => rfl
  | cons node nodes ih =>
    intro hall
    obtain ⟨row, hrow⟩ := hall node List.mem_cons_self
    have hrest := ih fun other hother => hall other (List.mem_cons_of_mem node hother)
    have huid := row_of_uid hrow
    have hof : row_of graph node = row := by rw [row_of, hrow]
    rw [List.filterMap_cons, List.filter_cons, hof]
    cases row with
    | none =>
      split_ifs at huid with hreported
      · cases huid
      · rw [if_neg hreported]
        exact hrest
    | some row =>
      split_ifs at huid with hreported
      · rw [if_pos hreported, List.map_cons, List.map_cons, hrest, Option.some.inj huid]
      · cases huid

theorem layers_perm (rows : List Row) :
    ((rows.filterMap Row.as_test).map ReportTest.uid ++
        (rows.filterMap (Row.as_requirement .Llr)).map ReportRequirement.uid ++
        (rows.filterMap (Row.as_requirement .Hlr)).map ReportRequirement.uid ++
        (rows.filterMap (Row.as_requirement .Sys)).map ReportRequirement.uid).Perm
      (rows.map Row.uid) := by
  induction rows with
  | nil => exact List.Perm.refl _
  | cons row rows ih =>
    cases row with
    | Test test => exact ih.cons test.uid
    | Requirement kind row =>
      cases kind with
      | Llr =>
        simp only [List.filterMap_cons, Row.as_test, Row.as_requirement, reduceCtorEq, if_true,
          if_false, List.map_cons, Row.uid, List.append_assoc, List.cons_append] at ih ⊢
        exact List.perm_middle.trans (ih.cons row.uid)
      | Hlr =>
        simp only [List.filterMap_cons, Row.as_test, Row.as_requirement, reduceCtorEq, if_true,
          if_false, List.map_cons, Row.uid, List.append_assoc, List.cons_append] at ih ⊢
        rw [← List.append_assoc] at ih ⊢
        exact List.perm_middle.trans (ih.cons row.uid)
      | Sys =>
        simp only [List.filterMap_cons, Row.as_test, Row.as_requirement, reduceCtorEq, if_true,
          if_false, List.map_cons, Row.uid] at ih ⊢
        exact List.perm_middle.trans (ih.cons row.uid)

/-- **The report has one verdict for each reported node.** -/
theorem build_rows_uids (h : ReportView.from_graph graph = .ok view) :
    ((build_rows view outcomes unresolved policy).map Prod.fst).Perm
      ((graph.nodes.values.filter is_reported).map Node.uid) := by
  obtain ⟨hview, hall⟩ := ReportView.from_graph_ok h
  have htests : (build_tests view outcomes unresolved).map Prod.fst =
      view.tests.map ReportTest.uid := by
    rw [build_tests, List.map_map]
    rfl
  rw [← graph_rows_uids hall, build_rows]
  simp only [List.map_append, htests, map_fst_build_layer]
  refine List.Perm.trans ?_ (layers_perm (graph_rows graph))
  rw [hview]
  refine (((List.Perm.append ?_ ?_).append ?_).append ?_) <;> exact (sortBy_perm _).map _

end Report

/-! ## The report -/

def entry_of (diagnostic : Diagnostic) : Option String :=
  diagnostic.location.bind Location.entry_uid

/-- A diagnostic reports a gap of an entry. -/
def GapOf (diagnostic : Diagnostic) (uid : String) : Prop :=
  diagnostic.code = RequirementStatus.Gap.code ∧ entry_of diagnostic = some uid

/-- **Gaps are attributed.** The report has one diagnostic for each SYS, HLR, LLR and test node
and no others. A gap has no root cause exactly for a defect of its own entry; and the
root cause of a gap is reported as a gap without one, and hangs below the entry. -/
theorem gap_attribution {resolve_selector_inputs : List (String × List String) → List String}
    {graph : CorpusGraph} {outcomes : Outcomes} {policy : TracePolicy}
    {diagnostics : List Diagnostic}
    (hreport : build_corpus_requirement_report resolve_selector_inputs graph outcomes policy =
      .ok diagnostics) :
    ∃ view, ReportView.from_graph graph = .ok view ∧
      (diagnostics.map entry_of).Perm
        ((graph.nodes.values.filter is_reported).map fun node => some node.uid) ∧
      ∀ diagnostic ∈ diagnostics, ∀ uid, GapOf diagnostic uid →
        (diagnostic.root_cause_uid = none ↔ OwnDefect graph outcomes
          (resolve_selector_inputs view.selector_inputs) policy uid) ∧
        ∀ root, diagnostic.root_cause_uid = some root →
          TransGen (HangsUnder graph) uid root ∧
            ∃ cause ∈ diagnostics, GapOf cause root ∧ cause.root_cause_uid = none := by
  obtain ⟨view, hview, hok⟩ := bind_ok_iff.mp hreport
  refine ⟨view, hview, ?_⟩
  rw [← Except.ok.inj hok]
  -- Every verdict names its entry, and has the code of its status.
  have hnames : ∀ r ∈ build_rows view outcomes (resolve_selector_inputs view.selector_inputs)
      policy, r.2.2.code = r.2.1.status.code ∧ entry_of r.2.2 = some r.1 := by
    intro r hr
    obtain ⟨hcode, place, hplace, huid⟩ := names_build_rows hr
    refine ⟨hcode, ?_⟩
    rw [entry_of, hplace, Option.bind_some, huid]
  constructor
  · have hentries : (build_rows view outcomes (resolve_selector_inputs view.selector_inputs)
        policy).map (fun r => entry_of r.2.2) =
        ((build_rows view outcomes (resolve_selector_inputs view.selector_inputs) policy).map
          Prod.fst).map some := by
      rw [List.map_map]
      exact List.map_congr_left fun r hr => (hnames r hr).2
    have huids := (@build_rows_uids _ _ outcomes (resolve_selector_inputs view.selector_inputs)
      policy hview).map some
    rw [List.map_map] at huids ⊢
    rw [List.map_map] at hentries
    exact (List.Perm.of_eq hentries).trans (by rwa [List.map_map] at huids)
  · intro diagnostic hdiagnostic uid hgap
    obtain ⟨r, hr, rfl⟩ := List.mem_map.mp hdiagnostic
    obtain ⟨hcode, hentry⟩ := hnames r hr
    obtain ⟨hgapcode, hgapentry⟩ := hgap
    rw [hentry, Option.some.injEq] at hgapentry
    subst hgapentry
    have hstatus : r.2.1.status = .Gap := RequirementStatus.code_inj (hcode.symm.trans hgapcode)
    rcases gap_attributed hview hr hstatus with ⟨hown, hnone, -⟩ |
      ⟨hown, root, hroot, -, hpath, cause, hcause, hcauseuid, hcausegap, hcausenone⟩
    · refine ⟨iff_of_true hnone hown, ?_⟩
      intro root hroot
      rw [hnone] at hroot
      cases hroot
    · constructor
      · rw [hroot]
        exact iff_of_false (Option.some_ne_none root) hown
      · intro root' hroot'
        rw [hroot, Option.some.injEq] at hroot'
        subst hroot'
        refine ⟨hpath, cause.2.2, List.mem_map_of_mem hcause, ⟨?_, ?_⟩, hcausenone⟩
        · rw [(hnames cause hcause).1, hcausegap]
        · rw [(hnames cause hcause).2, hcauseuid]

/-! ## A failing test -/

/-- A high-level requirement over a low-level one over a test. -/
def chain_trace : CorpusGraph :=
  { CorpusGraph.new with
    nodes := Store.ofList
      [small_requirement "hlr" "HLR-1" .Hlr [],
        small_requirement "llr" "LLR-1" .Llr [(.DerivesFrom, "hlr")],
        small_test "test" "TEST-1" [(.Verifies, "llr")]] }

/-- The one test function failed. -/
def failed_run : Outcomes := Store.ofList [("crate::passes", .Failed)]

theorem chain_trace_report :
    ((build_corpus_requirement_report (fun _ => []) chain_trace failed_run
      TracePolicy.default).toOption.map fun diagnostics => diagnostics.map fun diagnostic =>
        (diagnostic.code, entry_of diagnostic, diagnostic.root_cause_uid)) =
      some [("REQ_GAP", some "test", none), ("REQ_GAP", some "llr", some "test"),
        ("REQ_GAP", some "hlr", some "test")] := by
  decide +kernel

/-- The failing test is reported without a root cause. -/
theorem gap_attribution_chain :
    ∃ diagnostics, build_corpus_requirement_report (fun _ => []) chain_trace failed_run
        TracePolicy.default = .ok diagnostics ∧
      ∃ cause ∈ diagnostics, GapOf cause "test" ∧ cause.root_cause_uid = none := by
  obtain ⟨diagnostics, hok, hcodes⟩ := Option.map_eq_some_iff.mp chain_trace_report
  have hreport : build_corpus_requirement_report (fun _ => []) chain_trace failed_run
      TracePolicy.default = .ok diagnostics := by
    revert hok
    cases build_corpus_requirement_report (fun _ => []) chain_trace failed_run
      TracePolicy.default <;> simp [Except.toOption]
  have hhlr : ("REQ_GAP", some "hlr", some "test") ∈ diagnostics.map fun diagnostic =>
      (diagnostic.code, entry_of diagnostic, diagnostic.root_cause_uid) := by
    rw [hcodes]
    decide
  obtain ⟨diagnostic, hmem, heq⟩ := List.mem_map.mp hhlr
  simp only [Prod.mk.injEq] at heq
  obtain ⟨view, -, -, hgaps⟩ := gap_attribution hreport
  obtain ⟨-, hroots⟩ := hgaps diagnostic hmem "hlr" ⟨heq.1, heq.2.1⟩
  exact ⟨diagnostics, hreport, (hroots "test" heq.2.2).2⟩

end Evidence.Trace
