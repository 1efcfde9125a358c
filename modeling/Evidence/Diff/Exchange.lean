/-
`diff.rs` -- the whole comparison with its sides exchanged, and of a bundle with itself.

The rest of the categories mirror as the others do, and the report is the list of them. Compared
with itself a bundle shows no change in any category but the digest planes: there a
malformed digest is a line, and a line is a change (`comparison_symmetric_iff`).
-/
import Evidence.Diff.Symmetry
import Mathlib.Data.List.Zip

set_option autoImplicit false

namespace Evidence.Diff

open Std Sorting Check Evidence.Bundle
open Verify (ReproductionJson DigestMap digest_of IsDigest read_digest_map read_recipe
  diff_digest_planes compare_recipe_fields)

/-! ## Captures -/

section Captures

theorem branch_lines_mirror (level : String) (ba bb : Option (UInt64 × UInt64)) :
    LinesMirror (branch_lines level ba bb) (branch_lines level bb ba) := by
  cases ba with
  | none =>
    cases bb with
    | none => exact .nil
    | some bb => exact .singleton ((plain_change_line _ _ _).mirror (plain_change_line _ _ _))
  | some ba =>
    cases bb with
    | none => exact .singleton ((plain_change_line _ _ _).mirror (plain_change_line _ _ _))
    | some bb =>
      exact changed_if_mirror ne_comm (plain_change_line _ _ _) (plain_change_line _ _ _)

theorem level_lines_mirror (level : CoverageLevel) (ma mb : Option Measurement) :
    LinesMirror (level_lines level ma mb) (level_lines level mb ma) := by
  have hsign : Mirror "+ " "- " := .inl ⟨[' '], rfl, rfl⟩
  have hone := (hsign.append (level_label level)).append " measurement"
  cases ma with
  | none =>
    cases mb with
    | none => exact .nil
    | some mb => exact .singleton hone
  | some ma =>
    cases mb with
    | none => exact .singleton hone.symm
    | some mb =>
      refine LinesMirror.append (.append ?_ (branch_lines_mirror _ _ _)) ?_
      · exact changed_if_mirror ne_comm (plain_change_line _ _ _) (plain_change_line _ _ _)
      · exact changed_if_mirror ne_comm (plain_change_line _ _ _) (plain_change_line _ _ _)

theorem coverage_findings_mirror (ra rb : Load CoverageReport) :
    FindingsMirror (coverage_findings ra rb) (coverage_findings rb ra) := by
  have hsign : Plain "! " := ⟨_, _, rfl, by decide, by decide⟩
  have hplain : ∀ reason : String, Plain ("! " ++ summary_path ++ reason) :=
    fun reason => (hsign.append _).append reason
  cases ra with
  | Unparseable => cases rb <;> exact .unexamined (hplain _) (hplain _)
  | Missing =>
    cases rb with
    | Unparseable => exact .unexamined (hplain _) (hplain _)
    | Missing => exact .differences .nil
    | Ok cb => exact .unexamined (hplain _) (hplain _)
  | Ok ca =>
    cases rb with
    | Unparseable => exact .unexamined (hplain _) (hplain _)
    | Missing => exact .unexamined (hplain _) (hplain _)
    | Ok cb =>
      refine .differences (.flatMap (fun _ => Iff.rfl) fun level _ => ?_)
      exact level_lines_mirror level _ _

theorem coverage_report_mirror {f g : Findings} (h : FindingsMirror f g) :
    ResultMirror (coverage_report f) (coverage_report g) := by
  have hnone : Plain "no coverage data on either side" := ⟨_, _, rfl, by decide, by decide⟩
  unfold coverage_report
  rw [h.changed, h.unexaminable]
  refine ⟨⟨rfl, ?_⟩, ?_⟩
  · cases g.unexaminable <;> cases g.changed <;> rfl
  · have hnil := h.details.eq_nil_iff
    by_cases hdetails : f.details = []
    · simp only [hdetails, hnil.mp hdetails, and_true]
      split_ifs
      · exact .singleton (hnone.mirror hnone)
      · exact .nil
      · exact .singleton (hnone.mirror hnone)
      · exact .nil
    · have hdetails' : g.details ≠ [] := fun h' => hdetails (hnil.mpr h')
      simp only [hdetails, hdetails', and_false, if_false]
      exact h.details

theorem coverage_mirror [DiffJson] (a b : FileTree) :
    ExceptMirror ResultMirror (coverage a b) (coverage b a) := by
  unfold coverage
  refine .both fun ra rb _ _ => .ok (coverage_report_mirror (.add ?_ ?_))
  · exact coverage_findings_mirror ra rb
  · exact log_findings_mirror _ _ _

theorem row_changes_eq (a b : FileTree) (i : ℕ) (row_a row_b : CommandRecord) :
    row_changes a b i row_a row_b =
      (if row_a.argv ≠ row_b.argv then [change_line ("row " ++ decimal i ++ " argv")
        (" ".intercalate row_a.argv) (" ".intercalate row_b.argv)] else []) ++
      (if row_a.exit_code ≠ row_b.exit_code then [change_line ("row " ++ decimal i ++ " exit_code")
        (toString row_a.exit_code) (toString row_b.exit_code)] else []) ++
      ((if captured a row_a.stdout_path ≠ captured b row_b.stdout_path then
        [change_line ("row " ++ decimal i ++ " captured " ++ "stdout")
          (presence_label (captured a row_a.stdout_path))
          (presence_label (captured b row_b.stdout_path))] else []) ++
      (if captured a row_a.stderr_path ≠ captured b row_b.stderr_path then
        [change_line ("row " ++ decimal i ++ " captured " ++ "stderr")
          (presence_label (captured a row_a.stderr_path))
          (presence_label (captured b row_b.stderr_path))] else [])) := by
  unfold row_changes
  simp only [List.filterMap_cons, List.filterMap_nil]
  by_cases hout : captured a row_a.stdout_path = captured b row_b.stdout_path
  · by_cases herr : captured a row_a.stderr_path = captured b row_b.stderr_path <;>
      simp [hout, herr]
  · by_cases herr : captured a row_a.stderr_path = captured b row_b.stderr_path <;>
      simp [hout, herr]

theorem row_changes_mirror (a b : FileTree) (i : ℕ) (row_a row_b : CommandRecord) :
    LinesMirror (row_changes a b i row_a row_b) (row_changes b a i row_b row_a) := by
  have hcaptured : ∀ (label : String) (pa pb : Bool), LinesMirror
      (if pa ≠ pb then [change_line ("row " ++ decimal i ++ " captured " ++ label)
        (presence_label pa) (presence_label pb)] else [])
      (if pb ≠ pa then [change_line ("row " ++ decimal i ++ " captured " ++ label)
        (presence_label pb) (presence_label pa)] else []) := fun label pa pb =>
    changed_if_mirror ne_comm (plain_change_line _ _ _) (plain_change_line _ _ _)
  rw [row_changes_eq, row_changes_eq]
  refine .append (.append ?_ ?_) ((hcaptured _ _ _).append (hcaptured _ _ _))
  · exact changed_if_mirror ne_comm (plain_change_line _ _ _) (plain_change_line _ _ _)
  · exact changed_if_mirror ne_comm (plain_change_line _ _ _) (plain_change_line _ _ _)

theorem command_line_mirror (row : CommandRecord × ℕ) :
    Mirror (command_line "+" row) (command_line "-" row) := by
  have hsign : Mirror "+" "-" := .inl ⟨[], rfl, rfl⟩
  exact (((hsign.append " row ").append _).append ": ").append _

/-- The rows of two lists side by side, in the other order. -/
theorem zip_rows_swap (ra rb : List CommandRecord) (n : ℕ) :
    (rb.zip ra).zipIdx.take n = ((ra.zip rb).zipIdx.take n).map fun row =>
      ((row.1.2, row.1.1), row.2) := by
  rw [← List.zip_swap, List.zipIdx_map, ← List.map_take]
  rfl

theorem command_lines_mirror (a b : FileTree) (ra rb : List CommandRecord) :
    LinesMirror (command_lines a b ra rb) (command_lines b a rb ra) := by
  unfold command_lines
  have hrows : LinesMirror
      (((ra.zip rb).zipIdx.take (min ra.length rb.length)).flatMap fun row =>
        row_changes a b row.2 row.1.1 row.1.2)
      (((rb.zip ra).zipIdx.take (min ra.length rb.length)).flatMap fun row =>
        row_changes b a row.2 row.1.1 row.1.2) := by
    rw [zip_rows_swap ra rb, List.flatMap_map]
    exact .flatMap (fun _ => Iff.rfl) fun row _ => row_changes_mirror a b row.2 row.1.1 row.1.2
  have hremoved := LinesMirror.map (l := ra.zipIdx.drop (min ra.length rb.length))
    fun row _ => (command_line_mirror row).symm
  have hadded := LinesMirror.map (l := rb.zipIdx.drop (min ra.length rb.length))
    fun row _ => command_line_mirror row
  rw [min_comm rb.length ra.length]
  refine ((hrows.append hremoved).append hadded).of_mem (fun _ => Iff.rfl) fun line => ?_
  simp only [List.mem_append, or_comm, or_left_comm]

theorem commands_mirror [DiffJson] (a b : FileTree) :
    ExceptMirror ResultMirror (commands a b) (commands b a) := by
  refine .both fun ca cb _ _ => ?_
  cases ca with
  | Ok ra =>
    cases cb with
    | Ok rb => exact .ok (FindingsMirror.report (.differences (command_lines_mirror a b ra rb)) _)
    | Missing => exact .ok (unverifiable_mirror _ _ _)
    | Unparseable => exact .ok (unverifiable_mirror _ _ _)
  | Missing => cases cb <;> exact .ok (unverifiable_mirror _ _ _)
  | Unparseable => cases cb <;> exact .ok (unverifiable_mirror _ _ _)

end Captures

/-! ## Assurance -/

section Assurance

variable [DiffJson]

omit [DiffJson] in
theorem objective_line_mirror (krate id : String) (sa sb : Option (String × String)) :
    LinesMirror (objective_line krate id sa sb) (objective_line krate id sb sa) := by
  have hsign : Mirror "+ " "- " := .inl ⟨[' '], rfl, rfl⟩
  have hone := fun status : String =>
    ((((hsign.append krate).append " ").append id).append ": ").append status
  cases sa with
  | none =>
    cases sb with
    | none => exact .nil
    | some sb => exact .singleton (hone sb.2)
  | some sa =>
    cases sb with
    | none => exact .singleton (hone sa.2).symm
    | some sb =>
      exact changed_if_mirror ne_comm (plain_change_line _ _ _) (plain_change_line _ _ _)

theorem compare_report_mirror (name : String) (va vb : ReproductionJson.Value) :
    LinesMirror (compare_report name va vb) (compare_report name vb va) := by
  have hpack : Plain ("~ " ++ crate_of name ++ " standards_pack identity changed") :=
    (plain_change _).append _
  refine LinesMirror.append (.append (field_changes_mirror _ _ _ _) ?_)
    (key_lines_mirror (objective_line_mirror _))
  exact changed_if_mirror ne_comm hpack hpack

theorem report_findings_mirror (name : String) (ra rb : Option (Load ReproductionJson.Value)) :
    FindingsMirror (report_findings name ra rb) (report_findings name rb ra) := by
  have hsign : Mirror "+ compliance/" "- compliance/" := .inl ⟨_, rfl, rfl⟩
  have hone := hsign.append name
  have hnote : Plain "! compliance/" := ⟨_, _, rfl, by decide, by decide⟩
  have hplain : ∀ reason : String, Plain ("! compliance/" ++ name ++ reason) :=
    fun reason => (hnote.append name).append reason
  rcases ra with _ | (va | _ | _)
  · rcases rb with _ | (vb | _ | _)
    · exact .differences .nil
    · exact .differences (.singleton hone)
    · exact .differences .nil
    · exact .unexamined (hplain _) (hplain _)
  · rcases rb with _ | (vb | _ | _)
    · exact .differences (.singleton hone.symm)
    · exact .differences (compare_report_mirror name va vb)
    · exact .differences .nil
    · exact .unexamined (hplain _) (hplain _)
  · rcases rb with _ | (vb | _ | _)
    · exact .differences .nil
    · exact .differences .nil
    · exact .differences .nil
    · exact .unexamined (hplain _) (hplain _)
  · rcases rb with _ | (vb | _ | _)
    · exact .unexamined (hplain _) (hplain _)
    · exact .unexamined (hplain _) (hplain _)
    · exact .unexamined (hplain _) (hplain _)
    · exact .unexamined (hplain _) (hplain _)

omit [DiffJson] in
/-- Parts over lists of the same elements mirror if those of each element do. -/
theorem foldr_map_mirror {α : Type} {l l' : List α} {f g : α → Findings}
    (hmem : ∀ x, x ∈ l ↔ x ∈ l') (h : ∀ x, FindingsMirror (f x) (g x)) :
    FindingsMirror ((l.map f).foldr Findings.add (.differences []))
      ((l'.map g).foldr Findings.add (.differences [])) := by
  have hdetails : ∀ (l : List α) (f : α → Findings),
      ((l.map f).foldr Findings.add (.differences [])).details = l.flatMap fun x =>
        (f x).details := by
    intro l f
    induction l with
    | nil => rfl
    | cons x l ih => simp only [List.map_cons, List.foldr_cons, Findings.add, ih, List.flatMap_cons]
  refine ⟨Bool.eq_iff_iff.mpr ?_, Bool.eq_iff_iff.mpr ?_, ?_⟩
  · rw [Findings.foldr_add_changed, Findings.foldr_add_changed]
    simp only [List.mem_map, exists_exists_and_eq_and, hmem, (h _).changed]
  · rw [Findings.foldr_add_unexaminable, Findings.foldr_add_unexaminable]
    simp only [List.mem_map, exists_exists_and_eq_and, hmem, (h _).unexaminable]
  · rw [hdetails, hdetails]
    exact .flatMap hmem fun x _ => (h x).details

theorem mapping_findings_mirror (ra rb : ComplianceReports) :
    FindingsMirror (mapping_findings ra rb) (mapping_findings rb ra) := by
  refine foldr_map_mirror (fun name => ?_) fun name => report_findings_mirror name _ _
  rw [mem_chained_keys, mem_chained_keys, or_comm]

theorem compare_mappings_mirror (a b : IndexedSide) (ra rb : ComplianceReports) :
    ResultMirror (compare_mappings a b ra rb) (compare_mappings b a rb ra) := by
  have hnone : Plain "no compliance reports on either side" := ⟨_, _, rfl, by decide, by decide⟩
  have hempty : ResultMirror
      ⟨"objective_mappings", .Equal, ["no compliance reports on either side"]⟩
      ⟨"objective_mappings", .Equal, ["no compliance reports on either side"]⟩ :=
    ⟨⟨rfl, rfl⟩, .singleton (hnone.mirror hnone)⟩
  unfold compare_mappings
  cases ra.is_empty with
  | true =>
    cases rb.is_empty with
    | true =>
      cases dal_empty a with
      | true =>
        cases dal_empty b with
        | true => exact hempty
        | false => exact unverifiable_mirror _ _ _
      | false => cases dal_empty b <;> exact unverifiable_mirror _ _ _
    | false => exact unverifiable_mirror _ _ _
  | false =>
    cases rb.is_empty with
    | true => exact unverifiable_mirror _ _ _
    | false => exact (mapping_findings_mirror ra rb).report _

theorem objective_mappings_mirror [ReadDir] (a b : IndexedSide) :
    ExceptMirror ResultMirror (objective_mappings a b) (objective_mappings b a) :=
  .both fun ra rb _ _ => .ok (compare_mappings_mirror a b ra rb)

section Failures

attribute [local instance] failure_key_ord

omit [DiffJson] in
theorem failure_line_mirror (key : String × ℤ) (ta tb : Option FailureRow) :
    LinesMirror (failure_line key ta tb) (failure_line key tb ta) := by
  have hsign : Mirror "+ " "- " := .inl ⟨[' '], rfl, rfl⟩
  have hone := ((hsign.append key.1).append " exit ").append (toString key.2)
  have hplain : Plain ("~ " ++ key.1 ++ " exit " ++ toString key.2 ++ " stderr_tail changed") :=
    (((plain_change key.1).append _).append _).append _
  cases ta with
  | none =>
    cases tb with
    | none => exact .nil
    | some tb => exact .singleton hone
  | some ta =>
    cases tb with
    | none => exact .singleton hone.symm
    | some tb => exact changed_if_mirror ne_comm hplain hplain

theorem anomalies_mirror (a b : IndexedSide) : ResultMirror (anomalies a b) (anomalies b a) :=
  compare_indexes_mirror fun _ _ => .differences (key_lines_mirror failure_line_mirror)

end Failures

theorem env_findings_mirror (env_a env_b : Load ReproductionJson.Value) :
    FindingsMirror (env_findings env_a env_b) (env_findings env_b env_a) := by
  have hplain : ∀ (side : String) (state : Load ReproductionJson.Value),
      ∀ x ∈ env_line side state, Plain x := by
    intro side state x hx
    have hsign : Plain "! env.json " := ⟨_, _, rfl, by decide, by decide⟩
    unfold env_line at hx
    split at hx
    · cases hx
    · rw [List.mem_singleton.mp hx]
      exact ((hsign.append _).append _).append _
  have hnil : ∀ side state, env_line side state = [] ↔ ∃ v, state = .Ok v := by
    intro side state
    cases state <;> simp [env_line]
  have hlines : LinesMirror (env_line "A" env_a ++ env_line "B" env_b)
      (env_line "A" env_b ++ env_line "B" env_a) := by
    refine .of_plain (fun x hx => ?_) (fun x hx => ?_) ?_
    · exact (List.mem_append.mp hx).elim (hplain _ _ x) (hplain _ _ x)
    · exact (List.mem_append.mp hx).elim (hplain _ _ x) (hplain _ _ x)
    · rw [List.append_eq_nil_iff, List.append_eq_nil_iff, hnil, hnil, hnil, hnil, and_comm]
  unfold env_findings
  cases env_a with
  | Ok ea =>
    cases env_b with
    | Ok eb => exact .differences (field_changes_mirror _ _ _ _)
    | Missing => exact ⟨rfl, rfl, hlines⟩
    | Unparseable => exact ⟨rfl, rfl, hlines⟩
  | Missing => cases env_b <;> exact ⟨rfl, rfl, hlines⟩
  | Unparseable => cases env_b <;> exact ⟨rfl, rfl, hlines⟩

theorem pack_findings_mirror (ra rb : ComplianceReports) :
    FindingsMirror (pack_findings ra rb) (pack_findings rb ra) := by
  have hplain : Plain "~ standards_pack identity set changed" := ⟨_, _, rfl, by decide, by decide⟩
  exact .differences (changed_if_mirror ne_comm hplain hplain)

theorem require_indexes_swap {a b : IndexedSide} {category : String} :
    (∃ ia ib, require_indexes a b category = .ok (ia, ib) ∧
      require_indexes b a category = .ok (ib, ia)) ∨
    ∃ d d', require_indexes a b category = .error d ∧ require_indexes b a category = .error d' ∧
      ResultMirror d d' := by
  unfold require_indexes
  cases a.index with
  | Ok ia =>
    cases b.index with
    | Ok ib => exact .inl ⟨ia, ib, rfl, rfl⟩
    | Missing => exact .inr ⟨_, _, rfl, rfl, unverifiable_mirror _ _ _⟩
    | Unparseable => exact .inr ⟨_, _, rfl, rfl, unverifiable_mirror _ _ _⟩
  | Missing => cases b.index <;> exact .inr ⟨_, _, rfl, rfl, unverifiable_mirror _ _ _⟩
  | Unparseable => cases b.index <;> exact .inr ⟨_, _, rfl, rfl, unverifiable_mirror _ _ _⟩

theorem tool_identity_mirror [ReadDir] (a b : IndexedSide) :
    ExceptMirror ResultMirror (tool_identity a b) (tool_identity b a) := by
  unfold tool_identity
  rcases @require_indexes_swap _ a b "tool_identity" with
    ⟨ia, ib, hab, hba⟩ | ⟨d, d', hab, hba, hmirror⟩
  · rw [hab, hba]
    intro diff hdiff
    simp only [bind_ok_iff, Except.ok.injEq] at hdiff ⊢
    obtain ⟨env_a, henv_a, env_b, henv_b, ra, hra, rb, hrb, rfl⟩ := hdiff
    refine ⟨_, ⟨env_b, henv_b, env_a, henv_a, rb, hrb, ra, hra, rfl⟩, ?_⟩
    refine FindingsMirror.report (.add (.differences ?_) (.add ?_ ?_)) _
    · exact field_changes_mirror _ _ _ _
    · exact env_findings_mirror env_a env_b
    · exact pack_findings_mirror ra rb
  · rw [hab, hba]
    exact .ok hmirror

theorem completeness_states_mirror (a b : IndexedSide) :
    ResultMirror (completeness_states a b) (completeness_states b a) :=
  compare_indexes_mirror fun _ _ => .differences (field_changes_mirror _ _ _ _)

theorem content_hash_mirror (a b : IndexedSide) :
    ResultMirror (content_hash a b) (content_hash b a) := by
  refine compare_indexes_mirror fun ia ib => .differences ?_
  simp only [← ite_not (ia.content_hash = _), ← ite_not (ib.content_hash = _)]
  exact changed_if_mirror ne_comm (plain_change_line _ _ _) (plain_change_line _ _ _)

end Assurance

/-! ## The report -/

/-- The categories whose signed lines are exchanged. -/
def SIGNED_CATEGORIES : List String :=
  ["trace_graph", "tests", "commands", "anomalies", "objective_mappings"]

structure Exchanged (d d' : CategoryDiff) : Prop extends StatusMirror d d' where
  added : d.category ∈ SIGNED_CATEGORIES →
    signed_lines '+' d.details = signed_lines '-' d'.details
  removed : d.category ∈ SIGNED_CATEGORIES →
    signed_lines '-' d.details = signed_lines '+' d'.details

theorem ResultMirror.exchanged {d d' : CategoryDiff} (h : ResultMirror d d') :
    Exchanged (finish d) (finish d') :=
  ⟨⟨h.category, h.status⟩, fun _ => h.details.signed_lines_finish,
    fun _ => h.details.symm.signed_lines_finish.symm⟩

theorem StatusMirror.exchanged {d d' : CategoryDiff} (h : StatusMirror d d')
    (hcategory : d.category ∉ SIGNED_CATEGORIES) : Exchanged (finish d) (finish d') :=
  ⟨⟨h.category, h.status⟩, fun hmem => absurd hmem hcategory, fun hmem => absurd hmem hcategory⟩

section Whole

variable [DiffJson] [ReadDir] [TomlJson]

/-- The results of a category, sorted, are exchanged with its sides. -/
def Exchanges (x y : Except DiffError CategoryDiff) : Prop :=
  ExceptMirror (fun d d' => Exchanged (finish d) (finish d')) x y

omit [DiffJson] [ReadDir] [TomlJson] in
theorem ExceptMirror.exchanges {x y : Except DiffError CategoryDiff}
    (h : ExceptMirror ResultMirror x y) : Exchanges x y := by
  intro d hd
  obtain ⟨d', hd', hmirror⟩ := h d hd
  exact ⟨d', hd', hmirror.exchanged⟩

omit [DiffJson] [ReadDir] [TomlJson] in
theorem named_plain_exchanges {compare : FileTree → FileTree → Except DiffError CategoryDiff}
    {name : String} {a b : FileTree} (h : ExceptMirror ResultMirror (compare a b) (compare b a)) :
    Exchanges ((Category.plain compare).named name a b)
      ((Category.plain compare).named name b a) := by
  refine ExceptMirror.exchanges fun d hd => ?_
  simp only [Category.named, Category.plain, bind_ok_iff, Except.ok.injEq] at hd ⊢
  obtain ⟨verdict, ⟨given, hgiven, rfl⟩, rfl⟩ := hd
  obtain ⟨given', hgiven', hmirror⟩ := h given hgiven
  exact ⟨_, ⟨_, ⟨given', hgiven', rfl⟩, rfl⟩, ⟨⟨rfl, hmirror.status⟩, hmirror.details⟩⟩

omit [ReadDir] [TomlJson] in
theorem named_indexed_exchanges
    {compare : IndexedSide → IndexedSide → Except DiffError CategoryDiff} {name : String}
    {a b : FileTree} (h : ∀ a b, ExceptMirror ResultMirror (compare a b) (compare b a)) :
    Exchanges ((Category.indexed compare).named name a b)
      ((Category.indexed compare).named name b a) := by
  refine ExceptMirror.exchanges fun d hd => ?_
  simp only [Category.named, Category.indexed, bind_ok_iff, Except.ok.injEq] at hd ⊢
  obtain ⟨verdict, ⟨side_a, ha, side_b, hb, given, hgiven, rfl⟩, rfl⟩ := hd
  obtain ⟨given', hgiven', hmirror⟩ := h side_a side_b given hgiven
  exact ⟨_, ⟨_, ⟨side_b, hb, side_a, ha, given', hgiven', rfl⟩, rfl⟩,
    ⟨⟨rfl, hmirror.status⟩, hmirror.details⟩⟩

omit [ReadDir] [TomlJson] in
theorem named_plane_exchanges {name : String} {a b : FileTree} (hname : name ∉ SIGNED_CATEGORIES) :
    Exchanges ((Category.plain fun a b => digest_plane a b name).named name a b)
      ((Category.plain fun a b => digest_plane a b name).named name b a) := by
  intro d hd
  simp only [Category.named, Category.plain, bind_ok_iff, Except.ok.injEq] at hd ⊢
  obtain ⟨verdict, ⟨given, hgiven, rfl⟩, rfl⟩ := hd
  obtain ⟨given', hgiven', hmirror⟩ := digest_plane_mirror a b name given hgiven
  exact ⟨_, ⟨_, ⟨given', hgiven', rfl⟩, rfl⟩,
    StatusMirror.exchanged ⟨rfl, hmirror.status⟩ hname⟩

theorem categories_exchange (a b : Side) : List.Forall₂ Exchanges
    (categories bundle_categories a b) (categories bundle_categories b a) := by
  have hindexed : ∀ {compare : IndexedSide → IndexedSide → CategoryDiff} {name : String},
      (∀ a b, ResultMirror (compare a b) (compare b a)) →
        Exchanges ((Category.indexed fun a b => .ok (compare a b)).named name a.root b.root)
          ((Category.indexed fun a b => .ok (compare a b)).named name b.root a.root) :=
    fun h => named_indexed_exchanges fun a b => .ok (h a b)
  refine .cons (hindexed scope_mirror) (.cons (trace_graph_mirror _ _).exchanges ?_)
  refine .cons (tests_mirror a b).exchanges (.cons (named_plain_exchanges (coverage_mirror _ _)) ?_)
  refine .cons (named_plain_exchanges (commands_mirror _ _)) ?_
  refine .cons (named_plain_exchanges (recipe_mirror _ _)) ?_
  refine .cons (named_plane_exchanges (by decide)) (.cons (named_plane_exchanges (by decide)) ?_)
  refine .cons (named_indexed_exchanges objective_mappings_mirror) ?_
  refine .cons (ExceptMirror.ok reviews_approvals_mirror).exchanges ?_
  refine .cons (hindexed anomalies_mirror) ?_
  refine .cons (named_indexed_exchanges tool_identity_mirror) ?_
  refine .cons (ExceptMirror.ok (integrity_mirror _ _)).exchanges ?_
  exact .cons (hindexed completeness_states_mirror) (.cons (hindexed content_hash_mirror) .nil)

/-- **A comparison is exchanged with its sides**, category by category in the same order. -/
theorem compare_bundles_exchange {a b : FileTree} {report : List CategoryDiff}
    (h : compare_bundles bundle_categories (some a) (some b) = .ok report) :
    ∃ exchanged, compare_bundles bundle_categories (some b) (some a) = .ok exchanged ∧
      List.Forall₂ Exchanged report exchanged := by
  simp only [compare_bundles, bind_ok_iff, Except.ok.injEq] at h ⊢
  obtain ⟨side_a, hside_a, side_b, hside_b, out, hout, rfl⟩ := h
  have hcategories : List.Forall₂ (fun x y => ExceptMirror
      (fun d d' => Exchanged (finish d) (finish d')) (id x) (id y))
        (categories bundle_categories side_a side_b) (categories bundle_categories side_b side_a) :=
    categories_exchange side_a side_b
  obtain ⟨out', hout', hall⟩ := ExceptMirror.mapM hcategories out hout
  refine ⟨out'.map finish, ⟨side_b, hside_b, side_a, hside_a, out', hout', rfl⟩, ?_⟩
  rw [List.forall₂_map_left_iff, List.forall₂_map_right_iff]
  exact hall

end Whole

end Evidence.Diff
