/-
`diff/categories_assurance.rs` -- the status of the mappings and of the tool identity, and of
the five categories of artifacts together.

A part is a compliance report, an index or an environment. The mappings go wrong only in what
they do not show: a status before the last of its objective, a status that prints as another,
a listed report that is missing. The tool identity passes over reports that do not parse, and
without both indexes looks at nothing else (`status_precedence_iff`).
-/
import Evidence.Diff.Precedence

set_option autoImplicit false

namespace Evidence.Diff

open Std Sorting Check Evidence.Bundle
open Verify (ReproductionJson DigestMap digest_of IsDigest read_digest_map diff_digest_planes)

/-! ## The objective mappings -/

section Mappings

variable [DiffJson]

/-- The statuses a report records for an objective, in its order. -/
def statuses (id : String) (v : ReproductionJson.Value) : List (Option ReproductionJson.Value) :=
  (Store.under Prod.fst id (objective_entries v)).map Prod.snd

def REPORT_FIELDS : List String := ["dal", "assurance_level", "standards_pack"]

/-- Two reports differ in a field, or in the statuses of an objective. -/
def ReportContentDiffers (va vb : ReproductionJson.Value) : Prop :=
  (∃ field ∈ REPORT_FIELDS, field_of va field ≠ field_of vb field) ∨
    ∃ id, statuses id va ≠ statuses id vb

/-- Two reports differ in a field, or in the last status of an objective as it is printed. -/
def ReportContentShows (va vb : ReproductionJson.Value) : Prop :=
  (∃ field ∈ REPORT_FIELDS, field_of va field ≠ field_of vb field) ∨
    ∃ id, (statuses id va).getLast?.map status_label ≠ (statuses id vb).getLast?.map status_label

/-- A report that both sides can examine is on one of them only, or differs. -/
def ReportDiffers : Option (Load ReproductionJson.Value) → Option (Load ReproductionJson.Value) →
    Prop
  | some (.Ok _), none => True
  | none, some (.Ok _) => True
  | some (.Ok va), some (.Ok vb) => ReportContentDiffers va vb
  | _, _ => False

/-- The same by what is compared of a report. -/
def ReportShows : Option (Load ReproductionJson.Value) → Option (Load ReproductionJson.Value) →
    Prop
  | some (.Ok _), none => True
  | none, some (.Ok _) => True
  | some (.Ok va), some (.Ok vb) => ReportContentShows va vb
  | _, _ => False

/-- A report that is listed and cannot be parsed or found. -/
def ReportUnread (listed : Option (Load ReproductionJson.Value)) : Prop :=
  listed = some .Unparseable ∨ listed = some .Missing

theorem ReportContentShows.differs {va vb : ReproductionJson.Value} (h : ReportContentShows va vb) :
    ReportContentDiffers va vb := by
  refine h.imp_right fun ⟨id, hid⟩ => ⟨id, fun heq => hid ?_⟩
  rw [heq]

theorem ReportShows.differs {ra rb : Option (Load ReproductionJson.Value)} (h : ReportShows ra rb) :
    ReportDiffers ra rb := by
  unfold ReportShows at h
  unfold ReportDiffers
  split at h
  · trivial
  · trivial
  · exact h.differs
  · exact h.elim

theorem objectives_get (v : ReproductionJson.Value) (id : String) :
    (objectives v).get id = ((statuses id v).getLast?.map status_label).map fun label =>
      (id, label) := by
  have hunder : Store.under Prod.fst id ((objective_entries v).map fun entry =>
        (entry.1, status_label entry.2)) =
      (Store.under Prod.fst id (objective_entries v)).map fun entry =>
        (entry.1, status_label entry.2) := by
    rw [Store.under, List.filter_map]
    rfl
  have hids : ∀ entry ∈ Store.under Prod.fst id (objective_entries v), entry.1 = id :=
    fun entry h => of_decide_eq_true (List.mem_filter.mp h).2
  rw [objectives, Store.get_ofList_last, hunder, statuses, List.getLast?_map, List.getLast?_map,
    Option.map_map, Option.map_map]
  cases hlast : (Store.under Prod.fst id (objective_entries v)).getLast? with
  | none => rfl
  | some entry =>
    have hid := hids entry (List.mem_of_getLast? hlast)
    simp [hid]

omit [DiffJson] in
theorem key_set_lines_eq_nil_iff {κ ν : Type} [Ord κ] [TransOrd κ] [LawfulEqOrd κ] [DecidableEq κ]
    {key : ν → κ} {map_a map_b : Store key} {line : κ → Option ν → Option ν → List String}
    (hline : ∀ k, line k none none = []) :
    ((key_set map_a map_b).flatMap fun k => line k (map_a.get k) (map_b.get k)) = [] ↔
      ∀ k, line k (map_a.get k) (map_b.get k) = [] := by
  rw [List.flatMap_eq_nil_iff]
  constructor
  · intro h k
    by_cases hmem : k ∈ key_set map_a map_b
    · exact h k hmem
    · rw [mem_key_set, not_or, not_not, not_not] at hmem
      rw [hmem.1, hmem.2]
      exact hline k
  · intro h k _
    exact h k

omit [DiffJson] in
theorem objective_line_eq_nil_iff {krate id : String} {sa sb : Option String} :
    objective_line krate id (sa.map fun label => (id, label))
      (sb.map fun label => (id, label)) = [] ↔ sa = sb := by
  cases sa with
  | none => cases sb <;> simp [objective_line]
  | some sa =>
    cases sb with
    | none => simp [objective_line]
    | some sb => by_cases h : sa = sb <;> simp [objective_line, h]

theorem compare_report_ne_nil_iff {name : String} {va vb : ReproductionJson.Value} :
    compare_report name va vb ≠ [] ↔ ReportContentShows va vb := by
  have hfields : (∀ field ∈ ["dal", "assurance_level"], field_of va field = field_of vb field) ∧
      field_of va "standards_pack" = field_of vb "standards_pack" ↔
        ∀ field ∈ REPORT_FIELDS, field_of va field = field_of vb field := by
    simp [REPORT_FIELDS, and_assoc]
  have hpack : (if field_of va "standards_pack" ≠ field_of vb "standards_pack" then
      ["~ " ++ crate_of name ++ " standards_pack identity changed"] else []) = [] ↔
        field_of va "standards_pack" = field_of vb "standards_pack" := by
    by_cases h : field_of va "standards_pack" = field_of vb "standards_pack" <;> simp [h]
  rw [compare_report, ne_eq, List.append_eq_nil_iff, List.append_eq_nil_iff,
    field_changes_eq_nil_iff, hpack, hfields, key_set_lines_eq_nil_iff fun _ => rfl]
  simp only [objectives_get, objective_line_eq_nil_iff, ReportContentShows, not_and_or, not_forall,
    exists_prop, ne_eq]

theorem report_findings_changed {name : String} {ra rb : Option (Load ReproductionJson.Value)} :
    (report_findings name ra rb).changed = true ↔ ReportShows ra rb := by
  unfold report_findings ReportShows
  split
  · simp
  · simp
  · simp
  · simp
  · simp
  · simp
  · simp
  · rw [Findings.differences_changed, compare_report_ne_nil_iff]

theorem report_findings_unexaminable {name : String}
    {ra rb : Option (Load ReproductionJson.Value)} :
    (report_findings name ra rb).unexaminable = true ↔
      ra = some .Unparseable ∨ rb = some .Unparseable := by
  unfold report_findings
  split <;> simp_all

theorem mapping_findings_exists {ra rb : ComplianceReports}
    {p : Option (Load ReproductionJson.Value) → Option (Load ReproductionJson.Value) → Prop}
    (hp : ¬ p none none) :
    (∃ name ∈ chained_keys ra rb, p (ra.listed name) (rb.listed name)) ↔
      ∃ name, p (ra.listed name) (rb.listed name) := by
  constructor
  · rintro ⟨name, -, h⟩
    exact ⟨name, h⟩
  · rintro ⟨name, h⟩
    refine ⟨name, mem_chained_keys.mpr ?_, h⟩
    by_contra hnone
    rw [not_or, not_not, not_not] at hnone
    rw [ComplianceReports.listed, ComplianceReports.listed, hnone.1, hnone.2] at h
    exact hp h

theorem mapping_findings_changed {ra rb : ComplianceReports} :
    (mapping_findings ra rb).changed = true ↔
      ∃ name, ReportShows (ra.listed name) (rb.listed name) := by
  rw [mapping_findings, Findings.foldr_add_changed,
    ← mapping_findings_exists (by simp [ReportShows])]
  simp [report_findings_changed]

theorem mapping_findings_unexaminable {ra rb : ComplianceReports} :
    (mapping_findings ra rb).unexaminable = true ↔
      ∃ name, ra.listed name = some .Unparseable ∨ rb.listed name = some .Unparseable := by
  rw [mapping_findings, Findings.foldr_add_unexaminable,
    ← @mapping_findings_exists _ ra rb (fun x y => x = some .Unparseable ∨ y = some .Unparseable)
      (by simp)]
  simp [report_findings_unexaminable]

variable [ReadDir]

/-- What both sides list. -/
def ReportsLoaded (a b : FileTree) (ra rb : ComplianceReports) : Prop :=
  load_compliance_reports a = .ok ra ∧ load_compliance_reports b = .ok rb

theorem ReportsLoaded.unique {a b : FileTree} {ra rb ra' rb' : ComplianceReports}
    (h : ReportsLoaded a b ra rb) (h' : ReportsLoaded a b ra' rb') : ra = ra' ∧ rb = rb' := by
  obtain ⟨ha, hb⟩ := h
  obtain ⟨ha', hb'⟩ := h'
  rw [ha] at ha'
  rw [hb] at hb'
  exact ⟨Except.ok.inj ha', Except.ok.inj hb'⟩

/-- Some report that both sides can examine is on one of them only, or differs. -/
def MappingsDiffer (a b : FileTree) : Prop :=
  ∃ ra rb, ReportsLoaded a b ra rb ∧ ∃ name, ReportDiffers (ra.listed name) (rb.listed name)

/-- Some report is on one side only, or differs in what is compared of it. -/
def MappingsShown (a b : FileTree) : Prop :=
  ∃ ra rb, ReportsLoaded a b ra rb ∧ ∃ name, ReportShows (ra.listed name) (rb.listed name)

/-- Some listed report cannot be parsed or found. -/
def ReportsUnexamined (a b : FileTree) : Prop :=
  ∃ ra rb, ReportsLoaded a b ra rb ∧
    ∃ name, ReportUnread (ra.listed name) ∨ ReportUnread (rb.listed name)

/-- Some listed report cannot be parsed. -/
def ReportsNoted (a b : FileTree) : Prop :=
  ∃ ra rb, ReportsLoaded a b ra rb ∧
    ∃ name, ra.listed name = some .Unparseable ∨ rb.listed name = some .Unparseable

/-- Both sides list a report. -/
def MappingsPresent (a b : FileTree) : Prop :=
  ∃ ra rb, ReportsLoaded a b ra rb ∧ ra.is_empty = false ∧ rb.is_empty = false

/-- What is said of the listed reports is said of those that were listed. -/
theorem reportsLoaded_exists {a b : FileTree} {ra rb : ComplianceReports}
    (h : ReportsLoaded a b ra rb) {p : ComplianceReports → ComplianceReports → Prop} :
    (∃ ra rb, ReportsLoaded a b ra rb ∧ p ra rb) ↔ p ra rb := by
  constructor
  · rintro ⟨ra', rb', h', hp⟩
    obtain ⟨rfl, rfl⟩ := h.unique h'
    exact hp
  · intro hp
    exact ⟨ra, rb, h, hp⟩

/-- **The status of the mappings follows the precedence** exactly when a difference shows, or there
is none and, if a listed report cannot be examined, one does not parse. -/
theorem objective_mappings_precedence_iff {a b : IndexedSide} {diff : CategoryDiff}
    (h : objective_mappings a b = .ok diff) (hpresent : MappingsPresent a.root b.root) :
    Precedence (MappingsDiffer a.root b.root) (ReportsUnexamined a.root b.root)
        (diff.status = ·) ↔
      MappingsShown a.root b.root ∨ (¬ MappingsDiffer a.root b.root ∧
        (ReportsUnexamined a.root b.root → ReportsNoted a.root b.root)) := by
  simp only [objective_mappings, bind_ok_iff, Except.ok.injEq] at h
  obtain ⟨ra, hra, rb, hrb, rfl⟩ := h
  have hloaded : ReportsLoaded a.root b.root ra rb := ⟨hra, hrb⟩
  obtain ⟨hea, heb⟩ := (reportsLoaded_exists hloaded).mp hpresent
  have hcompare : compare_mappings a b ra rb = (mapping_findings ra rb).report
      "objective_mappings" := by
    rw [compare_mappings, hea, heb]
    rfl
  rw [hcompare]
  apply precedence_shown_iff
  · rw [mapping_findings_changed, MappingsShown, reportsLoaded_exists hloaded]
  · rw [mapping_findings_unexaminable, ReportsNoted, reportsLoaded_exists hloaded]
  · rintro ⟨ra, rb, hl, name, hshows⟩
    exact ⟨ra, rb, hl, name, hshows.differs⟩
  · rintro ⟨ra, rb, hl, name, hnoted⟩
    exact ⟨ra, rb, hl, name, hnoted.imp .inl .inl⟩

end Mappings

/-! ## The tool identity -/

section Tools

variable [DiffJson]

def IndexesLoaded (a b : FileTree) (ia ib : Index) : Prop :=
  read_json_file DiffJson.record_from_slice a "index.json" = .ok (.Ok ia) ∧
    read_json_file DiffJson.record_from_slice b "index.json" = .ok (.Ok ib)

def EnvsLoaded (a b : FileTree) (ea eb : ReproductionJson.Value) : Prop :=
  read_json_file ReproductionJson.value_from_slice a "env.json" = .ok (.Ok ea) ∧
    read_json_file ReproductionJson.value_from_slice b "env.json" = .ok (.Ok eb)

/-- Two indexes name another engine. -/
def EnginesDiffer (a b : FileTree) : Prop :=
  ∃ ia ib, IndexesLoaded a b ia ib ∧
    ∃ field ∈ ENGINE_FIELDS, field_of ia.value field ≠ field_of ib.value field

/-- Two environments name another toolchain. -/
def EnvsDiffer (a b : FileTree) : Prop :=
  ∃ ea eb, EnvsLoaded a b ea eb ∧ ∃ field ∈ ENV_FIELDS, field_of ea field ≠ field_of eb field

/-- A pack is named by a report that parses and is among the examined ones. -/
def HasPack (reports : ComplianceReports) (examined : String → Prop) (pack : String) : Prop :=
  ∃ name v, examined name ∧ reports.listed name = some (.Ok v) ∧
    (ReproductionJson.get v "standards_pack").map DiffJson.to_string = some pack

/-- A name under which neither side lists what it cannot examine. -/
def Examinable (ra rb : ComplianceReports) (name : String) : Prop :=
  ¬ ReportUnread (ra.listed name) ∧ ¬ ReportUnread (rb.listed name)

variable [ReadDir]

/-- Some pack is named on one side only, by reports that both sides can examine. -/
def PacksDiffer (a b : FileTree) : Prop :=
  ∃ ra rb, ReportsLoaded a b ra rb ∧ ∃ pack,
    ¬ (HasPack ra (Examinable ra rb) pack ↔ HasPack rb (Examinable ra rb) pack)

/-- Some pack is named on one side only. -/
def PacksShown (a b : FileTree) : Prop :=
  ∃ ra rb, ReportsLoaded a b ra rb ∧ ∃ pack,
    ¬ (HasPack ra (fun _ => True) pack ↔ HasPack rb (fun _ => True) pack)

/-- The engine, the toolchain or the packs really differ. -/
def ToolsDiffer (a b : FileTree) : Prop := EnginesDiffer a b ∨ EnvsDiffer a b ∨ PacksDiffer a b

/-- An index, an environment or a listed report cannot be examined. -/
def ToolsUnexamined (a b : FileTree) : Prop :=
  (∀ ia ib, ¬ IndexesLoaded a b ia ib) ∨ (∀ ea eb, ¬ EnvsLoaded a b ea eb) ∨ ReportsUnexamined a b

/-- Both indexes parse, and a field differs; or none does, the packs that are named differ
exactly if those of the examinable reports do, and if these are the same, a report that cannot
be examined is outdone by an environment that cannot. Or an index does not parse, and
nothing else differs. -/
def ToolsSettled (a b : FileTree) : Prop :=
  ((∃ ia ib, IndexesLoaded a b ia ib) ∧ (EnginesDiffer a b ∨ EnvsDiffer a b ∨
    ((PacksShown a b ↔ PacksDiffer a b) ∧
      (¬ PacksDiffer a b → ReportsUnexamined a b → ∀ ea eb, ¬ EnvsLoaded a b ea eb)))) ∨
  ((∀ ia ib, ¬ IndexesLoaded a b ia ib) ∧ ¬ ToolsDiffer a b)

omit [ReadDir] in
theorem mem_pack_set {reports : ComplianceReports} {pack : String} :
    pack ∈ pack_set reports ↔ HasPack reports (fun _ => True) pack := by
  rw [pack_set, mem_destutter_ne, mem_sortBy, List.mem_filterMap, HasPack]
  constructor
  · rintro ⟨entry, hentry, hpack⟩
    have hget := Store.mem_values.mp hentry
    split at hpack
    · next v hv =>
      refine ⟨entry.name, v, trivial, ?_, hpack⟩
      rw [ComplianceReports.listed, hget, Option.map_some, hv]
    · cases hpack
  · rintro ⟨name, v, -, hlisted, hpack⟩
    obtain ⟨entry, hentry, hv⟩ := Option.map_eq_some_iff.mp hlisted
    refine ⟨entry, Store.mem_values_of_get hentry, ?_⟩
    rw [hv]
    exact hpack

omit [ReadDir] in
theorem pack_set_ne_iff {ra rb : ComplianceReports} :
    pack_set ra ≠ pack_set rb ↔ ∃ pack,
      ¬ (HasPack ra (fun _ => True) pack ↔ HasPack rb (fun _ => True) pack) := by
  simp only [← mem_pack_set, ← not_forall]
  refine not_congr ⟨fun h pack => by rw [h], fun h => ?_⟩
  unfold pack_set at h ⊢
  simp only [mem_destutter_ne, mem_sortBy] at h
  exact destutter_sortBy_eq_iff.mpr h

omit [ReadDir] in
theorem env_findings_changed {env_a env_b : Load ReproductionJson.Value} :
    (env_findings env_a env_b).changed = true ↔ ∃ ea eb, env_a = .Ok ea ∧ env_b = .Ok eb ∧
      ∃ field ∈ ENV_FIELDS, field_of ea field ≠ field_of eb field := by
  unfold env_findings
  split
  · next ea eb =>
    rw [Findings.differences_changed, ne_eq, field_changes_eq_nil_iff]
    simp
  · next hnot =>
    simp only [Bool.false_eq_true, false_iff]
    rintro ⟨ea, eb, ha, hb, -⟩
    exact hnot ea eb ha hb

omit [ReadDir] in
theorem env_findings_unexaminable {env_a env_b : Load ReproductionJson.Value} :
    (env_findings env_a env_b).unexaminable = true ↔
      ¬ ∃ ea eb, env_a = .Ok ea ∧ env_b = .Ok eb := by
  unfold env_findings
  split
  · simp
  · next hnot =>
    simp only [true_iff]
    rintro ⟨ea, eb, ha, hb⟩
    exact hnot ea eb ha hb

omit [ReadDir] in
theorem require_indexes_ok {a b : IndexedSide} {category : String} {ia ib : Index}
    (h : require_indexes a b category = .ok (ia, ib)) : a.index = .Ok ia ∧ b.index = .Ok ib := by
  unfold require_indexes at h
  split at h
  · next ha hb =>
    rw [Except.ok.injEq, Prod.mk.injEq] at h
    rw [ha, hb, h.1, h.2]
    exact ⟨rfl, rfl⟩
  all_goals cases h

omit [ReadDir] in
theorem require_indexes_blocked {a b : IndexedSide} {category : String} {diff : CategoryDiff}
    (h : require_indexes a b category = .error diff) : diff.status = .Unverifiable := by
  unfold require_indexes at h
  split at h
  · cases h
  all_goals
    rw [← Except.error.inj h]
    rfl

omit [ReadDir] in
theorem indexedSide_load {root : FileTree} {side : IndexedSide}
    (h : IndexedSide.load root = .ok side) :
    side.root = root ∧
      read_json_file DiffJson.record_from_slice root "index.json" = .ok side.index := by
  obtain ⟨index, hindex, hside⟩ := bind_ok_iff.mp h
  rw [← Except.ok.inj hside]
  exact ⟨rfl, hindex⟩

/-- Where an index does not parse the tools cannot be compared, and nothing else may differ. -/
theorem blocked_tools_precedence_iff {a b : FileTree} {diff : CategoryDiff}
    (hnone : ∀ ia ib, ¬ IndexesLoaded a b ia ib) (hstatus : diff.status = .Unverifiable) :
    Precedence (ToolsDiffer a b) (ToolsUnexamined a b) (diff.status = ·) ↔ ToolsSettled a b := by
  have hunexamined : ToolsUnexamined a b := .inl hnone
  have hsettled : ToolsSettled a b ↔ ¬ ToolsDiffer a b := by
    constructor
    · rintro (⟨⟨ia, ib, hloaded⟩, -⟩ | ⟨-, hnot⟩)
      · exact absurd hloaded (hnone ia ib)
      · exact hnot
    · intro hnot
      exact .inr ⟨hnone, hnot⟩
  rw [hsettled]
  constructor
  · intro hprecedence
    exact (hprecedence.unverifiable.mp hstatus).1
  · intro hnot
    refine ⟨?_, ?_, ?_⟩ <;> simp [hstatus, hnot, hunexamined]

omit [ReadDir] in
theorem enginesDiffer_iff {a b : FileTree} {ia ib : Index}
    (hindexes : IndexesLoaded a b ia ib) :
    field_changes id (field_of ia.value) (field_of ib.value) ENGINE_FIELDS ≠ [] ↔
      EnginesDiffer a b := by
  rw [ne_eq, field_changes_eq_nil_iff]
  constructor
  · intro hne
    obtain ⟨field, hfield⟩ := not_forall.mp hne
    rw [Classical.not_imp] at hfield
    exact ⟨ia, ib, hindexes, field, hfield⟩
  · rintro ⟨ia', ib', ⟨hia', hib'⟩, field, hfield, hne⟩ hall
    rw [hindexes.1, Except.ok.injEq, Load.Ok.injEq] at hia'
    rw [hindexes.2, Except.ok.injEq, Load.Ok.injEq] at hib'
    subst hia' hib'
    exact hne (hall field hfield)

/-- What is asked where both indexes parse. -/
theorem toolsSettled_iff {a b : FileTree} {ia ib : Index}
    (hindexes : IndexesLoaded a b ia ib) :
    ToolsSettled a b ↔ EnginesDiffer a b ∨ EnvsDiffer a b ∨
      ((PacksShown a b ↔ PacksDiffer a b) ∧
        (¬ PacksDiffer a b → ReportsUnexamined a b → ∀ ea eb, ¬ EnvsLoaded a b ea eb)) := by
  constructor
  · rintro (⟨-, hsettled⟩ | ⟨hnone, -⟩)
    · exact hsettled
    · exact absurd hindexes (hnone ia ib)
  · intro hsettled
    exact .inl ⟨⟨ia, ib, hindexes⟩, hsettled⟩

/-- **The status of the tool identity follows the precedence** exactly when both indexes parse and
what is passed over changes nothing, or one does not and nothing else differs. -/
theorem tool_identity_precedence_iff {a b : FileTree} {side_a side_b : IndexedSide}
    {diff : CategoryDiff} (ha : IndexedSide.load a = .ok side_a)
    (hb : IndexedSide.load b = .ok side_b) (h : tool_identity side_a side_b = .ok diff) :
    Precedence (ToolsDiffer a b) (ToolsUnexamined a b) (diff.status = ·) ↔ ToolsSettled a b := by
  obtain ⟨hroot_a, hindex_a⟩ := indexedSide_load ha
  obtain ⟨hroot_b, hindex_b⟩ := indexedSide_load hb
  unfold tool_identity at h
  cases hrequired : require_indexes side_a side_b "tool_identity" with
  | error blocked =>
    rw [hrequired] at h
    have hstatus : diff.status = .Unverifiable := by
      rw [← Except.ok.inj h]
      exact require_indexes_blocked hrequired
    have hnone : ∀ ia ib, ¬ IndexesLoaded a b ia ib := by
      rintro ia ib ⟨hia, hib⟩
      rw [hindex_a, Except.ok.injEq] at hia
      rw [hindex_b, Except.ok.injEq] at hib
      rw [require_indexes, hia, hib] at hrequired
      cases hrequired
    exact blocked_tools_precedence_iff hnone hstatus
  | ok indexes =>
    obtain ⟨ia, ib⟩ := indexes
    rw [hrequired] at h
    simp only [bind_ok_iff, Except.ok.injEq, hroot_a, hroot_b] at h
    obtain ⟨env_a, henv_a, env_b, henv_b, ra, hra, rb, hrb, rfl⟩ := h
    obtain ⟨hia, hib⟩ := require_indexes_ok hrequired
    have hindexes : IndexesLoaded a b ia ib := ⟨hindex_a.trans (congrArg _ hia),
      hindex_b.trans (congrArg _ hib)⟩
    have hreports : ReportsLoaded a b ra rb := ⟨hra, hrb⟩
    have hloads : ∀ ea eb, EnvsLoaded a b ea eb ↔ env_a = .Ok ea ∧ env_b = .Ok eb := by
      intro ea eb
      rw [EnvsLoaded, henv_a, henv_b, Except.ok.injEq, Except.ok.injEq]
    have henvs : (env_findings env_a env_b).changed = true ↔ EnvsDiffer a b := by
      rw [env_findings_changed]
      simp only [EnvsDiffer, hloads, and_assoc]
    have hpacks : (pack_findings ra rb).changed = true ↔ PacksShown a b := by
      rw [pack_findings, Findings.differences_changed, ne_eq, ite_eq_right_iff, Classical.not_imp,
        and_iff_left (List.cons_ne_nil _ _), pack_set_ne_iff, PacksShown,
        reportsLoaded_exists hreports]
    have hquiet : (pack_findings ra rb).unexaminable = false := rfl
    have hparts : (env_findings env_a env_b).unexaminable = true ↔
        ∀ ea eb, ¬ EnvsLoaded a b ea eb := by
      rw [env_findings_unexaminable]
      simp only [hloads, not_exists]
    have hunexamined : ToolsUnexamined a b ↔
        (∀ ea eb, ¬ EnvsLoaded a b ea eb) ∨ ReportsUnexamined a b := by
      rw [ToolsUnexamined]
      exact or_iff_right fun hnone => hnone ia ib hindexes
    rw [precedence_findings_iff, toolsSettled_iff hindexes, hunexamined, ToolsDiffer]
    simp only [Findings.add, Bool.or_eq_true, Findings.differences_changed,
      Findings.differences_unexaminable, enginesDiffer_iff hindexes, henvs, hpacks, hparts, hquiet,
      Bool.false_eq_true, false_or, or_false]
    by_cases he : EnginesDiffer a b
    · simp [he]
    · by_cases hv : EnvsDiffer a b
      · simp [he, hv]
      · simp only [he, hv, false_or]
        refine and_congr_right fun _ => forall_congr' fun _ => ⟨fun hiff => ?_, fun himp => ?_⟩
        · exact fun hunread => hiff.mpr (.inr hunread)
        · exact ⟨.inl, fun hor => hor.elim id himp⟩

end Tools

/-! ## The five categories -/

section Report

variable [DiffJson] [ReadDir] [TomlJson]

/-- The categories that compare artifacts a bundle may have. -/
inductive Examined where
  | trace_graph
  | inputs
  | outputs
  | objective_mappings
  | tool_identity

namespace Examined

def name : Examined → String
  | trace_graph => "trace_graph"
  | inputs => "inputs"
  | outputs => "outputs"
  | objective_mappings => "objective_mappings"
  | tool_identity => "tool_identity"

/-- Both sides have the file. -/
def BothHave (a b : FileTree) (file : String) : Prop :=
  a.exists_text file.toList = true ∧ b.exists_text file.toList = true

/-- Both sides have the artifacts. -/
def Present (a b : FileTree) : Examined → Prop
  | trace_graph => is_dir a "trace" = true ∧ is_dir b "trace" = true
  | inputs => BothHave a b (plane_file "inputs")
  | outputs => BothHave a b (plane_file "outputs")
  | objective_mappings => MappingsPresent a b
  | tool_identity => BothHave a b "index.json" ∧ BothHave a b "env.json"

/-- There is a real difference. -/
def Differs (a b : FileTree) : Examined → Prop
  | trace_graph => TracesDiffer a b
  | inputs => PlanesDiffer a b "inputs"
  | outputs => PlanesDiffer a b "outputs"
  | objective_mappings => MappingsDiffer a b
  | tool_identity => ToolsDiffer a b

/-- Some part could not be examined. -/
def Unexamined (a b : FileTree) : Examined → Prop
  | trace_graph => TracesUnexamined a b
  | inputs => PlanesUnexamined a b "inputs"
  | outputs => PlanesUnexamined a b "outputs"
  | objective_mappings => ReportsUnexamined a b
  | tool_identity => ToolsUnexamined a b

/-- When the status follows the precedence. -/
def Settled (a b : FileTree) : Examined → Prop
  | trace_graph => TracesShown a b ∨ (¬ TracesDiffer a b ∧ (TracesUnexamined a b → TracesNoted a b))
  | inputs => PlanesSettled a b "inputs"
  | outputs => PlanesSettled a b "outputs"
  | objective_mappings => MappingsShown a b ∨
      (¬ MappingsDiffer a b ∧ (ReportsUnexamined a b → ReportsNoted a b))
  | tool_identity => ToolsSettled a b

end Examined

omit [DiffJson] [ReadDir] in
theorem reports_of_mem [SerdeJson] {others : OtherCategories} {a b : FileTree}
    {report : List CategoryDiff} (h : compare_bundles others (some a) (some b) = .ok report)
    (entry : Except DiffError CategoryDiff) {name : String}
    (hmem : ∀ side_a side_b : Side, side_a.root = a → side_b.root = b →
      entry ∈ categories others side_a side_b)
    (hname : ∀ diff, entry = .ok diff → diff.category = name) :
    ∃ diff, entry = .ok diff ∧ Reports report name = (diff.status = ·) := by
  simp only [compare_bundles, bind_ok_iff, Except.ok.injEq] at h
  obtain ⟨side_a, hside_a, side_b, hside_b, out, hout, rfl⟩ := h
  obtain ⟨index_a, -, hroot_a⟩ := bind_ok_iff.mp hside_a
  obtain ⟨index_b, -, hroot_b⟩ := bind_ok_iff.mp hside_b
  have hentry := hmem side_a side_b (by rw [← Except.ok.inj hroot_a])
    (by rw [← Except.ok.inj hroot_b])
  obtain ⟨diff, -, hdiff⟩ := Collect.exists_of_mem_left (mapM_ok_iff.mp hout) hentry
  rw [id_eq] at hdiff
  refine ⟨diff, hdiff, funext fun status => propext ?_⟩
  rw [← hname diff hdiff]
  rw [hdiff] at hentry
  exact reports_iff hout hentry status

omit [DiffJson] [ReadDir] [TomlJson] in
theorem named_plain_ok {compare : FileTree → FileTree → Except DiffError CategoryDiff}
    {name : String} {a b : FileTree} {diff : CategoryDiff}
    (h : (Category.plain compare).named name a b = .ok diff) :
    ∃ given, compare a b = .ok given ∧ diff.status = given.status := by
  simp only [Category.named, Category.plain, bind_ok_iff, Except.ok.injEq] at h
  obtain ⟨verdict, ⟨given, hgiven, rfl⟩, rfl⟩ := h
  exact ⟨given, hgiven, rfl⟩

omit [ReadDir] [TomlJson] in
theorem named_indexed_ok {compare : IndexedSide → IndexedSide → Except DiffError CategoryDiff}
    {name : String} {a b : FileTree} {diff : CategoryDiff}
    (h : (Category.indexed compare).named name a b = .ok diff) :
    ∃ side_a side_b given, IndexedSide.load a = .ok side_a ∧ IndexedSide.load b = .ok side_b ∧
      compare side_a side_b = .ok given ∧ diff.status = given.status := by
  simp only [Category.named, Category.indexed, bind_ok_iff, Except.ok.injEq] at h
  obtain ⟨verdict, ⟨side_a, ha, side_b, hb, given, hgiven, rfl⟩, rfl⟩ := h
  exact ⟨side_a, side_b, given, ha, hb, hgiven, rfl⟩

end Report

/-! ## A malformed digest on both sides -/

/-- The text of a plane whose one digest is malformed. -/
def malformed_text : String := "\x7b\"src/main.rs\":\"unknown\"\x7d"

/-- The plane of that text; nothing else is parsed. -/
@[reducible] def malformed_json : DiffJson where
  map_from_slice := fun bytes =>
    if bytes = str_bytes malformed_text then some (Store.ofList [("src/main.rs", "unknown")])
    else none
  Value := Unit
  value_eq := inferInstance
  null := ()
  get := fun _ _ => none
  value_from_slice := fun _ => none
  as_str := fun _ => none
  as_array := fun _ => none
  as_object := fun _ => none
  to_string := fun _ => "null"
  record_from_slice := fun _ => none
  outcome_from_str := fun _ => none
  commands_from_slice := fun _ => none
  coverage_from_slice := fun _ => none

/-- No directory is listed. -/
@[reducible] def no_listing : ReadDir where
  read_dir := fun _ _ => none

/-- A bundle of that plane of inputs. -/
def malformed_inputs : FileTree where
  entries := [(path_of ["inputs_hashes.json"], .File (str_bytes malformed_text))]
  outside := fun _ => none
  nodup := by decide
  named := by decide
  parents := by decide

section Malformed

attribute [local instance] malformed_json no_listing system_toml

theorem malformed_compared : ∃ report, compare_bundles bundle_categories (some malformed_inputs)
    (some malformed_inputs) = .ok report ∧
      (report.filter fun diff => diff.category = "inputs").map CategoryDiff.status =
        [.Changed] := by
  have hstatus : (compare_bundles bundle_categories (some malformed_inputs)
      (some malformed_inputs)).toOption.map (fun report => (report.filter fun diff =>
        diff.category = "inputs").map CategoryDiff.status) = some [.Changed] := by
    decide +kernel
  exact ok_of_view hstatus

end Malformed

end Evidence.Diff
