/-
`context/lookup.rs` -- when the lists of a report are exact and independent of the order.

The report promises every distinct requirement that is reached, sorted by id, and tests
sorted by name (`context/report.rs`). The tests are as promised for all traces whose uids,
ids and test titles are distinct. Two things depend on the order of the trace files. The
requirements are not sorted: they stand as the file has them. And the parents share one
set of uids seen: a system requirement that is linked directly, before the high-level
requirement that links to it, is passed over when that one comes to it.

So the lists of a trace are exact, and those of a rearranged trace are the same, if and
only if both traces are in order (`context_lists_promise_iff`).
-/
import Evidence.Context.RollUp

set_option autoImplicit false

namespace Evidence.Context

open LayeredVisit Sorting
open Trace (HlrEntry LlrEntry TestEntry TraceFiles)

/-! ## What the lists should hold -/

def ResolvedSelector.module_path : ResolvedSelector → String
  | Workspace => ""
  | File _ _ crate_name _ => replace_char '-' '_' crate_name
  | Crate _ crate_name _ => replace_char '-' '_' crate_name
  | Module _ path _ => path

/-- A module equals a path, extends it, or is extended by it. -/
def Overlaps (module path : String) : Prop :=
  module = path ∨ (path ++ "::").toList <+: module.toList ∨ (module ++ "::").toList <+: path.toList

theorem overlaps_iff_any {module path : String} :
    matches_any_prefix module [path] = true ↔ Overlaps module path := by
  unfold matches_any_prefix Overlaps
  rw [List.any_cons, List.any_nil, Bool.or_false, Bool.or_eq_true, Bool.or_eq_true, beq_iff_eq,
    List.isPrefixOf_iff_prefix, List.isPrefixOf_iff_prefix, or_assoc]

instance (module path : String) : Decidable (Overlaps module path) :=
  decidable_of_iff ( matches_any_prefix module [path] = true) overlaps_iff_any

/-- A low-level requirement has a module that overlaps the selector's. -/
def Listed (selector : ResolvedSelector) (llr : LlrEntry) : Prop :=
  ∃ m ∈ llr.modules, Overlaps m selector.module_path

instance (selector : ResolvedSelector) (llr : LlrEntry) : Decidable (Listed selector llr) :=
  inferInstanceAs (Decidable (∃ m ∈ llr.modules, Overlaps m selector.module_path))

def LinksTo (links : List String) (uid : Option String) : Prop := ∃ u ∈ links, uid = some u

/-- A listed requirement links to the high-level one. -/
def LinkedHlr (t : TraceFiles) (selector : ResolvedSelector) (hlr : HlrEntry) : Prop :=
  ∃ llr ∈ t.llr.requirements, Listed selector llr ∧ LinksTo llr.traces_to hlr.uid

/-- A high-level requirement that is linked links to the system requirement. -/
def LinkedSys (t : TraceFiles) (selector : ResolvedSelector) (sys : HlrEntry) : Prop :=
  ∃ hlr ∈ t.hlr.requirements, LinkedHlr t selector hlr ∧ LinksTo hlr.traces_to sys.uid

def RequirementRow (t : TraceFiles) (selector : ResolvedSelector) (row : RequirementRef) : Prop :=
  ∃ llr ∈ t.llr.requirements, Listed selector llr ∧ llr_to_ref llr = row

def ParentRow (t : TraceFiles) (selector : ResolvedSelector) (row : ParentRef) : Prop :=
  (∃ hlr ∈ t.hlr.requirements, LinkedHlr t selector hlr ∧ hlr_to_parent_ref hlr = row) ∨
    ∃ sys ∈ t.sys.requirements, LinkedSys t selector sys ∧ sys_to_parent_ref sys = row

def TestRow (t : TraceFiles) (selector : ResolvedSelector) (row : TestRef) : Prop :=
  ∃ test ∈ t.tests.tests, (∃ llr ∈ t.llr.requirements, Listed selector llr ∧
    LinksTo test.traces_to llr.uid) ∧ test_to_ref test = row

/-- A list holds the rows that qualify, each once, sorted by a key. -/
structure Exactly {α : Type} (key : α → String) (qualifies : α → Prop) (l : List α) : Prop where
  mem : ∀ row, row ∈ l ↔ qualifies row
  strict : l.Pairwise fun a b => compareOn key a b = .lt

structure ListsExact (t : TraceFiles) (selector : ResolvedSelector) (report : ContextReport) :
    Prop where
  requirements : Exactly RequirementRef.id (RequirementRow t selector) report.requirements
  parents : Exactly ParentRef.id (ParentRow t selector) report.parents
  tests : Exactly TestRef.name (TestRow t selector) report.tests

/-! ## Rearranged traces -/

/-- Two values differ in the order of their links at most. -/
def Relinked {α : Type} (links : α → List String) (relink : α → List String → α) (a b : α) :
    Prop :=
  (links a).Perm (links b) ∧ b = relink a (links b)

def relink_hlr (hlr : HlrEntry) (links : List String) : HlrEntry := { hlr with traces_to := links }

def relink_llr (llr : LlrEntry) (links : List String) : LlrEntry := { llr with traces_to := links }

def relink_test (t : TestEntry) (links : List String) : TestEntry := { t with traces_to := links }

def relink_requirement (row : RequirementRef) (links : List String) : RequirementRef :=
  { row with traces_to := links }

def relink_parent (row : ParentRef) (links : List String) : ParentRef :=
  { row with traces_to := links }

def relink_test_ref (row : TestRef) (links : List String) : TestRef :=
  { row with traces_to := links }

/-- The entries are permuted, and then the links of each. -/
def Reordered {α : Type} (same : α → α → Prop) (l l' : List α) : Prop :=
  ∃ m, l.Perm m ∧ List.Forall₂ same m l'

structure Rearranged (t t' : TraceFiles) : Prop where
  sys : Reordered (Relinked HlrEntry.traces_to relink_hlr) t.sys.requirements t'.sys.requirements
  hlr : Reordered (Relinked HlrEntry.traces_to relink_hlr) t.hlr.requirements t'.hlr.requirements
  llr : Reordered (Relinked LlrEntry.traces_to relink_llr) t.llr.requirements t'.llr.requirements
  tests : Reordered (Relinked TestEntry.traces_to relink_test) t.tests.tests t'.tests.tests

/-- Two reports list the same, but for the order of the links of a row. -/
structure Unchanged (report report' : ContextReport) : Prop where
  requirements : List.Forall₂ (Relinked RequirementRef.traces_to relink_requirement)
    report.requirements report'.requirements
  parents : List.Forall₂ (Relinked ParentRef.traces_to relink_parent)
    report.parents report'.parents
  tests : List.Forall₂ (Relinked TestRef.traces_to relink_test_ref) report.tests report'.tests

/-- The uids of the entries that a report reads. -/
def entry_uids (t : TraceFiles) : List String :=
  t.sys.requirements.filterMap HlrEntry.uid ++ t.hlr.requirements.filterMap HlrEntry.uid ++
    t.llr.requirements.filterMap LlrEntry.uid ++ t.tests.tests.filterMap TestEntry.uid

/-- The ids of the entries that a report reads. -/
def entry_ids (t : TraceFiles) : List String :=
  t.sys.requirements.map HlrEntry.id ++ t.hlr.requirements.map HlrEntry.id ++
    t.llr.requirements.map LlrEntry.id ++ t.tests.tests.map TestEntry.id

/-- No uid, no id and no title of a test is used twice. -/
structure Distinct (t : TraceFiles) : Prop where
  uids : (entry_uids t).Nodup
  ids : (entry_ids t).Nodup
  titles : (t.tests.tests.map TestEntry.title).Nodup

/-! ## The condition -/

def links_in_order (t : TraceFiles) (selector : ResolvedSelector) : List String :=
  (t.llr.requirements.filter fun llr => Listed selector llr).flatMap LlrEntry.traces_to

/-- The uid is that of a system requirement. -/
def IsSys (t : TraceFiles) (uid : String) : Prop :=
  ∃ sys ∈ t.sys.requirements, sys.uid = some uid

/-- A trace is in order for a selector: the listed requirements stand sorted by id, no
high-level requirement is linked by an earlier one, and a system requirement is linked
directly only after a high-level one has linked to it. -/
structure InOrder (t : TraceFiles) (selector : ResolvedSelector) : Prop where
  requirements : t.llr.requirements.Pairwise fun a b =>
    Listed selector a → Listed selector b → compare a.id b.id = .lt
  parents : InStep (hlr_links t.hlr.requirements) (IsSys t) (links_in_order t selector)

variable {t t' : TraceFiles} {selector : ResolvedSelector}

/-! ## Requirements -/

/-- **The listed requirements are those with a module that overlaps.** -/
theorem filter_llrs_eq (hselector : selector ≠ .Workspace) (llrs : List LlrEntry) :
    filter_llrs_for_selector selector llrs = llrs.filter fun llr => Listed selector llr := by
  -- every selector but the workspace has one prefix
  have hprefixes : selector_prefixes selector = [selector.module_path] := by
    cases selector with
    | Workspace => exact absurd rfl hselector
    | File _ _ _ _ => rfl
    | Crate _ _ _ => rfl
    | Module _ _ _ => rfl
  rw [filter_llrs_for_selector, hprefixes]
  refine List.filter_congr fun llr _ => ?_
  rw [Bool.eq_iff_iff, decide_eq_true_iff, List.any_eq_true]
  simp only [overlaps_iff_any]
  rfl

theorem mem_listed {llr : LlrEntry} {llrs : List LlrEntry} :
    (llr ∈ llrs.filter fun llr => Listed selector llr) ↔ llr ∈ llrs ∧ Listed selector llr := by
  rw [List.mem_filter, decide_eq_true_iff]

/-- **The requirements are exact if and only if the listed ones stand sorted in the
file.** -/
theorem requirements_exact_iff :
    Exactly RequirementRef.id (RequirementRow t selector)
        ((t.llr.requirements.filter fun llr => Listed selector llr).map llr_to_ref) ↔
      t.llr.requirements.Pairwise fun a b =>
        Listed selector a → Listed selector b → compare a.id b.id = .lt := by
  have hpairs : (((t.llr.requirements.filter fun llr => Listed selector llr).map
      llr_to_ref).Pairwise fun a b => compareOn RequirementRef.id a b = .lt) ↔
        t.llr.requirements.Pairwise fun a b =>
          Listed selector a → Listed selector b → compare a.id b.id = .lt := by
    rw [List.pairwise_map, List.pairwise_filter]
    simp only [decide_eq_true_iff]
    -- both sides compare the listed pairs only
    refine ⟨fun h => h.imp fun {a b} hab ha hb => hab ha hb, fun h => h.imp ?_⟩
    intro a b hab ha hb
    exact hab ha hb
  refine ⟨fun h => hpairs.mp h.strict, fun h => ⟨fun row => ?_, hpairs.mpr h⟩⟩
  rw [List.mem_map]
  simp only [mem_listed, RequirementRow, and_assoc]

/-! ## Distinct entries -/

theorem Distinct.hlr_uids (h : Distinct t) :
    (t.hlr.requirements.filterMap HlrEntry.uid).Nodup :=
  (List.nodup_append'.mp (List.nodup_append'.mp (List.nodup_append'.mp h.uids).1).1).2.1

theorem Distinct.sys_uids (h : Distinct t) :
    (t.sys.requirements.filterMap HlrEntry.uid).Nodup :=
  (List.nodup_append'.mp (List.nodup_append'.mp (List.nodup_append'.mp h.uids).1).1).1

theorem Distinct.llr_ids (h : Distinct t) : (t.llr.requirements.map LlrEntry.id).Nodup :=
  (List.nodup_append'.mp (List.nodup_append'.mp h.ids).1).2.1

theorem Distinct.parent_ids (h : Distinct t) :
    ((t.hlr.requirements ++ t.sys.requirements).map HlrEntry.id).Nodup := by
  have hids := (List.nodup_append'.mp (List.nodup_append'.mp h.ids).1).1
  rw [List.map_append]
  exact (List.perm_append_comm.nodup_iff).mp hids

theorem Distinct.hlr_links_of_sys (h : Distinct t) (uid : String) (hsys : IsSys t uid) :
    hlr_links t.hlr.requirements uid = none := by
  have hdisjoint :=
    (List.nodup_append'.mp (List.nodup_append'.mp (List.nodup_append'.mp h.uids).1).1).2.2
  obtain ⟨sys, hsys_mem, huid⟩ := hsys
  rw [hlr_links, Option.map_eq_none_iff]
  -- a high-level requirement found by the uid would share it with the system one
  by_contra hne
  obtain ⟨hlr, hfind⟩ := Option.ne_none_iff_exists'.mp hne
  obtain ⟨hmem, hlr_uid⟩ := (by_uid_eq_some_iff h.hlr_uids).mp hfind
  exact hdisjoint (List.mem_filterMap.mpr ⟨sys, hsys_mem, huid⟩)
    (List.mem_filterMap.mpr ⟨hlr, hmem, hlr_uid⟩)

/-! ## Parents -/

theorem mem_links_in_order {uid : String} : uid ∈ links_in_order t selector ↔
    ∃ llr ∈ t.llr.requirements, Listed selector llr ∧ uid ∈ llr.traces_to := by
  rw [links_in_order, List.mem_flatMap]
  simp only [mem_listed, and_assoc]

theorem linkedHlr_iff {hlr : HlrEntry} :
    LinkedHlr t selector hlr ↔ ∃ uid ∈ links_in_order t selector, hlr.uid = some uid := by
  simp only [mem_links_in_order]
  constructor
  · rintro ⟨llr, hllr, hlisted, uid, huid, heq⟩
    exact ⟨uid, ⟨llr, hllr, hlisted, huid⟩, heq⟩
  · rintro ⟨uid, ⟨llr, hllr, hlisted, huid⟩, heq⟩
    exact ⟨llr, hllr, hlisted, uid, huid, heq⟩

theorem linkedSys_iff (h : Distinct t) {sys : HlrEntry} : LinkedSys t selector sys ↔
    ∃ uid, LinkedBy (hlr_links t.hlr.requirements) (links_in_order t selector) uid ∧
      sys.uid = some uid := by
  constructor
  · rintro ⟨hlr, hhlr, hlinked, uid, huid, hsys⟩
    obtain ⟨j, hj, hlr_uid⟩ := linkedHlr_iff.mp hlinked
    refine ⟨uid, ⟨j, hj, hlr.traces_to, ?_, huid⟩, hsys⟩
    rw [hlr_links, (by_uid_eq_some_iff h.hlr_uids).mpr ⟨hhlr, hlr_uid⟩]
    rfl
  · rintro ⟨uid, ⟨j, hj, linked, hlinks, huid⟩, hsys⟩
    obtain ⟨hlr, hfind, rfl⟩ := Option.map_eq_some_iff.mp hlinks
    obtain ⟨hhlr, hlr_uid⟩ := (by_uid_eq_some_iff h.hlr_uids).mp hfind
    exact ⟨hlr, hhlr, linkedHlr_iff.mpr ⟨j, hj, hlr_uid⟩, uid, huid, hsys⟩

def parents_of (t : TraceFiles) (selector : ResolvedSelector) : List ParentRef :=
  roll_up_parents (t.llr.requirements.filter fun llr => Listed selector llr)
    t.hlr.requirements t.sys.requirements

/-- **Every row of the parents is that of a linked requirement.** -/
theorem parents_sound (h : Distinct t) {row : ParentRef} (hrow : row ∈ parents_of t selector) :
    ParentRow t selector row := by
  obtain ⟨hupper, hlower⟩ := run_sound (hlr_links t.hlr.requirements) (links_in_order t selector)
  rcases mem_roll_up_parents.mp hrow with ⟨uid, huid, hlr, hfind, hrow⟩ | ⟨uid, huid, hrest⟩
  · obtain ⟨hmem, hlr_uid⟩ := (by_uid_eq_some_iff h.hlr_uids).mp hfind
    exact .inl ⟨hlr, hmem, linkedHlr_iff.mpr ⟨uid, (hupper uid huid).1, hlr_uid⟩, hrow⟩
  · obtain ⟨sys, hfind, hrow⟩ := hrest
    obtain ⟨hmem, hsys_uid⟩ := (by_uid_eq_some_iff h.sys_uids).mp hfind
    exact .inr ⟨sys, hmem, (linkedSys_iff h).mpr ⟨uid, hlower uid huid, hsys_uid⟩, hrow⟩

theorem parentRow_inj (h : Distinct t) {a b : ParentRef} (ha : ParentRow t selector a)
    (hb : ParentRow t selector b) (hid : a.id = b.id) : a = b := by
  have hinj : ∀ e ∈ t.hlr.requirements ++ t.sys.requirements,
      ∀ e' ∈ t.hlr.requirements ++ t.sys.requirements, e.id = e'.id → e = e' :=
    fun e he e' he' heq => List.inj_on_of_nodup_map h.parent_ids he he' heq
  -- ids tell the entries of both pools apart, so a row never stands for two
  have hdisjoint := (List.nodup_append'.mp (List.Nodup.of_map HlrEntry.id h.parent_ids)).2.2
  rcases ha with ⟨e, he, _, rfl⟩ | ⟨e, he, _, rfl⟩
  · rcases hb with ⟨e', he', _, rfl⟩ | ⟨e', he', _, rfl⟩
    · rw [hinj e (List.mem_append_left _ he) e' (List.mem_append_left _ he') hid]
    · have heq := hinj e (List.mem_append_left _ he) e' (List.mem_append_right _ he') hid
      exact (hdisjoint he (heq ▸ he')).elim
  · rcases hb with ⟨e', he', _, rfl⟩ | ⟨e', he', _, rfl⟩
    · have heq := hinj e (List.mem_append_right _ he) e' (List.mem_append_left _ he') hid
      exact (hdisjoint (heq ▸ he') he).elim
    · rw [hinj e (List.mem_append_right _ he) e' (List.mem_append_right _ he') hid]

theorem uid_of_row (h : Distinct t) {pool : List HlrEntry} {entry shown : HlrEntry}
    {uid u : String} (hpool : (pool.filterMap HlrEntry.uid).Nodup)
    (hsub : pool ⊆ t.hlr.requirements ++ t.sys.requirements) (hmem : entry ∈ pool)
    (huid : entry.uid = some uid) (hfind : by_uid pool u = some shown)
    (hid : shown.id = entry.id) : u = uid := by
  obtain ⟨hshown, hshown_uid⟩ := (by_uid_eq_some_iff hpool).mp hfind
  have heq : shown = entry :=
    List.inj_on_of_nodup_map h.parent_ids (hsub hshown) (hsub hmem) hid
  rw [heq, huid] at hshown_uid
  exact (Option.some.inj hshown_uid).symm

theorem hlr_row_mem_iff (h : Distinct t) {hlr : HlrEntry} {uid : String}
    (hmem : hlr ∈ t.hlr.requirements) (huid : hlr.uid = some uid) :
    hlr_to_parent_ref hlr ∈ parents_of t selector ↔
      uid ∈ (run (hlr_links t.hlr.requirements) (links_in_order t selector)).upper := by
  constructor
  · intro hrow
    rcases mem_roll_up_parents.mp hrow with ⟨u, hu, e, hfind, hrow⟩ | ⟨u, hu, e, hfind, hrow⟩
    · have hid : e.id = hlr.id := congrArg ParentRef.id hrow
      rw [← uid_of_row h h.hlr_uids (List.subset_append_left _ _) hmem huid hfind hid]
      exact hu
    · have hlayer : "sys" = "hlr" := congrArg ParentRef.layer hrow
      exact absurd hlayer (by decide)
  · intro hupper
    refine mem_roll_up_parents.mpr (.inl ⟨uid, hupper, hlr, ?_, rfl⟩)
    exact (by_uid_eq_some_iff h.hlr_uids).mpr ⟨hmem, huid⟩

theorem sys_row_mem_iff (h : Distinct t) {sys : HlrEntry} {uid : String}
    (hmem : sys ∈ t.sys.requirements) (huid : sys.uid = some uid) :
    sys_to_parent_ref sys ∈ parents_of t selector ↔
      uid ∈ (run (hlr_links t.hlr.requirements) (links_in_order t selector)).lower := by
  constructor
  · intro hrow
    rcases mem_roll_up_parents.mp hrow with ⟨u, hu, e, hfind, hrow⟩ | ⟨u, hu, e, hfind, hrow⟩
    · have hlayer : "hlr" = "sys" := congrArg ParentRef.layer hrow
      exact absurd hlayer (by decide)
    · have hid : e.id = sys.id := congrArg ParentRef.id hrow
      rw [← uid_of_row h h.sys_uids (List.subset_append_right _ _) hmem huid hfind hid]
      exact hu
  · intro hlower
    refine mem_roll_up_parents.mpr (.inr ⟨uid, hlower, sys, ?_, rfl⟩)
    exact (by_uid_eq_some_iff h.sys_uids).mpr ⟨hmem, huid⟩

/-- **The parents are exact if and only if the links are in step.** -/
theorem parents_exact_iff (h : Distinct t) :
    Exactly ParentRef.id (ParentRow t selector) (parents_of t selector) ↔
      InStep (hlr_links t.hlr.requirements) (IsSys t) (links_in_order t selector) := by
  -- the order of the rows is never at fault, only which rows there are
  have hstrict : (parents_of t selector).Pairwise fun a b => compareOn ParentRef.id a b = .lt :=
    roll_up_parents_strict h.hlr_uids h.sys_uids h.parent_ids _
  rw [← complete_iff h.hlr_links_of_sys]
  constructor
  · intro hexact
    refine ⟨fun uid huid hsome => ?_, ?_⟩
    · obtain ⟨linked, hlinks⟩ := Option.isSome_iff_exists.mp hsome
      obtain ⟨hlr, hfind, _⟩ := Option.map_eq_some_iff.mp hlinks
      obtain ⟨hmem, hlr_uid⟩ := (by_uid_eq_some_iff h.hlr_uids).mp hfind
      refine (hlr_row_mem_iff h hmem hlr_uid).mp ((hexact.mem _).mpr ?_)
      exact .inl ⟨hlr, hmem, linkedHlr_iff.mpr ⟨uid, huid, hlr_uid⟩, rfl⟩
    · rintro uid ⟨sys, hmem, hsys_uid⟩ hlinked
      refine (sys_row_mem_iff h hmem hsys_uid).mp ((hexact.mem _).mpr ?_)
      exact .inr ⟨sys, hmem, (linkedSys_iff h).mpr ⟨uid, hlinked, hsys_uid⟩, rfl⟩
  · rintro ⟨hupper, hlower⟩
    refine ⟨fun row => ⟨parents_sound h, ?_⟩, hstrict⟩
    rintro (⟨hlr, hmem, hlinked, rfl⟩ | ⟨sys, hmem, hlinked, rfl⟩)
    · obtain ⟨uid, huid, hlr_uid⟩ := linkedHlr_iff.mp hlinked
      refine (hlr_row_mem_iff h hmem hlr_uid).mpr (hupper uid huid ?_)
      rw [hlr_links, (by_uid_eq_some_iff h.hlr_uids).mpr ⟨hmem, hlr_uid⟩]
      rfl
    · obtain ⟨uid, hlinks, hsys_uid⟩ := (linkedSys_iff h).mp hlinked
      exact (sys_row_mem_iff h hmem hsys_uid).mpr (hlower uid ⟨sys, hmem, hsys_uid⟩ hlinks)

/-! ## Tests -/

/-- **The tests are exact.** -/
theorem tests_exact (h : Distinct t) :
    Exactly TestRef.name (TestRow t selector)
      (filter_tests_for_llrs (t.llr.requirements.filter fun llr => Listed selector llr)
        t.tests.tests) := by
  have hlinked : ∀ test : TestEntry, (test.traces_to.any fun uid =>
      ((t.llr.requirements.filter fun llr => Listed selector llr).filterMap
        LlrEntry.uid).contains uid) = true ↔
      ∃ llr ∈ t.llr.requirements, Listed selector llr ∧ LinksTo test.traces_to llr.uid := by
    intro test
    rw [List.any_eq_true]
    simp only [List.contains_iff_mem, List.mem_filterMap, mem_listed]
    constructor
    · rintro ⟨uid, huid, llr, ⟨hmem, hlisted⟩, heq⟩
      exact ⟨llr, hmem, hlisted, uid, huid, heq⟩
    · rintro ⟨llr, hmem, hlisted, uid, huid, heq⟩
      exact ⟨uid, huid, llr, ⟨hmem, hlisted⟩, heq⟩
  -- distinct titles make the sorted names strict
  refine ⟨fun row => ?_, sortBy_strict_on ?_⟩
  · rw [filter_tests_for_llrs, mem_sortBy, List.mem_map]
    simp only [List.mem_filter, hlinked, TestRow, and_assoc]
  · rw [List.map_map]
    exact h.titles.sublist (List.filter_sublist.map TestEntry.title)

/-- **The lists are exact if and only if the trace is in order.** -/
theorem lists_exact_iff (ws : Workspace) (boundary : BoundaryConfig)
    (floors : Option FloorsConfig) (hselector : selector ≠ .Workspace) (h : Distinct t) :
    ListsExact t selector (build_scoped_report ws selector t boundary floors) ↔
      InOrder t selector := by
  have hllrs := filter_llrs_eq hselector t.llr.requirements
  constructor
  · rintro ⟨hrequirements, hparents, _⟩
    simp only [build_scoped_report, hllrs] at hrequirements hparents
    exact ⟨requirements_exact_iff.mp hrequirements, (parents_exact_iff h).mp hparents⟩
  · rintro ⟨hrequirements, hparents⟩
    refine ⟨?_, ?_, ?_⟩
    · simp only [build_scoped_report, hllrs]
      exact requirements_exact_iff.mpr hrequirements
    · simp only [build_scoped_report, hllrs]
      exact (parents_exact_iff h).mpr hparents
    · simp only [build_scoped_report, hllrs]
      exact tests_exact h

/-! ## Rearranging -/

section Rearranging

variable {α β : Type} {same : α → α → Prop} {l l' : List α}

theorem Reordered.forth (h : Reordered same l l') {a : α} (ha : a ∈ l) : ∃ b ∈ l', same a b := by
  obtain ⟨m, hperm, hall⟩ := h
  obtain ⟨i, hi, rfl⟩ := List.getElem_of_mem (hperm.mem_iff.mp ha)
  obtain ⟨hlength, hget⟩ := List.forall₂_iff_get.mp hall
  exact ⟨l'.get ⟨i, hlength ▸ hi⟩, List.get_mem _ _, hget i hi (hlength ▸ hi)⟩

theorem Reordered.back (h : Reordered same l l') {b : α} (hb : b ∈ l') : ∃ a ∈ l, same a b := by
  obtain ⟨m, hperm, hall⟩ := h
  obtain ⟨i, hi, rfl⟩ := List.getElem_of_mem hb
  obtain ⟨hlength, hget⟩ := List.forall₂_iff_get.mp hall
  have hi' : i < m.length := hlength ▸ hi
  exact ⟨m.get ⟨i, hi'⟩, hperm.mem_iff.mpr (List.get_mem _ _), hget i hi' hi⟩

/-- What the change of an entry leaves alone is permuted. -/
theorem Reordered.map_perm (h : Reordered same l l') {f : α → β}
    (hf : ∀ a b, same a b → f a = f b) : (l.map f).Perm (l'.map f) := by
  obtain ⟨m, hperm, hall⟩ := h
  rw [← Lists.map_eq_of_forall₂ hf hall]
  exact hperm.map f

theorem Reordered.filterMap_perm (h : Reordered same l l') {f : α → Option β}
    (hf : ∀ a b, same a b → f a = f b) : (l.filterMap f).Perm (l'.filterMap f) := by
  have hperm := (h.map_perm hf).filterMap id
  rwa [List.filterMap_map, List.filterMap_map] at hperm

end Rearranging

theorem Distinct.rearranged (h : Distinct t) (hmoved : Rearranged t t') : Distinct t' := by
  refine ⟨?_, ?_, ?_⟩
  · refine (List.Perm.nodup_iff ?_).mp h.uids
    refine (((hmoved.sys.filterMap_perm ?_).append (hmoved.hlr.filterMap_perm ?_)).append
      (hmoved.llr.filterMap_perm ?_)).append (hmoved.tests.filterMap_perm ?_)
    · exact fun a b hab => (congrArg HlrEntry.uid hab.2).symm
    · exact fun a b hab => (congrArg HlrEntry.uid hab.2).symm
    · exact fun a b hab => (congrArg LlrEntry.uid hab.2).symm
    · exact fun a b hab => (congrArg TestEntry.uid hab.2).symm
  · refine (List.Perm.nodup_iff ?_).mp h.ids
    refine (((hmoved.sys.map_perm ?_).append (hmoved.hlr.map_perm ?_)).append
      (hmoved.llr.map_perm ?_)).append (hmoved.tests.map_perm ?_)
    · exact fun a b hab => (congrArg HlrEntry.id hab.2).symm
    · exact fun a b hab => (congrArg HlrEntry.id hab.2).symm
    · exact fun a b hab => (congrArg LlrEntry.id hab.2).symm
    · exact fun a b hab => (congrArg TestEntry.id hab.2).symm
  · refine (List.Perm.nodup_iff (hmoved.tests.map_perm ?_)).mp h.titles
    exact fun a b hab => (congrArg TestEntry.title hab.2).symm

/-- Each entry of a trace is in another one, with the same links in some order. -/
structure Within (t t' : TraceFiles) : Prop where
  sys : ∀ e ∈ t.sys.requirements, ∃ e' ∈ t'.sys.requirements,
    Relinked HlrEntry.traces_to relink_hlr e e'
  hlr : ∀ e ∈ t.hlr.requirements, ∃ e' ∈ t'.hlr.requirements,
    Relinked HlrEntry.traces_to relink_hlr e e'
  llr : ∀ e ∈ t.llr.requirements, ∃ e' ∈ t'.llr.requirements,
    Relinked LlrEntry.traces_to relink_llr e e'
  tests : ∀ e ∈ t.tests.tests, ∃ e' ∈ t'.tests.tests,
    Relinked TestEntry.traces_to relink_test e e'

/-- A change of links is undone by putting the old ones back. -/
theorem Relinked.symm {α : Type} {links : α → List String} {relink : α → List String → α}
    (hundo : ∀ a l, relink (relink a l) (links a) = a) {a b : α} (h : Relinked links relink a b) :
    Relinked links relink b a := by
  refine ⟨h.1.symm, ?_⟩
  rw [h.2, hundo]

theorem Relinked.rest_eq {α β : Type} {links : α → List String} {relink : α → List String → α}
    {f : α → β} {a b : α} (h : Relinked links relink a b) (hrest : ∀ a l, f (relink a l) = f a) :
    f b = f a := by
  rw [h.2, hrest]

theorem Rearranged.within (h : Rearranged t t') : Within t t' where
  sys _ he := h.sys.forth he
  hlr _ he := h.hlr.forth he
  llr _ he := h.llr.forth he
  tests _ he := h.tests.forth he

theorem Rearranged.within_symm (h : Rearranged t t') : Within t' t where
  sys _ he := (h.sys.back he).imp fun _ ha => ⟨ha.1, ha.2.symm fun _ _ => rfl⟩
  hlr _ he := (h.hlr.back he).imp fun _ ha => ⟨ha.1, ha.2.symm fun _ _ => rfl⟩
  llr _ he := (h.llr.back he).imp fun _ ha => ⟨ha.1, ha.2.symm fun _ _ => rfl⟩
  tests _ he := (h.tests.back he).imp fun _ ha => ⟨ha.1, ha.2.symm fun _ _ => rfl⟩

theorem LinksTo.of_perm {links links' : List String} {uid : Option String}
    (h : LinksTo links uid) (hperm : links.Perm links') : LinksTo links' uid := by
  obtain ⟨u, hu, heq⟩ := h
  exact ⟨u, hperm.mem_iff.mp hu, heq⟩

/-! ## Rows of both traces -/

theorem LinkedHlr.within (h : Within t t') {hlr hlr' : HlrEntry}
    (hlinked : LinkedHlr t selector hlr) (huid : hlr'.uid = hlr.uid) :
    LinkedHlr t' selector hlr' := by
  obtain ⟨llr, hllr, hlisted, hlinks⟩ := hlinked
  obtain ⟨llr', hllr', hperm, heq⟩ := h.llr llr hllr
  refine ⟨llr', hllr', ?_, ?_⟩
  · rw [heq]
    exact hlisted
  · rw [huid]
    exact hlinks.of_perm hperm

theorem LinkedSys.within (h : Within t t') {sys sys' : HlrEntry}
    (hlinked : LinkedSys t selector sys) (huid : sys'.uid = sys.uid) :
    LinkedSys t' selector sys' := by
  obtain ⟨hlr, hhlr, hlr_linked, hlinks⟩ := hlinked
  obtain ⟨hlr', hhlr', hsame⟩ := h.hlr hlr hhlr
  have hlr_uid : hlr'.uid = hlr.uid := hsame.rest_eq fun _ _ => rfl
  refine ⟨hlr', hhlr', hlr_linked.within h hlr_uid, ?_⟩
  rw [huid]
  exact hlinks.of_perm hsame.1

theorem RequirementRow.within (h : Within t t') {row : RequirementRef}
    (hrow : RequirementRow t selector row) : ∃ row', RequirementRow t' selector row' ∧
      Relinked RequirementRef.traces_to relink_requirement row row' := by
  obtain ⟨llr, hllr, hlisted, rfl⟩ := hrow
  obtain ⟨llr', hllr', hperm, heq⟩ := h.llr llr hllr
  refine ⟨llr_to_ref llr', ⟨llr', hllr', ?_, rfl⟩, hperm, congrArg llr_to_ref heq⟩
  rw [heq]
  exact hlisted

theorem ParentRow.within (h : Within t t') {row : ParentRef} (hrow : ParentRow t selector row) :
    ∃ row', ParentRow t' selector row' ∧
      Relinked ParentRef.traces_to relink_parent row row' := by
  rcases hrow with ⟨hlr, hmem, hlinked, rfl⟩ | ⟨sys, hmem, hlinked, rfl⟩
  · obtain ⟨hlr', hmem', hsame⟩ := h.hlr hlr hmem
    have huid : hlr'.uid = hlr.uid := hsame.rest_eq fun _ _ => rfl
    exact ⟨hlr_to_parent_ref hlr', .inl ⟨hlr', hmem', hlinked.within h huid, rfl⟩, hsame.1,
      congrArg hlr_to_parent_ref hsame.2⟩
  · obtain ⟨sys', hmem', hsame⟩ := h.sys sys hmem
    have huid : sys'.uid = sys.uid := hsame.rest_eq fun _ _ => rfl
    exact ⟨sys_to_parent_ref sys', .inr ⟨sys', hmem', hlinked.within h huid, rfl⟩, hsame.1,
      congrArg sys_to_parent_ref hsame.2⟩

theorem TestRow.within (h : Within t t') {row : TestRef} (hrow : TestRow t selector row) :
    ∃ row', TestRow t' selector row' ∧ Relinked TestRef.traces_to relink_test_ref row row' := by
  obtain ⟨test, hmem, ⟨llr, hllr, hlisted, hlinks⟩, rfl⟩ := hrow
  obtain ⟨test', hmem', hperm, heq⟩ := h.tests test hmem
  obtain ⟨llr', hllr', _, hllr_eq⟩ := h.llr llr hllr
  refine ⟨test_to_ref test', ⟨test', hmem', ⟨llr', hllr', ?_, ?_⟩, rfl⟩, hperm,
    congrArg test_to_ref heq⟩
  · rw [hllr_eq]
    exact hlisted
  · rw [hllr_eq]
    exact hlinks.of_perm hperm

/-! ## The promise -/

section Exact

variable {α : Type} {key : α → String} {qualifies qualifies' : α → Prop} {same : α → α → Prop}
  {l l' : List α}

/-- Two exact lists of corresponding rows correspond one by one. -/
theorem Exactly.forall₂ (h : Exactly key qualifies l) (h' : Exactly key qualifies' l')
    (hkey : ∀ a b, same a b → key b = key a)
    (hforth : ∀ a, qualifies a → ∃ b, qualifies' b ∧ same a b)
    (hback : ∀ b, qualifies' b → ∃ a, qualifies a ∧ same a b) : List.Forall₂ same l l' := by
  have htrans : Std.TransCmp (compareOn key) := inferInstanceAs (Std.TransCmp (compareOn key))
  refine forall₂_of_strict (fun a b hab => ?_) h.strict h'.strict
    (fun a ha => ?_) fun b hb => ?_
  · rw [compareOn, hkey a b hab]
    exact Std.ReflCmp.compare_self
  · obtain ⟨b, hb, hab⟩ := hforth a ((h.mem a).mp ha)
    exact ⟨b, (h'.mem b).mpr hb, hab⟩
  · obtain ⟨a, ha, hab⟩ := hback b ((h'.mem b).mp hb)
    exact ⟨a, (h.mem a).mpr ha, hab⟩

theorem Exactly.of_forall₂ (h : Exactly key qualifies l) (hall : List.Forall₂ same l l')
    (hkey : ∀ a b, same a b → key b = key a) (hsound : ∀ b ∈ l', qualifies' b)
    (hback : ∀ b, qualifies' b → ∃ a, qualifies a ∧ same a b)
    (hinj : ∀ a b, qualifies' a → qualifies' b → key a = key b → a = b) :
    Exactly key qualifies' l' := by
  obtain ⟨hlength, hget⟩ := List.forall₂_iff_get.mp hall
  refine ⟨fun b => ⟨hsound b, fun hb => ?_⟩, ?_⟩
  · -- the row that corresponds to a member has the key of one of the other list
    obtain ⟨a, ha, hab⟩ := hback b hb
    obtain ⟨i, hi, rfl⟩ := List.getElem_of_mem ((h.mem a).mpr ha)
    have hi' : i < l'.length := hlength ▸ hi
    have hmem : l'.get ⟨i, hi'⟩ ∈ l' := List.get_mem _ _
    -- both keys are those of the row at the position in the exact list
    have hkeys : key (l'.get ⟨i, hi'⟩) = key b := by
      rw [hkey _ _ (hget i hi hi'), hkey _ _ hab]
      rfl
    rw [← hinj _ b (hsound _ hmem) hb hkeys]
    exact hmem
  · have hkeys : l.map key = l'.map key :=
      Lists.map_eq_of_forall₂ (fun a b hab => (hkey a b hab).symm) hall
    have hstrict : (l.map key).Pairwise fun a b => compare a b = .lt :=
      List.pairwise_map.mpr h.strict
    rw [hkeys] at hstrict
    exact List.pairwise_map.mp hstrict

end Exact

theorem requirementRow_inj (h : Distinct t) {a b : RequirementRef}
    (ha : RequirementRow t selector a) (hb : RequirementRow t selector b) (hid : a.id = b.id) :
    a = b := by
  obtain ⟨llr, hllr, _, rfl⟩ := ha
  obtain ⟨llr', hllr', _, rfl⟩ := hb
  rw [List.inj_on_of_nodup_map h.llr_ids hllr hllr' hid]

/-- **The lists of a trace are exact, and those of a rearranged trace are the same, if and
only if both traces are in order.** The rows of the two traces correspond; so two exact
lists of them do, and a list that corresponds to an exact one is exact. -/
theorem context_lists_promise_iff (ws : Workspace) (boundary : BoundaryConfig)
    (floors : Option FloorsConfig) (selector : ResolvedSelector) (t t' : TraceFiles)
    (hselector : selector ≠ .Workspace) (hdistinct : Distinct t) (hmoved : Rearranged t t') :
    (ListsExact t selector (build_scoped_report ws selector t boundary floors) ∧
      Unchanged (build_scoped_report ws selector t boundary floors)
        (build_scoped_report ws selector t' boundary floors)) ↔
      InOrder t selector ∧ InOrder t' selector := by
  have hdistinct' := hdistinct.rearranged hmoved
  have hexact_iff := lists_exact_iff ws boundary floors hselector hdistinct
  have hexact_iff' := lists_exact_iff ws boundary floors hselector hdistinct'
  have hrequirement_back : ∀ b, RequirementRow t' selector b → ∃ a, RequirementRow t selector a ∧
      Relinked RequirementRef.traces_to relink_requirement a b := by
    intro b hb
    obtain ⟨a, ha, hba⟩ := hb.within hmoved.within_symm
    exact ⟨a, ha, hba.symm fun _ _ => rfl⟩
  have hparent_back : ∀ b, ParentRow t' selector b → ∃ a, ParentRow t selector a ∧
      Relinked ParentRef.traces_to relink_parent a b := by
    intro b hb
    obtain ⟨a, ha, hba⟩ := hb.within hmoved.within_symm
    exact ⟨a, ha, hba.symm fun _ _ => rfl⟩
  have hrequirement_key : ∀ a b, Relinked RequirementRef.traces_to relink_requirement a b →
      b.id = a.id := fun a b hab => hab.rest_eq fun _ _ => rfl
  have hparent_key : ∀ a b, Relinked ParentRef.traces_to relink_parent a b → b.id = a.id :=
    fun a b hab => hab.rest_eq fun _ _ => rfl
  constructor
  -- the lists of the second trace correspond to exact ones, so they are exact
  · rintro ⟨hexact, hsame⟩
    refine ⟨hexact_iff.mp hexact, hexact_iff'.mp ⟨?_, ?_, ?_⟩⟩
    · refine hexact.requirements.of_forall₂ hsame.requirements hrequirement_key ?_
        hrequirement_back fun a b => requirementRow_inj hdistinct'
      intro row hrow
      simp only [build_scoped_report, filter_llrs_eq hselector, List.mem_map, mem_listed,
        and_assoc] at hrow
      exact hrow
    · refine hexact.parents.of_forall₂ hsame.parents hparent_key ?_
        hparent_back fun a b => parentRow_inj hdistinct'
      intro row hrow
      simp only [build_scoped_report, filter_llrs_eq hselector] at hrow
      exact parents_sound hdistinct' hrow
    · simp only [build_scoped_report, filter_llrs_eq hselector]
      exact tests_exact hdistinct'
  -- both traces have exact lists, and their rows correspond
  · rintro ⟨hin, hin'⟩
    have hexact := hexact_iff.mpr hin
    have hexact' := hexact_iff'.mpr hin'
    refine ⟨hexact, ?_, ?_, ?_⟩
    · exact hexact.requirements.forall₂ hexact'.requirements hrequirement_key
        (fun a ha => ha.within hmoved.within) hrequirement_back
    · exact hexact.parents.forall₂ hexact'.parents hparent_key
        (fun a ha => ha.within hmoved.within) hparent_back
    · refine hexact.tests.forall₂ hexact'.tests (fun a b hab => hab.rest_eq fun _ _ => rfl)
        (fun a ha => ha.within hmoved.within) fun b hb => ?_
      obtain ⟨a, ha, hba⟩ := hb.within hmoved.within_symm
      exact ⟨a, ha, hba.symm fun _ _ => rfl⟩

/-! ## A system requirement that is linked directly -/

/-- A requirement of one layer, with its links. -/
def plain_entry (uid id : String) (links : List String) : HlrEntry where
  uid := some uid
  ns := none
  id := id
  title := id
  owner := none
  scope := none
  sort_key := none
  category := none
  source := none
  description := none
  rationale := none
  verification_methods := []
  traces_to := links
  surfaces := []

/-- A low-level requirement of the module `core::scan`, with its links. -/
def scan_llr (links : List String) : LlrEntry where
  uid := some "l"
  ns := none
  id := "LLR-001"
  title := "scan"
  owner := none
  sort_key := none
  traces_to := links
  source := none
  modules := ["core::scan"]
  description := none
  verification_methods := []
  emits := []

/-- A trace of one requirement in each layer; the low-level one has the given links. -/
def scan_trace (links : List String) : TraceFiles where
  sys := ⟨⟨"1.0"⟩, ⟨"SYS", "1"⟩, [plain_entry "s" "SYS-001" []]⟩
  hlr := ⟨⟨"1.0"⟩, ⟨"HLR", "1"⟩, [plain_entry "h" "HLR-001" ["s"]]⟩
  llr := ⟨⟨"1.0"⟩, ⟨"LLR", "1"⟩, [scan_llr links]⟩
  tests := ⟨⟨"1.0"⟩, ⟨"TEST", "1"⟩, []⟩
  derived := none

def scan_selector : ResolvedSelector := .Module "core::scan" "core::scan" []

/-- A workspace without crates and files. -/
def bare_workspace : Workspace where
  root := "/ws"
  canonical_root := ["ws"]
  file_at := fun _ => none
  crate_dirs := []
  per_crate_measurements := Store.empty

/-- A boundary policy without content. -/
def bare_boundary : BoundaryConfig where
  scope := ⟨[], []⟩
  dal := none

/-- A low-level requirement links to a system requirement, and then to the high-level one
that links to it: the report does not list the system requirement. -/
theorem direct_sys_link_is_lost : Distinct (scan_trace ["s", "h"]) ∧
    ¬ ListsExact (scan_trace ["s", "h"]) scan_selector
      (build_scoped_report bare_workspace scan_selector (scan_trace ["s", "h"]) bare_boundary
        none) := by
  refine ⟨⟨by decide, by decide, by decide⟩, fun hexact => ?_⟩
  have hlinked : LinkedHlr (scan_trace ["s", "h"]) scan_selector
      (plain_entry "h" "HLR-001" ["s"]) :=
    ⟨scan_llr ["s", "h"], List.mem_singleton_self _, by decide, "h", by decide, rfl⟩
  have hrow := (hexact.parents.mem (sys_to_parent_ref (plain_entry "s" "SYS-001" []))).mpr
    (.inr ⟨plain_entry "s" "SYS-001" [], List.mem_singleton_self _,
      ⟨_, List.mem_singleton_self _, hlinked, "s", by decide, rfl⟩, rfl⟩)
  have hparents : (build_scoped_report bare_workspace scan_selector (scan_trace ["s", "h"])
      bare_boundary none).parents = [hlr_to_parent_ref (plain_entry "h" "HLR-001" ["s"])] := by
    decide
  rw [hparents, List.mem_singleton] at hrow
  exact absurd (congrArg ParentRef.layer hrow) (by decide)

/-- The trace with the two links in either order. -/
theorem context_lists_promise_scan :
    Distinct (scan_trace ["s", "h"]) ∧ Rearranged (scan_trace ["s", "h"]) (scan_trace ["h", "s"]) ∧
      ((ListsExact (scan_trace ["s", "h"]) scan_selector (build_scoped_report bare_workspace
          scan_selector (scan_trace ["s", "h"]) bare_boundary none) ∧
        Unchanged (build_scoped_report bare_workspace scan_selector (scan_trace ["s", "h"])
            bare_boundary none)
          (build_scoped_report bare_workspace scan_selector (scan_trace ["h", "s"])
            bare_boundary none)) ↔
        InOrder (scan_trace ["s", "h"]) scan_selector ∧
          InOrder (scan_trace ["h", "s"]) scan_selector) := by
  have hdistinct : Distinct (scan_trace ["s", "h"]) := ⟨by decide, by decide, by decide⟩
  have hsame : ∀ e : HlrEntry, Relinked HlrEntry.traces_to relink_hlr e e :=
    fun e => ⟨List.Perm.refl _, rfl⟩
  have hmoved : Rearranged (scan_trace ["s", "h"]) (scan_trace ["h", "s"]) := by
    refine ⟨⟨_, List.Perm.refl _, ?_⟩, ⟨_, List.Perm.refl _, ?_⟩, ⟨_, List.Perm.refl _, ?_⟩,
      ⟨_, List.Perm.refl _, ?_⟩⟩
    · exact List.Forall₂.cons (hsame _) List.Forall₂.nil
    · exact List.Forall₂.cons (hsame _) List.Forall₂.nil
    · exact List.Forall₂.cons ⟨List.Perm.swap _ _ _, rfl⟩ List.Forall₂.nil
    · exact List.Forall₂.nil
  exact ⟨hdistinct, hmoved, context_lists_promise_iff bare_workspace bare_boundary none
    scan_selector _ _ (by decide) hdistinct hmoved⟩

end Evidence.Context
