/-
`diff.rs`, `diff/categories_*.rs` -- which status a category gets, against what it is given.

The documentation fixes a precedence: a real difference makes a category changed, without one
a part that could not be examined makes it unverifiable, and only without either is it
equal. A part is a trace file, a compliance report, a path of a digest plane, `env.json` or
the index; it is unexaminable if it cannot be parsed on one of the sides (a digest: if it is
malformed there), and a difference is real if it lies in parts that can be examined.

The trace graph and the mappings keep the two apart and go wrong only in what they
do not show: another trace file, an entry before the last of its uid, a listed report that is
missing. A digest plane counts a malformed digest as a change. The tool identity passes over
reports that do not parse, and asks nothing further without both indexes.
-/
import Evidence.Diff.Categories

set_option autoImplicit false

namespace Evidence.Diff

open Std Sorting Check Evidence.Bundle
open Verify (ReproductionJson DigestMap digest_of IsDigest read_digest_map diff_digest_planes)

/-! ## The precedence -/

/-- What the documentation promises of a status. -/
structure Precedence (differs unexamined : Prop) (verdict : DiffCategoryStatus → Prop) : Prop where
  changed : verdict .Changed ↔ differs
  unverifiable : verdict .Unverifiable ↔ ¬ differs ∧ unexamined
  equal : verdict .Equal ↔ ¬ differs ∧ ¬ unexamined

theorem precedence_findings_iff {f : Findings} {category : String} {differs unexamined : Prop} :
    Precedence differs unexamined ((f.report category).status = ·) ↔
      (f.changed = true ↔ differs) ∧ (¬ differs → (f.unexaminable = true ↔ unexamined)) := by
  have hstatus : (f.report category).status = status_of f.changed f.unexaminable := rfl
  constructor
  · rintro ⟨hchanged, hunverifiable, hequal⟩
    simp only [hstatus] at hchanged hunverifiable hequal
    unfold status_of at hchanged hunverifiable hequal
    by_cases hc : f.changed = true
    · simp only [hc, if_true, true_iff] at hchanged
      exact ⟨iff_of_true hc hchanged, fun hnot => absurd hchanged hnot⟩
    · by_cases hu : f.unexaminable = true
      · simp only [hc, hu, Bool.false_eq_true, if_false, if_true, true_iff] at hunverifiable
        exact ⟨iff_of_false hc hunverifiable.1, fun _ => iff_of_true hu hunverifiable.2⟩
      · simp only [hc, hu, Bool.false_eq_true, if_false, true_iff] at hequal
        exact ⟨iff_of_false hc hequal.1, fun _ => iff_of_false hu hequal.2⟩
  · rintro ⟨hchanged, hunexamined⟩
    by_cases hc : f.changed = true
    · have hdiffers := hchanged.mp hc
      refine ⟨?_, ?_, ?_⟩ <;> simp [hstatus, status_of, hc, hdiffers]
    · have hdiffers : ¬ differs := fun h => hc (hchanged.mpr h)
      have hiff := hunexamined hdiffers
      by_cases hu : f.unexaminable = true
      · have hpart := hiff.mp hu
        refine ⟨?_, ?_, ?_⟩ <;> simp [hstatus, status_of, hc, hu, hdiffers, hpart]
      · have hpart : ¬ unexamined := fun h => hu (hiff.mpr h)
        refine ⟨?_, ?_, ?_⟩ <;> simp [hstatus, status_of, hc, hu, hdiffers, hpart]

theorem precedence_shown_iff {f : Findings} {category : String}
    {differs unexamined shown noted : Prop} (hchanged : f.changed = true ↔ shown)
    (hunexaminable : f.unexaminable = true ↔ noted) (hshown : shown → differs)
    (hnoted : noted → unexamined) :
    Precedence differs unexamined ((f.report category).status = ·) ↔
      shown ∨ (¬ differs ∧ (unexamined → noted)) := by
  rw [precedence_findings_iff, hchanged, hunexaminable]
  constructor
  · rintro ⟨hiff, hpart⟩
    by_cases hs : shown
    · exact .inl hs
    · have hnot : ¬ differs := fun h => hs (hiff.mpr h)
      exact .inr ⟨hnot, (hpart hnot).mpr⟩
  · rintro (hs | ⟨hnot, hpart⟩)
    · exact ⟨iff_of_true hs (hshown hs), fun hnot => absurd (hshown hs) hnot⟩
    · exact ⟨iff_of_false (fun hs => hnot (hshown hs)) hnot, fun _ => ⟨hnoted, hpart⟩⟩

namespace Findings

/-- Parts are changed together when one of them is. -/
theorem foldr_add_changed {fs : List Findings} {g : Findings} :
    (fs.foldr add g).changed = true ↔ (∃ f ∈ fs, f.changed = true) ∨ g.changed = true := by
  induction fs with
  | nil => simp
  | cons f fs ih => simp [add, ih, or_assoc]

theorem foldr_add_unexaminable {fs : List Findings} {g : Findings} :
    (fs.foldr add g).unexaminable = true ↔
      (∃ f ∈ fs, f.unexaminable = true) ∨ g.unexaminable = true := by
  induction fs with
  | nil => simp
  | cons f fs ih => simp [add, ih, or_assoc]

@[simp] theorem differences_changed {details : List String} :
    (differences details).changed = true ↔ details ≠ [] := by
  simp [differences]

@[simp] theorem differences_unexaminable {details : List String} :
    (differences details).unexaminable = false := rfl

@[simp] theorem unexamined_changed (detail : String) : (unexamined detail).changed = false := rfl

@[simp] theorem unexamined_unexaminable (detail : String) :
    (unexamined detail).unexaminable = true := rfl

end Findings

/-! ## The trace graph -/

section Traces

variable [TomlJson]

/-- What a trace file records under a uid, in its order. -/
def recorded (key : String) (value : Toml.Value) : List TomlJson.Json :=
  (Store.under entry_uid key (trace_entries value)).map entry_json

def TraceFileDiffers : Load Toml.Value → Load Toml.Value → Prop
  | .Ok x, .Ok y => ∃ key, recorded key x ≠ recorded key y
  | .Missing, .Ok _ => True
  | .Ok _, .Missing => True
  | _, _ => False

/-- Two versions of a trace file differ in what is compared: one is missing, or the last entry of
some uid is another. -/
def TraceFileShows : Load Toml.Value → Load Toml.Value → Prop
  | .Ok x, .Ok y => ∃ key, (recorded key x).getLast? ≠ (recorded key y).getLast?
  | .Missing, .Ok _ => True
  | .Ok _, .Missing => True
  | _, _ => False

/-- A trace file that cannot be parsed. -/
def TraceFileUnread (root : FileTree) (file : String) : Prop :=
  ∀ value, read_trace_value root file = .ok value → value = .Unparseable

def MatrixDiffers (a b : FileTree) : Prop :=
  is_file a "trace/matrix.md" ≠ is_file b "trace/matrix.md"

/-- Some trace file that both sides can parse differs, or the presence of the matrix does. -/
def TracesDiffer (a b : FileTree) : Prop :=
  (∃ file, IsTraceFile a b file ∧ ∃ va vb, read_trace_value a file = .ok va ∧
    read_trace_value b file = .ok vb ∧ TraceFileDiffers va vb) ∨ MatrixDiffers a b

/-- Some trace file cannot be parsed on one of the sides. -/
def TracesUnexamined (a b : FileTree) : Prop :=
  ∃ file, IsTraceFile a b file ∧ (TraceFileUnread a file ∨ TraceFileUnread b file)

/-- One of the four trace files that are compared differs in what is compared, or the presence of
the matrix does. -/
def TracesShown (a b : FileTree) : Prop :=
  (∃ file ∈ TRACE_FILES, ∃ va vb, read_trace_value a file = .ok va ∧
    read_trace_value b file = .ok vb ∧ TraceFileShows va vb) ∨ MatrixDiffers a b

/-- One of the four trace files that are compared cannot be parsed. -/
def TracesNoted (a b : FileTree) : Prop :=
  ∃ file ∈ TRACE_FILES, TraceFileUnread a file ∨ TraceFileUnread b file

theorem TraceFileShows.differs {va vb : Load Toml.Value} (h : TraceFileShows va vb) :
    TraceFileDiffers va vb := by
  unfold TraceFileShows at h
  unfold TraceFileDiffers
  split at h
  · obtain ⟨key, hkey⟩ := h
    exact ⟨key, fun heq => hkey (congrArg List.getLast? heq)⟩
  · trivial
  · trivial
  · exact h.elim

theorem last_recorded (key : String) (value : Toml.Value) :
    (recorded key value).getLast? = (last_entry key value).map entry_json := by
  rw [recorded, List.getLast?_map, last_entry]

theorem rel_json_iff {x y : Option Toml.Value} :
    Option.Rel (fun entry entry' => entry_json entry' = entry_json entry) x y ↔
      x.map entry_json = y.map entry_json := by
  cases x with
  | none =>
    cases y with
    | none => simp
    | some y => simp
  | some x =>
    cases y with
    | none => simp
    | some y => simp [eq_comm]

theorem entry_findings_changed {file : String} {va vb : Load Toml.Value} :
    (entry_findings file va.keyed vb.keyed).changed = true ↔ TraceFileShows va vb := by
  cases va with
  | Ok x =>
    cases vb with
    | Ok y =>
      simp only [Load.keyed, entry_findings, Findings.differences_changed, TraceFileShows, ne_eq,
        diff_entries_eq_nil_iff, keyed_entries_get, rel_map_trace_entry, rel_json_iff,
        last_recorded, not_forall]
    | Missing => simp [Load.keyed, entry_findings, TraceFileShows]
    | Unparseable => simp [Load.keyed, entry_findings, TraceFileShows]
  | Missing => cases vb <;> simp [Load.keyed, entry_findings, TraceFileShows]
  | Unparseable => cases vb <;> simp [Load.keyed, entry_findings, TraceFileShows]

theorem entry_findings_unexaminable {file : String} {va vb : Load Toml.Value} :
    (entry_findings file va.keyed vb.keyed).unexaminable = true ↔
      va = .Unparseable ∨ vb = .Unparseable := by
  cases va <;> cases vb <;> simp [Load.keyed, entry_findings]

theorem traceFileUnread_iff {root : FileTree} {file : String} {value : Load Toml.Value}
    (h : read_trace_value root file = .ok value) :
    TraceFileUnread root file ↔ value = .Unparseable := by
  unfold TraceFileUnread
  rw [h]
  constructor
  · intro hall
    exact hall value rfl
  · rintro rfl v hv
    exact (Except.ok.inj hv).symm

theorem isTraceFile_of_read {a b : FileTree} {file : String} (hfile : file ∈ TRACE_FILES)
    {va : Load Toml.Value} (h : read_trace_value a file = .ok va) (hva : va ≠ .Missing) :
    IsTraceFile a b file := by
  refine isTraceFile_of_mem hfile ?_
  unfold read_trace_value load at h
  split at h
  · exact absurd (Except.ok.inj h).symm hva
  · cases hcontent : read_to_string a (trace_path file) with
    | none => simp [hcontent] at h
    | some content => exact is_file_of_read_to_string hcontent

omit [TomlJson] in
theorem isTraceFile_symm {a b : FileTree} {file : String} (h : IsTraceFile b a file) :
    IsTraceFile a b file :=
  ⟨h.1, h.2.1, h.2.2.symm⟩

/-- **The status of the trace graph follows the precedence** exactly when a difference shows, or
there is none and a file that cannot be parsed is one of the four, if there is one. -/
theorem trace_graph_precedence_iff {a b : FileTree} {diff : CategoryDiff}
    (h : trace_graph a b = .ok diff) (hdir_a : is_dir a "trace" = true)
    (hdir_b : is_dir b "trace" = true) :
    Precedence (TracesDiffer a b) (TracesUnexamined a b) (diff.status = ·) ↔
      TracesShown a b ∨
        (¬ TracesDiffer a b ∧ (TracesUnexamined a b → TracesNoted a b)) := by
  simp only [trace_graph, hdir_a, hdir_b, bind_ok_iff, mapM_ok_iff, Except.ok.injEq] at h
  obtain ⟨findings, hfindings, rfl⟩ := h
  -- Every one of the four files was read on both sides.
  have hread : ∀ file ∈ TRACE_FILES, ∃ va vb, read_trace_value a file = .ok va ∧
      read_trace_value b file = .ok vb ∧ entry_findings file va.keyed vb.keyed ∈ findings := by
    intro file hfile
    obtain ⟨f, hf, hok⟩ := Collect.exists_of_mem_left hfindings hfile
    obtain ⟨va, vb, hva, hvb, rfl⟩ := file_findings_ok hok
    exact ⟨va, vb, hva, hvb, hf⟩
  have hfound : ∀ f ∈ findings, ∃ file ∈ TRACE_FILES, ∃ va vb, read_trace_value a file = .ok va ∧
      read_trace_value b file = .ok vb ∧ f = entry_findings file va.keyed vb.keyed := by
    intro f hf
    obtain ⟨file, hfile, hok⟩ := Collect.exists_of_mem_right hfindings hf
    exact ⟨file, hfile, file_findings_ok hok⟩
  apply precedence_shown_iff
  · rw [Findings.foldr_add_changed, TracesShown, MatrixDiffers]
    refine or_congr ⟨?_, ?_⟩ ?_
    · rintro ⟨f, hf, hchanged⟩
      obtain ⟨file, hfile, va, vb, hva, hvb, rfl⟩ := hfound f hf
      exact ⟨file, hfile, va, vb, hva, hvb, entry_findings_changed.mp hchanged⟩
    · rintro ⟨file, hfile, va, vb, hva, hvb, hshows⟩
      obtain ⟨va', vb', hva', hvb', hmem⟩ := hread file hfile
      rw [hva, Except.ok.injEq] at hva'
      rw [hvb, Except.ok.injEq] at hvb'
      subst hva' hvb'
      exact ⟨_, hmem, entry_findings_changed.mpr hshows⟩
    · rw [matrix_findings, Findings.differences_changed, ne_eq, ite_eq_right_iff, Classical.not_imp]
      exact and_iff_left (List.cons_ne_nil _ _)
  · rw [Findings.foldr_add_unexaminable, TracesNoted, matrix_findings,
      Findings.differences_unexaminable]
    constructor
    · rintro (⟨f, hf, hpart⟩ | hfalse)
      · obtain ⟨file, hfile, va, vb, hva, hvb, rfl⟩ := hfound f hf
        refine ⟨file, hfile, ?_⟩
        rw [traceFileUnread_iff hva, traceFileUnread_iff hvb]
        exact entry_findings_unexaminable.mp hpart
      · exact absurd hfalse Bool.false_ne_true
    · rintro ⟨file, hfile, hpart⟩
      obtain ⟨va, vb, hva, hvb, hmem⟩ := hread file hfile
      rw [traceFileUnread_iff hva, traceFileUnread_iff hvb] at hpart
      exact .inl ⟨_, hmem, entry_findings_unexaminable.mpr hpart⟩
  · rintro (⟨file, hfile, va, vb, hva, hvb, hshows⟩ | hmatrix)
    · refine .inl ⟨file, ?_, va, vb, hva, hvb, hshows.differs⟩
      by_cases hmissing : va = .Missing
      · refine isTraceFile_symm (isTraceFile_of_read hfile hvb fun hvb' => ?_)
        rw [hmissing, hvb'] at hshows
        exact hshows
      · exact isTraceFile_of_read hfile hva hmissing
    · exact .inr hmatrix
  · rintro ⟨file, hfile, hpart⟩
    obtain ⟨va, vb, hva, hvb, -⟩ := hread file hfile
    refine ⟨file, ?_, hpart⟩
    rw [traceFileUnread_iff hva, traceFileUnread_iff hvb] at hpart
    rcases hpart with rfl | rfl
    · exact isTraceFile_of_read hfile hva (by simp)
    · exact isTraceFile_symm (isTraceFile_of_read hfile hvb (by simp))

end Traces

/-! ## The digest planes -/

section Planes

variable [DiffJson]

def PlaneLoaded (root : FileTree) (category : String) (map : DigestMap) : Prop :=
  read_digest_map "" root (plane_file category) = .ok (.Loaded map)

/-- Every digest of two planes has the form of one. -/
def WellFormedDigests (ma mb : DigestMap) : Prop :=
  ∀ path d, digest_of ma path = some d ∨ digest_of mb path = some d → IsDigest d

/-- Some path has a digest on one side that the other lacks, and no malformed one. -/
def DigestsDiffer (ma mb : DigestMap) : Prop :=
  ∃ path, digest_of ma path ≠ digest_of mb path ∧
    ∀ d, digest_of ma path = some d ∨ digest_of mb path = some d → IsDigest d

def PlanesDiffer (a b : FileTree) (category : String) : Prop :=
  ∃ ma mb, PlaneLoaded a category ma ∧ PlaneLoaded b category mb ∧ DigestsDiffer ma mb

/-- A plane does not parse, or a digest is malformed. -/
def PlanesUnexamined (a b : FileTree) (category : String) : Prop :=
  ∀ ma mb, PlaneLoaded a category ma → PlaneLoaded b category mb → ¬ WellFormedDigests ma mb

/-- Where both planes are loaded, no digest is malformed, or some path really differs. -/
def PlanesSettled (a b : FileTree) (category : String) : Prop :=
  ∀ ma mb, PlaneLoaded a category ma → PlaneLoaded b category mb →
    WellFormedDigests ma mb ∨ DigestsDiffer ma mb

omit [DiffJson] in
theorem plane_lines_eq_nil_iff {ma mb : DigestMap} :
    plane_lines (diff_digest_planes ma mb) = [] ↔
      ∀ path, digest_of ma path = digest_of mb path ∧
        ∀ d, digest_of ma path = some d → IsDigest d := by
  have hkeys : ∀ bucket, (diff_digest_planes ma mb).keys bucket = [] ↔
      ∀ path, Verify.verdict ma mb path ≠ some bucket := by
    intro bucket
    rw [List.eq_nil_iff_forall_not_mem]
    refine forall_congr' fun path => ?_
    rw [← List.count_pos_iff, Verify.count_keys]
    by_cases h : Verify.verdict ma mb path = some bucket <;> simp [h]
  have hlines : plane_lines (diff_digest_planes ma mb) = [] ↔
      ∀ bucket, (diff_digest_planes ma mb).keys bucket = [] := by
    rw [plane_lines]
    simp only [List.append_eq_nil_iff, List.map_eq_nil_iff]
    constructor
    · rintro ⟨⟨⟨hunverifiable, hcand⟩, hbase⟩, hchanged⟩ bucket
      cases bucket with
      | Changed => exact hchanged
      | BaseOnly => exact hbase
      | CandOnly => exact hcand
      | Unverifiable => exact hunverifiable
    · intro h
      exact ⟨⟨⟨h .Unverifiable, h .CandOnly⟩, h .BaseOnly⟩, h .Changed⟩
  rw [hlines]
  constructor
  · intro h path
    rw [← Verify.verdict_eq_none_iff, Option.eq_none_iff_forall_ne_some]
    exact fun bucket hbucket => (hkeys bucket).mp (h bucket) path hbucket
  · intro h bucket
    refine (hkeys bucket).mpr fun path hbucket => ?_
    rw [Verify.verdict_eq_none_iff.mpr (h path)] at hbucket
    exact absurd hbucket (by simp)

omit [DiffJson] in
theorem plane_lines_ne_nil_iff {ma mb : DigestMap} :
    plane_lines (diff_digest_planes ma mb) ≠ [] ↔
      DigestsDiffer ma mb ∨ ¬ WellFormedDigests ma mb := by
  rw [ne_eq, plane_lines_eq_nil_iff]
  constructor
  · intro h
    by_cases hformed : WellFormedDigests ma mb
    · obtain ⟨path, hpath⟩ := not_forall.mp h
      refine .inl ⟨path, fun heq => hpath ⟨heq, fun d hd => hformed path d (.inl hd)⟩, ?_⟩
      exact hformed path
    · exact .inr hformed
  · rintro (⟨path, hne, -⟩ | hformed) hall
    · exact hne (hall path).1
    · refine hformed fun path d hd => ?_
      rw [← (hall path).1, or_self] at hd
      exact (hall path).2 d hd

theorem digest_plane_ok {a b : FileTree} {category : String} {diff : CategoryDiff}
    (h : digest_plane a b category = .ok diff) :
    (∃ ma mb, PlaneLoaded a category ma ∧ PlaneLoaded b category mb ∧
      diff = (Findings.differences (plane_lines (diff_digest_planes ma mb))).report category) ∨
    ((∀ ma mb, PlaneLoaded a category ma → ¬ PlaneLoaded b category mb) ∧
      diff.status = .Unverifiable) := by
  simp only [digest_plane, bind_ok_iff, mapError_ok_iff] at h
  obtain ⟨pa, hpa, pb, hpb, h⟩ := h
  cases pa with
  | Unavailable =>
    refine .inr ⟨fun ma mb hma => ?_, ?_⟩
    · rw [PlaneLoaded, hpa] at hma
      cases hma
    · rw [← Except.ok.inj h]
      rfl
  | Loaded ma =>
    cases pb with
    | Unavailable =>
      refine .inr ⟨fun ma mb _ hmb => ?_, ?_⟩
      · rw [PlaneLoaded, hpb] at hmb
        cases hmb
      · rw [← Except.ok.inj h]
        rfl
    | Loaded mb => exact .inl ⟨ma, mb, hpa, hpb, (Except.ok.inj h).symm⟩

theorem PlaneLoaded.unique {root : FileTree} {category : String} {m m' : DigestMap}
    (h : PlaneLoaded root category m) (h' : PlaneLoaded root category m') : m = m' := by
  rw [PlaneLoaded, h] at h'
  exact Verify.Plane.Loaded.inj (Except.ok.inj h')

/-- **The status of a digest plane follows the precedence** exactly when no digest is malformed or
some path really differs: a malformed digest alone is reported as a change. -/
theorem digest_plane_precedence_iff {a b : FileTree} {category : String} {diff : CategoryDiff}
    (h : digest_plane a b category = .ok diff) :
    Precedence (PlanesDiffer a b category) (PlanesUnexamined a b category) (diff.status = ·) ↔
      PlanesSettled a b category := by
  rcases digest_plane_ok h with ⟨ma, mb, hma, hmb, rfl⟩ | ⟨hnone, hstatus⟩
  · have hdiffers : PlanesDiffer a b category ↔ DigestsDiffer ma mb := by
      constructor
      · rintro ⟨ma', mb', hma', hmb', hd⟩
        rwa [hma.unique hma', hmb.unique hmb']
      · intro hd
        exact ⟨ma, mb, hma, hmb, hd⟩
    have hunexamined : PlanesUnexamined a b category ↔ ¬ WellFormedDigests ma mb := by
      constructor
      · intro hu
        exact hu ma mb hma hmb
      · intro hu ma' mb' hma' hmb'
        rwa [← hma.unique hma', ← hmb.unique hmb']
    have hsettled : PlanesSettled a b category ↔
        WellFormedDigests ma mb ∨ DigestsDiffer ma mb := by
      constructor
      · intro hs
        exact hs ma mb hma hmb
      · intro hs ma' mb' hma' hmb'
        rwa [← hma.unique hma', ← hmb.unique hmb']
    rw [precedence_findings_iff, hdiffers, hunexamined, hsettled, Findings.differences_changed,
      plane_lines_ne_nil_iff, Findings.differences_unexaminable]
    by_cases hd : DigestsDiffer ma mb
    · simp [hd]
    · by_cases hw : WellFormedDigests ma mb <;> simp [hd, hw]
  · -- A plane that is not loaded is a part that was not examined.
    have hdiffers : ¬ PlanesDiffer a b category := by
      rintro ⟨ma, mb, hma, hmb, -⟩
      exact hnone ma mb hma hmb
    have hunexamined : PlanesUnexamined a b category :=
      fun ma mb hma hmb => absurd hmb (hnone ma mb hma)
    refine iff_of_true ⟨?_, ?_, ?_⟩ fun ma mb hma hmb => absurd hmb (hnone ma mb hma)
    · simp [hstatus, hdiffers]
    · simp [hstatus, hdiffers, hunexamined]
    · simp [hstatus, hunexamined]

end Planes

end Evidence.Diff
