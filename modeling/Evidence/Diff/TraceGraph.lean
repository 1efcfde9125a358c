/-
`diff/categories_content.rs` -- the `trace_graph` category.

Four trace files are compared, entry by entry, through a map from an entry's uid, or
from its id where it has no uid. Entries are compared as JSON. The matrix is made from
the entries, so of it the presence alone is compared.

A map has one entry for a key, so the entries that a later one of their key stands
before are compared with nothing; neither is any other file under `trace/`.
-/
import Evidence.Diff.Basic
import Evidence.Lib.Check
import Evidence.Lib.Collect
import Evidence.Lib.Toml

set_option autoImplicit false

namespace Evidence.Diff

open Std Evidence.Bundle

/-- `toml::from_str`, and `serde_json::to_value` of what it gives; values of `Json` are equal
where serde_json's are. -/
class TomlJson where
  from_str : String → Option Toml.Value
  Json : Type
  json_eq : DecidableEq Json
  null : Json
  to_value : Toml.Value → Option Json

instance [TomlJson] : DecidableEq TomlJson.Json := TomlJson.json_eq

/-! ## Entries -/

/-- The entries of a trace file, in the order of the file. -/
def trace_entries (value : Toml.Value) : List Toml.Value :=
  ["requirements", "tests"].flatMap fun key => ((value.get key).bind Toml.Value.as_array).getD []

def entry_id (entry : Toml.Value) : String :=
  ((entry.get "id").bind Toml.Value.as_str).getD "(no id)"

/-- The key of an entry: its uid, or its id, marked, where it has none. -/
def entry_uid (entry : Toml.Value) : String :=
  ((entry.get "uid").bind Toml.Value.as_str).getD ("id:" ++ entry_id entry)

section Category

variable [TomlJson]

def entry_json (entry : Toml.Value) : TomlJson.Json := (TomlJson.to_value entry).getD TomlJson.null

/-- An entry in the form it is compared in. -/
structure TraceEntry where
  uid : String
  id : String
  json : TomlJson.Json

abbrev TraceEntries := Store TraceEntry.uid

def trace_entry (entry : Toml.Value) : TraceEntry where
  uid := entry_uid entry
  id := entry_id entry
  json := entry_json entry

def keyed_entries (value : Toml.Value) : TraceEntries :=
  Store.ofList ((trace_entries value).map trace_entry)

def trace_path (file : String) : String := "trace/" ++ file

def read_trace_value (root : FileTree) (file : String) : Except DiffError (Load Toml.Value) :=
  load read_to_string TomlJson.from_str root (trace_path file)

/-- The entries of a parsed file, keyed for comparison. -/
def Load.keyed : Load Toml.Value → Load TraceEntries
  | .Ok value => .Ok (keyed_entries value)
  | .Missing => .Missing
  | .Unparseable => .Unparseable

def read_trace_entries (side : FileTree) (file : String) : Except DiffError (Load TraceEntries) := do
  .ok (← read_trace_value side file).keyed

/-! ## The category -/

def entry_line (sign file : String) (entry : TraceEntry) : String :=
  sign ++ " " ++ file ++ ": " ++ entry.id

/-- What two versions of a trace file differ in. -/
def entry_findings (file : String) (ea eb : Load TraceEntries) : Findings :=
  match ea, eb with
  | .Unparseable, _ => .unexamined ("! trace/" ++ file ++ " unparseable in bundle A")
  | _, .Unparseable => .unexamined ("! trace/" ++ file ++ " unparseable in bundle B")
  | .Missing, .Missing => .differences []
  | .Missing, .Ok map =>
    .differences (("! trace/" ++ file ++ " absent in bundle A") ::
      map.values.map (entry_line "+" file))
  | .Ok map, .Missing =>
    .differences (("! trace/" ++ file ++ " absent in bundle B") ::
      map.values.map (entry_line "-" file))
  | .Ok map_a, .Ok map_b =>
    .differences (diff_entries (fun x y => decide (y.json ≠ x.json)) (entry_line "-" file)
      (fun x _ => entry_line "~" file x) (entry_line "+" file) map_a map_b)

def file_findings (a b : FileTree) (file : String) : Except DiffError Findings := do
  let ea ← read_trace_entries a file
  let eb ← read_trace_entries b file
  .ok (entry_findings file ea eb)

/-- The presence of the matrix. -/
def matrix_findings (matrix_a matrix_b : Bool) : Findings :=
  .differences (if matrix_a ≠ matrix_b then
    ["~ trace/matrix.md: " ++ presence_label matrix_a ++ " -> " ++ presence_label matrix_b]
  else [])

def TRACE_FILES : List String := ["hlr.toml", "llr.toml", "tests.toml", "derived.toml"]

def trace_graph (a b : FileTree) : Except DiffError CategoryDiff :=
  match is_dir a "trace", is_dir b "trace" with
  | false, false => .ok (unverifiable "trace_graph" "trace/ absent in both bundles")
  | false, true => .ok (unverifiable "trace_graph" "trace/ absent in bundle A")
  | true, false => .ok (unverifiable "trace_graph" "trace/ absent in bundle B")
  | true, true => do
    let findings ← TRACE_FILES.mapM (file_findings a b)
    .ok ((findings.foldr Findings.add
      (matrix_findings (is_file a "trace/matrix.md") (is_file b "trace/matrix.md"))).report
        "trace_graph")

/-! ## What is compared -/

def last_entry (key : String) (value : Toml.Value) : Option Toml.Value :=
  (Store.under entry_uid key (trace_entries value)).getLast?

/-- Two versions of a file show the same: both are missing, or both parse, and the last entry
of every key is the same JSON. -/
def EntriesShowAlike (va vb : Load Toml.Value) : Prop :=
  (va = .Missing ∧ vb = .Missing) ∨
    ∃ x y, va = .Ok x ∧ vb = .Ok y ∧ ∀ key,
      Option.Rel (fun entry entry' => entry_json entry' = entry_json entry)
        (last_entry key x) (last_entry key y)

/-- Two bundles show the same in everything that is compared of their trace graphs. -/
structure TracesShowAlike (a b : FileTree) : Prop where
  dir_a : is_dir a "trace" = true
  dir_b : is_dir b "trace" = true
  entries : ∀ file ∈ TRACE_FILES, ∃ va vb, read_trace_value a file = .ok va ∧
    read_trace_value b file = .ok vb ∧ EntriesShowAlike va vb
  matrix : is_file a "trace/matrix.md" = is_file b "trace/matrix.md"

omit [TomlJson] in
theorem matrix_findings_silent {matrix_a matrix_b : Bool} :
    (matrix_findings matrix_a matrix_b).Silent ↔ matrix_a = matrix_b := by
  by_cases h : matrix_a = matrix_b <;> simp [matrix_findings, h]

/-- What a keyed file looks up. -/
theorem keyed_entries_get (value : Toml.Value) (key : String) :
    (keyed_entries value).get key = (last_entry key value).map trace_entry := by
  have hunder : Store.under TraceEntry.uid key ((trace_entries value).map trace_entry) =
      (Store.under entry_uid key (trace_entries value)).map trace_entry := by
    rw [Store.under, List.filter_map]
    rfl
  rw [keyed_entries, Store.get_ofList_last, hunder, List.getLast?_map]
  rfl

theorem rel_map_trace_entry {x y : Option Toml.Value} :
    Option.Rel (fun a b : TraceEntry => decide (b.json ≠ a.json) = false) (x.map trace_entry)
        (y.map trace_entry) ↔
      Option.Rel (fun entry entry' => entry_json entry' = entry_json entry) x y := by
  cases x with
  | none =>
    cases y with
    | none => simp
    | some b => simp
  | some a =>
    cases y with
    | none => simp
    | some b => simp [trace_entry]

theorem entry_findings_silent {file : String} {va vb : Load Toml.Value} :
    (entry_findings file va.keyed vb.keyed).Silent ↔ EntriesShowAlike va vb := by
  unfold EntriesShowAlike
  cases va with
  | Ok x =>
    cases vb with
    | Ok y =>
      simp only [Load.keyed, entry_findings, Findings.differences_silent, diff_entries_eq_nil_iff,
        keyed_entries_get, rel_map_trace_entry, reduceCtorEq, false_and, false_or, Load.Ok.injEq]
      constructor
      · intro h
        exact ⟨x, y, rfl, rfl, h⟩
      · rintro ⟨_, _, rfl, rfl, h⟩
        exact h
    | Missing => simp [Load.keyed, entry_findings]
    | Unparseable => simp [Load.keyed, entry_findings]
  | Missing => cases vb <;> simp [Load.keyed, entry_findings]
  | Unparseable => cases vb <;> simp [Load.keyed, entry_findings]

theorem file_findings_ok {a b : FileTree} {file : String} {f : Findings}
    (h : file_findings a b file = .ok f) :
    ∃ va vb, read_trace_value a file = .ok va ∧ read_trace_value b file = .ok vb ∧
      f = entry_findings file va.keyed vb.keyed := by
  simp only [file_findings, read_trace_entries, Check.bind_ok_iff, Except.ok.injEq] at h
  obtain ⟨_, ⟨va, hva, rfl⟩, _, ⟨vb, hvb, rfl⟩, rfl⟩ := h
  exact ⟨va, vb, hva, hvb, rfl⟩

/-- **The trace graphs are equal exactly when they show the same.** -/
theorem trace_graph_equal_iff {a b : FileTree} {diff : CategoryDiff}
    (h : trace_graph a b = .ok diff) : diff.status = .Equal ↔ TracesShowAlike a b := by
  unfold trace_graph at h
  split at h
  case h_4 hdir_a hdir_b =>
    simp only [Check.bind_ok_iff, Check.mapM_ok_iff, Except.ok.injEq] at h
    obtain ⟨findings, hfindings, rfl⟩ := h
    rw [Findings.report_equal_iff, Findings.foldr_add_silent, matrix_findings_silent]
    constructor
    · rintro ⟨hsilent, hmatrix⟩
      refine ⟨hdir_a, hdir_b, fun file hfile => ?_, hmatrix⟩
      obtain ⟨f, hf, hfile⟩ := Collect.exists_of_mem_left hfindings hfile
      obtain ⟨va, vb, hva, hvb, rfl⟩ := file_findings_ok hfile
      exact ⟨va, vb, hva, hvb, entry_findings_silent.mp (hsilent _ hf)⟩
    · intro halike
      refine ⟨fun f hf => ?_, halike.matrix⟩
      obtain ⟨file, hfile, hread⟩ := Collect.exists_of_mem_right hfindings hf
      obtain ⟨va, vb, hva, hvb, rfl⟩ := file_findings_ok hread
      obtain ⟨va', vb', hva', hvb', hshow⟩ := halike.entries file hfile
      rw [hva] at hva'
      rw [hvb] at hvb'
      rw [Except.ok.inj hva', Except.ok.inj hvb']
      exact entry_findings_silent.mpr hshow
  -- Without one of the directories the category is unverifiable.
  all_goals
    rename_i hdir_a hdir_b
    rw [← Except.ok.inj h]
    refine ⟨fun hequal => by simp [unverifiable] at hequal, fun halike => ?_⟩
    have hdirs := And.intro halike.dir_a halike.dir_b
    rw [hdir_a, hdir_b] at hdirs
    simp at hdirs

/-! ## The verdict -/

/-- The entries a trace file holds; without a file there are none, and of a file that cannot be
read or parsed nothing is known. -/
def entries_at (root : FileTree) (file : String) : Option (List Toml.Value) :=
  match read_trace_value root file with
  | .ok (.Ok value) => some (trace_entries value)
  | .ok .Missing => some []
  | _ => none

/-- A file `trace/*.toml` of one of two bundles. -/
def IsTraceFile (a b : FileTree) (file : String) : Prop :=
  ".toml".toList <:+ file.toList ∧ '/' ∉ file.toList ∧
    (is_file a (trace_path file) = true ∨ is_file b (trace_path file) = true)

/-- Two bundles hold the same entries in a file. -/
def SameEntries (a b : FileTree) (file : String) : Prop :=
  ∃ ea eb, entries_at a file = some ea ∧ entries_at b file = some eb ∧ ea.Perm eb

/-- Two bundles hold the same trace graph, with a matrix or without. -/
structure SameTraces (a b : FileTree) : Prop where
  entries : ∀ file, IsTraceFile a b file → SameEntries a b file
  matrix : is_file a "trace/matrix.md" = is_file b "trace/matrix.md"

structure SameBehind (a b : FileTree) : Prop where
  unread : ∀ file, IsTraceFile a b file → file ∉ TRACE_FILES → SameEntries a b file
  keys : ∀ file ∈ TRACE_FILES, ∀ ea eb, entries_at a file = some ea → entries_at b file = some eb →
    ∀ key, (Store.under entry_uid key ea).Perm (Store.under entry_uid key eb)

theorem EntriesShowAlike.entries_at {a b : FileTree} {file : String} {va vb : Load Toml.Value}
    (hva : read_trace_value a file = .ok va) (hvb : read_trace_value b file = .ok vb)
    (h : EntriesShowAlike va vb) :
    ∃ ea eb, Diff.entries_at a file = some ea ∧ Diff.entries_at b file = some eb := by
  unfold Diff.entries_at
  rw [hva, hvb]
  rcases h with ⟨rfl, rfl⟩ | ⟨x, y, rfl, rfl, -⟩
  · exact ⟨[], [], rfl, rfl⟩
  · exact ⟨trace_entries x, trace_entries y, rfl, rfl⟩

omit [TomlJson] in
theorem is_file_of_load {β α : Type} {parse : β → Option α} {read : FileTree → String → Option β}
    {root : FileTree} {rel : String} {value : α}
    (hread : ∀ content, read root rel = some content → is_file root rel = true)
    (h : load read parse root rel = .ok (.Ok value)) : is_file root rel = true := by
  unfold load at h
  split at h
  · simp at h
  · cases hcontent : read root rel with
    | none => simp [hcontent] at h
    | some content => exact hread content hcontent

omit [TomlJson] in
theorem is_file_of_read_to_string {root : FileTree} {rel content : String}
    (h : read_to_string root rel = some content) : is_file root rel = true := by
  obtain ⟨bytes, hbytes, -⟩ := Option.bind_eq_some_iff.mp h
  obtain ⟨htext, -⟩ := Option.filter_eq_some_iff.mp hbytes
  unfold FileTree.read_text at htext
  unfold is_file
  split at htext
  · next hfound => simp [hfound]
  · simp at htext

omit [TomlJson] in
theorem isTraceFile_of_mem {a b : FileTree} {file : String} (hfile : file ∈ TRACE_FILES)
    (h : is_file a (trace_path file) = true) : IsTraceFile a b file := by
  have hnames : ∀ name ∈ TRACE_FILES, ".toml".toList <:+ name.toList ∧ '/' ∉ name.toList := by
    decide +kernel
  have hname := hnames file hfile
  exact ⟨hname.1, hname.2, .inl h⟩

/-- **Bundles that show the same trace graph hold the same one exactly when the same is behind
what they show.** -/
theorem same_traces_iff {a b : FileTree} (h : TracesShowAlike a b) :
    SameTraces a b ↔ SameBehind a b := by
  constructor
  · intro hsame
    refine ⟨fun file hfile _ => hsame.entries file hfile, fun file hfile ea eb hea heb key => ?_⟩
    obtain ⟨va, vb, hva, hvb, hshow⟩ := h.entries file hfile
    rcases hshow with ⟨rfl, rfl⟩ | ⟨x, y, rfl, rfl, -⟩
    · simp only [entries_at, hva, Option.some.injEq] at hea
      simp only [entries_at, hvb, Option.some.injEq] at heb
      rw [← hea, ← heb]
    · have hexists := is_file_of_load (fun _ => is_file_of_read_to_string) hva
      obtain ⟨ea', eb', hea', heb', hperm⟩ := hsame.entries file (isTraceFile_of_mem hfile hexists)
      rw [hea, Option.some.injEq] at hea'
      rw [heb, Option.some.injEq] at heb'
      rw [hea', heb']
      exact Store.perm_iff_under.mp hperm key
  · intro hbehind
    refine ⟨fun file hfile => ?_, h.matrix⟩
    by_cases hmem : file ∈ TRACE_FILES
    · obtain ⟨va, vb, hva, hvb, hshow⟩ := h.entries file hmem
      obtain ⟨ea, eb, hea, heb⟩ := hshow.entries_at hva hvb
      exact ⟨ea, eb, hea, heb, Store.perm_iff_under.mpr (hbehind.keys file hmem ea eb hea heb)⟩
    · exact hbehind.unread file hfile hmem

end Category

end Evidence.Diff
