/-
`copy_trace_and_build_matrix` (`cli/generate/phases.rs`) -- the trace on its way into a
bundle.

Root after root, four of the five trace files are copied to their fixed names in the
bundle's `trace/` directory, and the matrix of the root's own entries is written next to
them. A file stands for the last root that holds it (`copied_files`), the system file
for none, and the matrix for the last root (`copied_matrix`). So nothing is lost exactly
when no root has system requirements and the last version of every file repeats what the
versions before it hold.
-/
import Evidence.Trace.MatrixPaths

set_option autoImplicit false

namespace Evidence.Cli

open Corpus Trace

/-! ## Trace directories -/

inductive TraceName where
  | Sys
  | Hlr
  | Llr
  | Tests
  | Derived
deriving DecidableEq

def TraceName.file_name : TraceName → String
  | Sys => "sys.toml"
  | Hlr => "hlr.toml"
  | Llr => "llr.toml"
  | Tests => "tests.toml"
  | Derived => "derived.toml"

/-- A directory: the bytes of each of the files it holds. -/
abbrev TraceDir := TraceName → Option (List UInt8)

/-- The `toml` crate as it reads the trace files. -/
class TraceToml where
  hlr_file : List UInt8 → Option HlrFile
  llr_file : List UInt8 → Option LlrFile
  tests_file : List UInt8 → Option TestsFile
  derived_file : List UInt8 → Option DerivedFile

def empty_hlr_file : HlrFile := ⟨⟨""⟩, ⟨"", ""⟩, []⟩

def empty_llr_file : LlrFile := ⟨⟨""⟩, ⟨"", ""⟩, []⟩

def empty_tests_file : TestsFile := ⟨⟨""⟩, ⟨"", ""⟩, []⟩

def read_or_default {α : Type} (parse : List UInt8 → Option α) (default : α)
    (file : Option (List UInt8)) : Option α :=
  match file with
  | none => some default
  | some bytes => parse bytes

section Read

variable [TraceToml]

def read_hlr : Option (List UInt8) → Option HlrFile :=
  read_or_default TraceToml.hlr_file empty_hlr_file

def read_llr : Option (List UInt8) → Option LlrFile :=
  read_or_default TraceToml.llr_file empty_llr_file

def read_tests : Option (List UInt8) → Option TestsFile :=
  read_or_default TraceToml.tests_file empty_tests_file

def read_derived : Option (List UInt8) → Option (Option DerivedFile) :=
  read_or_default (fun bytes => (TraceToml.derived_file bytes).map some) none

/-- All files of a root; `none` when one of them is not readable. -/
def read_all_trace_files (root : TraceDir) : Option TraceFiles := do
  let sys ← read_hlr (root .Sys)
  let hlr ← read_hlr (root .Hlr)
  let llr ← read_llr (root .Llr)
  let tests ← read_tests (root .Tests)
  let derived ← read_derived (root .Derived)
  some { sys := sys, hlr := hlr, llr := llr, tests := tests, derived := derived }

def entries_of (name : TraceName) (file : Option (List UInt8)) : List TraceItem :=
  match name with
  | .Sys => (read_hlr file).elim [] fun sys => sys.requirements.map .Sys
  | .Hlr => (read_hlr file).elim [] fun hlr => hlr.requirements.map .Hlr
  | .Llr => (read_llr file).elim [] fun llr => llr.requirements.map .Llr
  | .Tests => (read_tests file).elim [] fun tests => tests.tests.map .Test
  | .Derived => (read_derived file).elim [] fun derived =>
      derived.elim [] fun derived => derived.requirements.map .Derived

end Read

/-! ## The phase -/

/-- What the phase has put into the bundle. -/
structure BundleTrace where
  files : TraceDir
  «matrix» : Option String
  trace_outputs : List String

def COPIED_FILES : List TraceName := [.Hlr, .Llr, .Tests, .Derived]

/-- Copy one file of a root, over what the bundle has. -/
def copy_file (root files : TraceDir) (name : TraceName) : TraceDir :=
  match root name with
  | none => files
  | some bytes => Function.update files name (some bytes)

def copy_files (root files : TraceDir) : TraceDir := COPIED_FILES.foldl (copy_file root) files

section Phase

variable [TraceToml] [Sha256] [F64Display]

/-- One root. A root that is not readable is passed over. -/
def copy_root (out : BundleTrace) (root : TraceDir) : Except CorpusError BundleTrace :=
  match read_all_trace_files root with
  | none => .ok out
  | some trace_files => do
    let files := copy_files root out.files
    let graph ← graph_from_trace_files trace_files
    graph.validate
    let matrix_md := generate_corpus_traceability_matrix graph trace_files.hlr trace_files.llr
      trace_files.tests trace_files.hlr.meta.document_id
    .ok
      { files := files, «matrix» := some matrix_md
        trace_outputs := out.trace_outputs ++ ["trace/matrix.md"] }

/-- The bundle's directory is created empty. -/
def empty_trace : BundleTrace := ⟨fun _ => none, none, []⟩

/-- All roots, in order; one that does not exist is passed over. -/
def copy_trace_and_build_matrix (fs : String → Option TraceDir) (trace_roots : List String) :
    Except CorpusError BundleTrace :=
  trace_roots.foldlM
    (fun out root =>
      match fs root with
      | none => .ok out
      | some root => copy_root out root)
    empty_trace

/-! ## One step -/

omit [TraceToml] [Sha256] [F64Display] in
theorem copy_files_get (root files : TraceDir) (name : TraceName) :
    copy_files root files name =
      if name = .Sys then files .Sys else (root name).or (files name) := by
  have hcopy : ∀ (files : TraceDir) (copied : TraceName), copy_file root files copied name =
      if name = copied then (root name).or (files name) else files name := by
    intro files copied
    rw [copy_file]
    by_cases h : name = copied
    · subst h
      cases root name <;> simp
    · cases root copied <;> simp [h]
  simp only [copy_files, COPIED_FILES, List.foldl_cons, List.foldl_nil, hcopy]
  cases name <;> simp

theorem copy_root_ok {out out' : BundleTrace} {root : TraceDir} {files : TraceFiles}
    (hread : read_all_trace_files root = some files) :
    copy_root out root = .ok out' ↔ ∃ graph, graph_from_trace_files files = .ok graph ∧
      graph.validate = .ok () ∧ out' =
        { files := copy_files root out.files
          «matrix» := some (graph_matrix graph files files.hlr.meta.document_id)
          trace_outputs := out.trace_outputs ++ ["trace/matrix.md"] } := by
  rw [copy_root, hread]
  simp only [Check.bind_ok_iff, Except.ok.injEq]
  constructor
  · rintro ⟨graph, hgraph, _, hvalid, rfl⟩
    exact ⟨graph, hgraph, hvalid, rfl⟩
  · rintro ⟨graph, hgraph, hvalid, rfl⟩
    exact ⟨graph, hgraph, (), hvalid, rfl⟩

theorem copy_root_files {out out' : BundleTrace} {root : TraceDir}
    (hread : (read_all_trace_files root).isSome = true) (h : copy_root out root = .ok out')
    (name : TraceName) :
    out'.files name = if name = .Sys then out.files .Sys else (root name).or (out.files name) := by
  obtain ⟨files, hfiles⟩ := Option.isSome_iff_exists.mp hread
  obtain ⟨graph, -, -, rfl⟩ := (copy_root_ok hfiles).mp h
  exact copy_files_get root out.files name

/-! ## All roots -/

/-- The version of a file in the last root that holds it. -/
def last_version (dirs : List TraceDir) (name : TraceName) : Option (List UInt8) :=
  (dirs.filterMap fun dir => dir name).getLast?

omit [TraceToml] [Sha256] [F64Display] in
theorem last_version_cons (dir : TraceDir) (dirs : List TraceDir) (name : TraceName) :
    last_version (dir :: dirs) name = (last_version dirs name).or (dir name) := by
  rw [last_version, List.filterMap_cons, last_version]
  cases dir name with
  | none => simp
  | some bytes =>
    rw [List.getLast?_cons]
    cases (dirs.filterMap fun dir => dir name).getLast? <;> rfl

theorem copy_eq_foldlM {fs : String → Option TraceDir} {roots : List String}
    {dirs : List TraceDir} (hdirs : roots.map fs = dirs.map some) :
    copy_trace_and_build_matrix fs roots = dirs.foldlM copy_root empty_trace := by
  rw [copy_trace_and_build_matrix]
  generalize empty_trace = out
  induction roots generalizing dirs out with
  | nil =>
    cases dirs with
    | nil => rfl
    | cons dir dirs => cases hdirs
  | cons root roots ih =>
    cases dirs with
    | nil => cases hdirs
    | cons dir dirs =>
      rw [List.map_cons, List.map_cons, List.cons.injEq] at hdirs
      rw [List.foldlM_cons, List.foldlM_cons, hdirs.1]
      exact congrArg _ (funext fun next => ih hdirs.2 next)

/-- **A file of the bundle is the last version of it**, and the system file is none. -/
theorem copied_files {dirs : List TraceDir} {out out' : BundleTrace}
    (hread : ∀ dir ∈ dirs, (read_all_trace_files dir).isSome = true)
    (h : dirs.foldlM copy_root out = .ok out') (name : TraceName) :
    out'.files name =
      if name = .Sys then out.files .Sys else (last_version dirs name).or (out.files name) := by
  induction dirs generalizing out with
  | nil =>
    rw [← Except.ok.inj h]
    by_cases hname : name = .Sys <;> simp [hname, last_version]
  | cons dir dirs ih =>
    rw [List.foldlM_cons, Check.bind_ok_iff] at h
    obtain ⟨next, hstep, hrest⟩ := h
    have hfirst := copy_root_files (hread dir List.mem_cons_self) hstep
    rw [ih (fun d hd => hread d (List.mem_cons_of_mem _ hd)) hrest, hfirst, hfirst,
      last_version_cons]
    by_cases hname : name = .Sys
    · simp [hname]
    · simp only [hname, if_false, Option.or_assoc]

/-- **The matrix of the bundle is the matrix of the last root.** -/
theorem copied_matrix {dirs : List TraceDir} {last : TraceDir} {out out' : BundleTrace}
    {files : TraceFiles} (hfiles : read_all_trace_files last = some files)
    (h : (dirs ++ [last]).foldlM copy_root out = .ok out') :
    out'.matrix = some (file_matrix files files.hlr.meta.document_id) := by
  rw [List.foldlM_append, Check.bind_ok_iff] at h
  obtain ⟨before, -, hlast⟩ := h
  simp only [List.foldlM_cons, List.foldlM_nil, bind_pure] at hlast
  obtain ⟨graph, hgraph, -, rfl⟩ := (copy_root_ok hfiles).mp hlast
  exact congrArg some (graph_matrix_eq hgraph _)

theorem exists_copied {dirs : List TraceDir} (out : BundleTrace)
    (h : ∀ dir ∈ dirs, ∃ files graph, read_all_trace_files dir = some files ∧
      graph_from_trace_files files = .ok graph ∧ graph.validate = .ok ()) :
    ∃ out', dirs.foldlM copy_root out = .ok out' := by
  induction dirs generalizing out with
  | nil => exact ⟨out, rfl⟩
  | cons dir dirs ih =>
    obtain ⟨files, graph, hfiles, hgraph, hvalid⟩ := h dir List.mem_cons_self
    obtain ⟨out', hrest⟩ := ih _ fun d hd => h d (List.mem_cons_of_mem _ hd)
    refine ⟨out', ?_⟩
    rw [List.foldlM_cons, Check.bind_ok_iff]
    exact ⟨_, (copy_root_ok hfiles).mpr ⟨graph, hgraph, hvalid, rfl⟩, hrest⟩

/-! ## What is lost -/

/-- Every entry of every root is in the file of its name in the bundle. -/
def Kept (dirs : List TraceDir) (out : BundleTrace) : Prop :=
  ∀ dir ∈ dirs, ∀ name, entries_of name (dir name) ⊆ entries_of name (out.files name)

/-- The matrix is the matrix of the bundle's files. -/
def MatrixCurrent (dirs : List TraceDir) (out : BundleTrace) : Prop :=
  dirs ≠ [] → ∃ files, read_all_trace_files out.files = some files ∧
    out.matrix = some (file_matrix files files.hlr.meta.document_id)

structure LastHoldsAll (dirs : List TraceDir) : Prop where
  sys : ∀ dir ∈ dirs, entries_of .Sys (dir .Sys) = []
  copied : ∀ dir ∈ dirs, ∀ name ∈ COPIED_FILES,
    entries_of name (dir name) ⊆ entries_of name (last_version dirs name)

/-- The files the matrix is made of read, in the last root, as their last versions do. -/
structure LastReadsAll (dirs : List TraceDir) : Prop where
  hlr : ∀ last ∈ dirs.getLast?, read_hlr (last .Hlr) = read_hlr (last_version dirs .Hlr)
  llr : ∀ last ∈ dirs.getLast?, read_llr (last .Llr) = read_llr (last_version dirs .Llr)
  tests : ∀ last ∈ dirs.getLast?, read_tests (last .Tests) = read_tests (last_version dirs .Tests)

omit [Sha256] [F64Display] in
/-- A file that is absent has no entries. -/
theorem entries_of_none (name : TraceName) : entries_of name none = [] := by
  cases name <;> rfl

/-- **Nothing is lost exactly when the last versions hold everything.** -/
theorem kept_iff {dirs : List TraceDir} {out : BundleTrace}
    (hread : ∀ dir ∈ dirs, (read_all_trace_files dir).isSome = true)
    (h : dirs.foldlM copy_root empty_trace = .ok out) : Kept dirs out ↔ LastHoldsAll dirs := by
  have hsys : out.files .Sys = none := by rw [copied_files hread h, if_pos rfl]; rfl
  have hcopied : ∀ name, name ≠ .Sys → out.files name = last_version dirs name := by
    intro name hname
    rw [copied_files hread h, if_neg hname]
    exact Option.or_none
  constructor
  · intro hkept
    refine ⟨fun dir hdir => ?_, fun dir hdir name hname => ?_⟩
    · have hsub := hkept dir hdir .Sys
      rw [hsys, entries_of_none] at hsub
      exact List.subset_nil.mp hsub
    · rw [← hcopied name]
      · exact hkept dir hdir name
      · rintro rfl
        exact absurd hname (by decide)
  · rintro ⟨hnone, hlast⟩ dir hdir name
    by_cases hname : name = .Sys
    · rw [hname, hnone dir hdir]
      exact List.nil_subset _
    · rw [hcopied name hname]
      refine hlast dir hdir name ?_
      cases name with
      | Sys => exact absurd rfl hname
      | Hlr | Llr | Tests | Derived => decide

omit [Sha256] [F64Display] in
theorem read_all_eq_some_iff {dir : TraceDir} {files : TraceFiles} :
    read_all_trace_files dir = some files ↔
      read_hlr (dir .Sys) = some files.sys ∧ read_hlr (dir .Hlr) = some files.hlr ∧
      read_llr (dir .Llr) = some files.llr ∧ read_tests (dir .Tests) = some files.tests ∧
      read_derived (dir .Derived) = some files.derived := by
  simp only [read_all_trace_files, Option.bind_eq_bind, Option.bind_eq_some_iff,
    Option.some.injEq]
  constructor
  · rintro ⟨sys, hsys, hlr, hhlr, llr, hllr, tests, htests, derived, hderived, rfl⟩
    exact ⟨hsys, hhlr, hllr, htests, hderived⟩
  · rintro ⟨hsys, hhlr, hllr, htests, hderived⟩
    exact ⟨_, hsys, _, hhlr, _, hllr, _, htests, _, hderived, rfl⟩

omit [TraceToml] [Sha256] [F64Display] in
theorem last_version_cases (dirs : List TraceDir) (name : TraceName) :
    last_version dirs name = none ∨ ∃ dir ∈ dirs, dir name = last_version dirs name := by
  cases h : last_version dirs name with
  | none => exact .inl rfl
  | some bytes =>
    obtain ⟨dir, hdir, hname⟩ := List.mem_filterMap.mp (List.mem_of_getLast? h)
    exact .inr ⟨dir, hdir, hname⟩

theorem matrix_current {dirs : List TraceDir} {out : BundleTrace}
    (hread : ∀ dir ∈ dirs, (read_all_trace_files dir).isSome = true)
    (h : dirs.foldlM copy_root empty_trace = .ok out) (hlast : LastReadsAll dirs) :
    MatrixCurrent dirs out := by
  intro hne
  obtain ⟨before, last, rfl⟩ := (List.eq_nil_or_concat' dirs).resolve_left hne
  obtain ⟨files, hfiles⟩ := Option.isSome_iff_exists.mp (hread last (by simp))
  obtain ⟨-, hhlr, hllr, htests, -⟩ := read_all_eq_some_iff.mp hfiles
  have hcopied : ∀ name, name ≠ .Sys → out.files name = last_version (before ++ [last]) name := by
    intro name hname
    rw [copied_files hread h, if_neg hname]
    exact Option.or_none
  have hmem : last ∈ (before ++ [last]).getLast? := by simp
  -- the last version of the derived file is a file of a readable root
  obtain ⟨derived, hderived⟩ : ∃ derived,
      read_derived (last_version (before ++ [last]) .Derived) = some derived := by
    rcases last_version_cases (before ++ [last]) .Derived with hnone | ⟨dir, hdir, hsame⟩
    · exact ⟨none, by rw [hnone]; rfl⟩
    · obtain ⟨held, hheld⟩ := Option.isSome_iff_exists.mp (hread dir hdir)
      exact ⟨held.derived, hsame ▸ (read_all_eq_some_iff.mp hheld).2.2.2.2⟩
  have hmatrix := copied_matrix hfiles h
  refine ⟨{ files with sys := empty_hlr_file, derived := derived }, ?_, hmatrix⟩
  refine read_all_eq_some_iff.mpr ⟨?_, ?_, ?_, ?_, ?_⟩
  · rw [copied_files hread h, if_pos rfl]
    rfl
  · rw [hcopied _ (by decide), ← hlast.hlr last hmem, hhlr]
  · rw [hcopied _ (by decide), ← hlast.llr last hmem, hllr]
  · rw [hcopied _ (by decide), ← hlast.tests last hmem, htests]
  · rw [hcopied _ (by decide), hderived]

/-- **What comes into the bundle**: no entry is lost exactly when the last versions of the files
hold every entry, and the matrix is that of the bundle's files when the last root reads as
they do. -/
theorem copied_trace_faithful (fs : String → Option TraceDir) (trace_roots : List String)
    (dirs : List TraceDir) (out : BundleTrace) (hdirs : trace_roots.map fs = dirs.map some)
    (hread : ∀ dir ∈ dirs, (read_all_trace_files dir).isSome = true)
    (hok : copy_trace_and_build_matrix fs trace_roots = .ok out) :
    (LastHoldsAll dirs ∧ LastReadsAll dirs → Kept dirs out ∧ MatrixCurrent dirs out) ∧
      (Kept dirs out → LastHoldsAll dirs) := by
  rw [copy_eq_foldlM hdirs] at hok
  refine ⟨fun h => ⟨(kept_iff hread hok).mpr h.1, matrix_current hread hok h.2⟩, ?_⟩
  exact (kept_iff hread hok).mp

end Phase

/-! ## Two roots -/

/-- The text of an `hlr.toml` of one requirement. -/
def hlr_text (id : String) : String :=
  "[schema]\nversion = \"1\"\n\n[meta]\ndocument_id = \"HLR\"\nrevision = \"A\"\n\n" ++
  "[[requirements]]\nuid = \"" ++ id ++ "\"\nid = \"" ++ id ++ "\"\ntitle = \"a requirement\"\n"

/-- What it reads as. -/
def hlr_value (id : String) : HlrFile := ⟨⟨"1"⟩, ⟨"HLR", "A"⟩, [sample_hlr id id]⟩

/-- A parser that knows two texts. -/
@[reducible] def two_texts : TraceToml where
  hlr_file bytes :=
    if bytes = (hlr_text "HLR-1").toUTF8.toList then some (hlr_value "HLR-1")
    else if bytes = (hlr_text "HLR-2").toUTF8.toList then some (hlr_value "HLR-2")
    else none
  llr_file _ := none
  tests_file _ := none
  derived_file _ := none

/-- A root that holds nothing but an `hlr.toml`. -/
def hlr_root (id : String) : TraceDir
  | .Hlr => some (hlr_text id).toUTF8.toList
  | .Sys | .Llr | .Tests | .Derived => none

def two_roots : String → Option TraceDir
  | "first" => some (hlr_root "HLR-1")
  | "second" => some (hlr_root "HLR-2")
  | _ => none

/-- The trace of one requirement. -/
def hlr_files (id : String) : TraceFiles :=
  ⟨empty_hlr_file, hlr_value id, empty_llr_file, empty_tests_file, none⟩

theorem read_first :
    @read_all_trace_files two_texts (hlr_root "HLR-1") = some (hlr_files "HLR-1") := by
  decide +kernel

theorem read_second :
    @read_all_trace_files two_texts (hlr_root "HLR-2") = some (hlr_files "HLR-2") := by
  decide +kernel

theorem hlr_graph (id : String) : ∃ graph, graph_from_trace_files (hlr_files id) = .ok graph ∧
    @CorpusGraph.validate fips180 F64.exact_display graph = .ok () := by
  refine (@valid_graph_iff fips180 F64.exact_display _ _ _ _ _).mpr ⟨⟨?_, ?_, ?_, ?_⟩, ?_⟩
  · simp [trace_items, hlr_files, hlr_value, sample_hlr, TraceItem.uid, derived_entries,
      empty_hlr_file, empty_llr_file, empty_tests_file]
  · simp [trace_items, hlr_files, hlr_value, derived_entries, empty_hlr_file, empty_llr_file,
      empty_tests_file]
  · simp [trace_items, hlr_files, hlr_value, derived_entries, empty_hlr_file, empty_llr_file,
      empty_tests_file]
  · simp [trace_items, hlr_files, hlr_value, sample_hlr, TraceItem.links, derived_entries,
      empty_hlr_file, empty_llr_file, empty_tests_file]
  · intro item hitem link hlink
    have hitem : item = .Hlr (sample_hlr id id) := List.mem_singleton.mp hitem
    rw [hitem] at hlink
    cases hlink

theorem readable_and_valid : ∀ dir ∈ [hlr_root "HLR-1", hlr_root "HLR-2"], ∃ files graph,
    @read_all_trace_files two_texts dir = some files ∧
      graph_from_trace_files files = .ok graph ∧
      @CorpusGraph.validate fips180 F64.exact_display graph = .ok () := by
  intro dir hdir
  rcases List.mem_pair.mp hdir with rfl | rfl
  · obtain ⟨graph, hgraph, hvalid⟩ := hlr_graph "HLR-1"
    exact ⟨_, graph, read_first, hgraph, hvalid⟩
  · obtain ⟨graph, hgraph, hvalid⟩ := hlr_graph "HLR-2"
    exact ⟨_, graph, read_second, hgraph, hvalid⟩

/-- What the theorem says of one root: nothing is lost. -/
theorem copied_trace_faithful_one :
    ∃ out, @copy_trace_and_build_matrix two_texts fips180 F64.exact_display two_roots
        ["first"] = .ok out ∧
      @Kept two_texts [hlr_root "HLR-1"] out ∧
        @MatrixCurrent two_texts [hlr_root "HLR-1"] out := by
  have hvalid : ∀ dir ∈ [hlr_root "HLR-1"], ∃ files graph, _ := fun dir hdir =>
    readable_and_valid dir (List.mem_cons.mpr (.inl (List.mem_singleton.mp hdir)))
  obtain ⟨out, hout⟩ := @exists_copied two_texts fips180 F64.exact_display _ empty_trace hvalid
  have hok := (@copy_eq_foldlM two_texts fips180 F64.exact_display two_roots ["first"]
    [hlr_root "HLR-1"] rfl).trans hout
  have hread : ∀ dir ∈ [hlr_root "HLR-1"],
      (@read_all_trace_files two_texts dir).isSome = true := by
    intro dir hdir
    rw [List.mem_singleton.mp hdir, read_first]
    rfl
  refine ⟨out, hok, (@copied_trace_faithful two_texts fips180 F64.exact_display two_roots
    ["first"] [hlr_root "HLR-1"] out rfl hread hok).1
      ⟨@LastHoldsAll.mk two_texts _ ?_ ?_, @LastReadsAll.mk two_texts _ ?_ ?_ ?_⟩⟩
  · intro dir hdir
    rw [List.mem_singleton.mp hdir]
    rfl
  · intro dir hdir name hname
    rw [List.mem_singleton.mp hdir]
    cases name <;> exact List.Subset.refl _
  all_goals
    intro last hlast
    rw [← Option.mem_some_iff.mp hlast]
    rfl

/-- **The second root's `hlr.toml` replaces the first's**: its requirement is lost. -/
theorem copied_trace_lost :
    ∃ out, @copy_trace_and_build_matrix two_texts fips180 F64.exact_display two_roots
        ["first", "second"] = .ok out ∧
      ¬ @Kept two_texts [hlr_root "HLR-1", hlr_root "HLR-2"] out := by
  obtain ⟨out, hout⟩ := @exists_copied two_texts fips180 F64.exact_display _ empty_trace
    readable_and_valid
  have hread : ∀ dir ∈ [hlr_root "HLR-1", hlr_root "HLR-2"],
      (@read_all_trace_files two_texts dir).isSome = true := by
    intro dir hdir
    obtain ⟨files, -, hfiles, -⟩ := readable_and_valid dir hdir
    rw [hfiles]
    rfl
  refine ⟨out, (@copy_eq_foldlM two_texts fips180 F64.exact_display two_roots
    ["first", "second"] [hlr_root "HLR-1", hlr_root "HLR-2"] rfl).trans hout, ?_⟩
  rw [@kept_iff two_texts fips180 F64.exact_display _ out hread hout]
  intro hlast
  have hlost := @LastHoldsAll.copied two_texts _ hlast (hlr_root "HLR-1") List.mem_cons_self .Hlr
    List.mem_cons_self
  revert hlost
  decide +kernel

end Evidence.Cli
