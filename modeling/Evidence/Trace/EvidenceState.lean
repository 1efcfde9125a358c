/-
`trace/evidence_state.rs` -- the state of the trace evidence behind a claim.

The roots of a trace are read one after another, into one list for each kind of entry. A root
that does not exist is noted and passed over; the first that cannot be read ends the
evaluation, with what was noted and counted so far. What is left is empty, or is
validated as one trace.

The documentation calls the order of the roots non-semantic. Where every root that exists
can be read, the count and the missing roots are those of the list as a whole, and a
trace is accepted in every order of its entries (`validate_perm`). Where one cannot,
the count and the missing roots are those of the roots before it; and when every root
is missing, the state itself lists them in order (`root_order_iff`).
-/
import Mathlib.Algebra.Ring.Nat
import Evidence.Cli.CopyTrace
import Evidence.Trace.EntryOrder

set_option autoImplicit false

namespace Evidence.Trace

open Corpus
open Cli (TraceName TraceToml TraceDir)

/-! ## Reading a root -/

inductive DiskFile where
  | Absent
  /-- It is there, and reading it as text fails. -/
  | Unreadable
  | Content (bytes : List UInt8)

/-- The failures of reading, without the sources of the file-system and parser errors. -/
inductive TraceReadError where
  | Read (path : String)
  | Parse (path : String)
deriving DecidableEq

abbrev DiskRoot := TraceName → DiskFile

/-- `Path::join` of a root with the name of a file. -/
def trace_path (root : String) (name : TraceName) : String :=
  if root.isEmpty || root.toList.getLast? == some '/' then root ++ name.file_name
  else root ++ "/" ++ name.file_name

def read_or_default {α : Type} (parse : List UInt8 → Option α) (default : α) (path : String)
    (file : DiskFile) : Except TraceReadError α :=
  match file with
  | .Absent => .ok default
  | .Unreadable => .error (.Read path)
  | .Content bytes =>
    match parse bytes with
    | none => .error (.Parse path)
    | some value => .ok value

section Read

variable [TraceToml]

def read_all_trace_files (root : String) (files : DiskRoot) : Except TraceReadError TraceFiles := do
  let sys ← read_or_default TraceToml.hlr_file Cli.empty_hlr_file (trace_path root .Sys)
    (files .Sys)
  let hlr ← read_or_default TraceToml.hlr_file Cli.empty_hlr_file (trace_path root .Hlr)
    (files .Hlr)
  let llr ← read_or_default TraceToml.llr_file Cli.empty_llr_file (trace_path root .Llr)
    (files .Llr)
  let tests ← read_or_default TraceToml.tests_file Cli.empty_tests_file (trace_path root .Tests)
    (files .Tests)
  let derived ← read_or_default (fun bytes => (TraceToml.derived_file bytes).map some) none
    (trace_path root .Derived) (files .Derived)
  .ok { sys := sys, hlr := hlr, llr := llr, tests := tests, derived := derived }

/-- A file that can be read as text, if it is there. -/
def DiskFile.of : Option (List UInt8) → DiskFile
  | none => .Absent
  | some bytes => .Content bytes

omit [TraceToml] in
theorem read_or_default_of {α : Type} (parse : List UInt8 → Option α) (default : α) (path : String)
    (file : Option (List UInt8)) :
    (read_or_default parse default path (.of file)).toOption =
      Cli.read_or_default parse default file := by
  cases file with
  | none => rfl
  | some bytes =>
    rw [DiskFile.of, read_or_default, Cli.read_or_default]
    cases parse bytes <;> rfl

/-- Where every file can be read as text, the files are those that `generate` copies. -/
theorem read_all_trace_files_of (root : String) (dir : TraceDir) :
    (read_all_trace_files root fun name => .of (dir name)).toOption =
      Cli.read_all_trace_files dir := by
  have hbind : ∀ {α β : Type} (x : Except TraceReadError α) (f : α → Except TraceReadError β),
      (x >>= f).toOption = x.toOption.bind fun a => (f a).toOption := by
    intro α β x f
    cases x <;> rfl
  simp only [read_all_trace_files, hbind, read_or_default_of]
  rfl

end Read

/-! ## The evaluation -/

/-- The semantic state of the trace evidence behind a claim. -/
inductive TraceEvidenceState where
  | NotConfigured
  | NotAdopted (missing_roots : List String)
  | Empty
  | Invalid
  | Valid
deriving DecidableEq

structure TraceEvidenceEval where
  state : TraceEvidenceState
  roots : List String
  missing_roots : List String
  requirement_count : ℕ
  validation : Option TraceValidationError
  read_error : Option TraceReadError

/-- What the loop over the roots has gathered. -/
structure Gathered where
  missing_roots : List String
  requirement_count : ℕ
  sys : List HlrEntry
  hlr : List HlrEntry
  llr : List LlrEntry
  tests : List TestEntry
  derived : List DerivedEntry

def derived_requirements (files : TraceFiles) : List DerivedEntry :=
  match files.derived with
  | some derived => derived.requirements
  | none => []

/-- The requirements of a root. -/
def count_requirements (files : TraceFiles) : ℕ :=
  files.sys.requirements.length + files.hlr.requirements.length +
    files.llr.requirements.length + files.tests.tests.length + (derived_requirements files).length

namespace Gathered

def new : Gathered := ⟨[], 0, [], [], [], [], []⟩

def miss (g : Gathered) (root : String) : Gathered :=
  { g with missing_roots := g.missing_roots ++ [root] }

def extend (g : Gathered) (files : TraceFiles) : Gathered where
  missing_roots := g.missing_roots
  requirement_count := g.requirement_count + count_requirements files
  sys := g.sys ++ files.sys.requirements
  hlr := g.hlr ++ files.hlr.requirements
  llr := g.llr ++ files.llr.requirements
  tests := g.tests ++ files.tests.tests
  derived := g.derived ++ derived_requirements files

end Gathered

section Evaluate

variable [TraceToml]

/-- The loop over the roots; the first error ends it. -/
def gather (disk : String → Option DiskRoot) :
    List String → Gathered → Gathered × Option TraceReadError
  | [], g => (g, none)
  | root :: roots, g =>
    match disk root with
    | none => gather disk roots (g.miss root)
    | some dir =>
      match read_all_trace_files root dir with
      | .error error => (g, some error)
      | .ok files => gather disk roots (g.extend files)

def evaluate_trace_evidence [UuidFormat] (disk : String → Option DiskRoot) (roots : List String)
    (policy : TracePolicy) : TraceEvidenceEval :=
  match roots with
  | [] => ⟨.NotConfigured, roots, [], 0, none, none⟩
  | _ =>
    match gather disk roots .new with
    | (g, some error) => ⟨.Invalid, roots, g.missing_roots, g.requirement_count, none, some error⟩
    | (g, none) =>
      if g.requirement_count = 0 then
        let state := if g.missing_roots.length = roots.length then
          TraceEvidenceState.NotAdopted g.missing_roots else .Empty
        ⟨state, roots, g.missing_roots, 0, none, none⟩
      else
        match validate_trace_links_with_policy policy g.sys g.hlr g.llr g.tests g.derived with
        | .ok () => ⟨.Valid, roots, g.missing_roots, g.requirement_count, none, none⟩
        | .error error =>
          ⟨.Invalid, roots, g.missing_roots, g.requirement_count, some error, none⟩

/-! ## What the loop gathers -/

/-- A root that exists and cannot be read. -/
def Fails (disk : String → Option DiskRoot) (root : String) : Prop :=
  ∃ dir error, disk root = some dir ∧ read_all_trace_files root dir = .error error

/-- The files of a root that exists and can be read. -/
def files_of (disk : String → Option DiskRoot) (root : String) : Option TraceFiles :=
  (disk root).bind fun dir => (read_all_trace_files root dir).toOption

def files_under (disk : String → Option DiskRoot) (roots : List String) : List TraceFiles :=
  roots.filterMap (files_of disk)

/-- What roots give together. -/
def Gathered.of (disk : String → Option DiskRoot) (roots : List String) : Gathered where
  missing_roots := roots.filter fun root => (disk root).isNone
  requirement_count := ((files_under disk roots).map count_requirements).sum
  sys := (files_under disk roots).flatMap (·.sys.requirements)
  hlr := (files_under disk roots).flatMap (·.hlr.requirements)
  llr := (files_under disk roots).flatMap (·.llr.requirements)
  tests := (files_under disk roots).flatMap (·.tests.tests)
  derived := (files_under disk roots).flatMap derived_requirements

theorem gather_append (disk : String → Option DiskRoot) (before after : List String)
    (g : Gathered) :
    gather disk (before ++ after) g =
      match gather disk before g with
      | (g', none) => gather disk after g'
      | (g', some error) => (g', some error) := by
  induction before generalizing g with
  | nil => rfl
  | cons root before ih =>
    rw [List.cons_append, gather, gather]
    cases hroot : disk root with
    | none => exact ih _
    | some dir =>
      cases hread : read_all_trace_files root dir with
      | error error => simp only [hread]
      | ok files =>
        simp only [hread]
        exact ih _

/-- **The loop over roots that can be read.** -/
theorem gather_clean {disk : String → Option DiskRoot} {roots : List String}
    (hclean : ∀ root ∈ roots, ¬ Fails disk root) :
    gather disk roots .new = (.of disk roots, none) := by
  induction roots using List.reverseRecOn with
  | nil => rfl
  | append_singleton roots root ih =>
    have hroot := hclean root (List.mem_append_right _ (List.mem_singleton_self root))
    rw [gather_append, ih fun other hother => hclean other (List.mem_append_left _ hother)]
    simp only [gather]
    cases hdisk : disk root with
    | none =>
      have hfiles : files_of disk root = none := by rw [files_of, hdisk, Option.bind_none]
      simp [Gathered.of, Gathered.miss, files_under, hdisk, hfiles]
    | some dir =>
      cases hread : read_all_trace_files root dir with
      | error error => exact absurd ⟨dir, error, hdisk, hread⟩ hroot
      | ok files =>
        have hfiles : files_of disk root = some files := by
          rw [files_of, hdisk, Option.bind_some, hread]
          rfl
        simp [Gathered.of, Gathered.extend, files_under, hdisk, hfiles, hread]

/-- **The first root that cannot be read ends the loop.** -/
theorem gather_fails {disk : String → Option DiskRoot} {before after : List String}
    {root : String} (hclean : ∀ other ∈ before, ¬ Fails disk other) (hfails : Fails disk root) :
    ∃ error, gather disk (before ++ root :: after) .new = (.of disk before, some error) := by
  obtain ⟨dir, error, hdisk, hread⟩ := hfails
  refine ⟨error, ?_⟩
  rw [gather_append, gather_clean hclean]
  simp only [gather, hdisk, hread]

/-! ## What the order does not matter for -/

section Order

variable {disk : String → Option DiskRoot}

theorem files_under_perm {roots roots' : List String} (h : roots.Perm roots') :
    (files_under disk roots).Perm (files_under disk roots') := h.filterMap _

theorem of_missing_perm {roots roots' : List String} (h : roots.Perm roots') :
    (Gathered.of disk roots).missing_roots.Perm (Gathered.of disk roots').missing_roots :=
  h.filter _

theorem of_count_perm {roots roots' : List String} (h : roots.Perm roots') :
    (Gathered.of disk roots).requirement_count = (Gathered.of disk roots').requirement_count :=
  ((files_under_perm h).map _).sum_nat

theorem count_le_of_mem {roots : List String} {root : String} (hroot : root ∈ roots)
    {files : TraceFiles} (hfiles : files_of disk root = some files) :
    count_requirements files ≤ (Gathered.of disk roots).requirement_count :=
  List.le_sum_of_mem (List.mem_map_of_mem (List.mem_filterMap.mpr ⟨root, hroot, hfiles⟩))

theorem mem_of_missing {roots : List String} {root : String} :
    root ∈ (Gathered.of disk roots).missing_roots ↔ root ∈ roots ∧ disk root = none := by
  rw [Gathered.of, List.mem_filter, Option.isNone_iff_eq_none]

theorem of_missing_length {roots : List String} :
    (Gathered.of disk roots).missing_roots.length = roots.length ↔
      ∀ root ∈ roots, disk root = none := by
  rw [Gathered.of, List.length_filter_eq_length_iff]
  simp only [Option.isNone_iff_eq_none]

variable [UuidFormat] {policy : TracePolicy}

def validated_state : Except TraceValidationError Unit → TraceEvidenceState
  | .ok () => .Valid
  | .error _ => .Invalid

omit [TraceToml] [UuidFormat] in
theorem validated_state_congr {result result' : Except TraceValidationError Unit}
    (h : result = .ok () ↔ result' = .ok ()) :
    validated_state result = validated_state result' := by
  cases result with
  | ok _ => rw [h.mp rfl]
  | error error =>
    cases result' with
    | ok _ => cases h.mpr rfl
    | error error' => rfl

/-- The state of roots that can be read. -/
def clean_state (disk : String → Option DiskRoot) (policy : TracePolicy) (roots : List String) :
    TraceEvidenceState :=
  let g := Gathered.of disk roots
  if roots = [] then .NotConfigured
  else if g.requirement_count = 0 then
    if g.missing_roots.length = roots.length then .NotAdopted g.missing_roots else .Empty
  else validated_state
    (validate_trace_links_with_policy policy g.sys g.hlr g.llr g.tests g.derived)

/-- **The evaluation of roots that can be read.** -/
theorem evaluate_clean {roots : List String} (hclean : ∀ root ∈ roots, ¬ Fails disk root) :
    (evaluate_trace_evidence disk roots policy).state = clean_state disk policy roots ∧
      (evaluate_trace_evidence disk roots policy).requirement_count =
        (Gathered.of disk roots).requirement_count ∧
      (evaluate_trace_evidence disk roots policy).missing_roots =
        (Gathered.of disk roots).missing_roots := by
  unfold evaluate_trace_evidence clean_state
  cases roots with
  | nil => exact ⟨rfl, rfl, rfl⟩
  | cons root roots =>
    simp only [gather_clean hclean, reduceCtorEq, if_false]
    split_ifs with hzero
    · exact ⟨rfl, hzero.symm, rfl⟩
    · exact ⟨rfl, hzero.symm, rfl⟩
    · split
      · next hvalid => exact ⟨by rw [hvalid, validated_state], rfl, rfl⟩
      · next error hvalid => exact ⟨by rw [hvalid, validated_state], rfl, rfl⟩

/-- **The evaluation up to a root that cannot be read.** -/
theorem evaluate_fails {before after : List String} {root : String}
    (hclean : ∀ other ∈ before, ¬ Fails disk other) (hfails : Fails disk root) :
    (evaluate_trace_evidence disk (before ++ root :: after) policy).state = .Invalid ∧
      (evaluate_trace_evidence disk (before ++ root :: after) policy).requirement_count =
        (Gathered.of disk before).requirement_count ∧
      (evaluate_trace_evidence disk (before ++ root :: after) policy).missing_roots =
        (Gathered.of disk before).missing_roots := by
  obtain ⟨error, hgather⟩ := @gather_fails _ _ before after root hclean hfails
  unfold evaluate_trace_evidence
  split
  · next hnil => simp at hnil
  · rw [hgather]
    exact ⟨rfl, rfl, rfl⟩

/-- Reordered, roots that can be read have the same state, but for the order that the missing
ones are listed in. -/
theorem clean_state_perm {roots roots' : List String} (h : roots.Perm roots')
    (hlisted : (∀ root ∈ roots, disk root = none) → roots = roots') :
    clean_state disk policy roots = clean_state disk policy roots' := by
  by_cases hmissing : ∀ root ∈ roots, disk root = none
  · rw [hlisted hmissing]
  · have hmissing' : ¬ ∀ root ∈ roots', disk root = none := by
      simpa only [h.mem_iff] using hmissing
    have hnil : roots = [] ↔ roots' = [] := by
      rw [← List.length_eq_zero_iff, ← List.length_eq_zero_iff, h.length_eq]
    have hfiles : (files_under disk roots).Perm (files_under disk roots') := files_under_perm h
    have hvalid := @validate_perm _ policy _ _ _ _ _ _ _ _ _ _
      (hfiles.flatMap_right (·.sys.requirements)) (hfiles.flatMap_right (·.hlr.requirements))
      (hfiles.flatMap_right (·.llr.requirements)) (hfiles.flatMap_right (·.tests.tests))
      (hfiles.flatMap_right derived_requirements)
    unfold clean_state
    simp only [hnil, of_count_perm h, of_missing_length, hmissing, hmissing', if_false]
    split_ifs
    · rfl
    · rfl
    · exact validated_state_congr hvalid

end Order

/-! ## What the order matters for -/

/-- A root that exists, can be read, and holds no entry. -/
def HoldsNothing (disk : String → Option DiskRoot) (root : String) : Prop :=
  ∃ files, files_of disk root = some files ∧ count_requirements files = 0

structure SameVerdict (a b : TraceEvidenceEval) : Prop where
  state : a.state = b.state
  requirement_count : a.requirement_count = b.requirement_count
  missing_roots : ∀ root, root ∈ a.missing_roots ↔ root ∈ b.missing_roots

theorem root_cases (disk : String → Option DiskRoot) (root : String) :
    disk root = none ∨ Fails disk root ∨ ∃ files, files_of disk root = some files := by
  cases hdisk : disk root with
  | none => exact .inl rfl
  | some dir =>
    right
    cases hread : read_all_trace_files root dir with
    | error error => exact .inl ⟨dir, error, hdisk, hread⟩
    | ok files =>
      refine .inr ⟨files, ?_⟩
      rw [files_of, hdisk, Option.bind_some, hread]
      rfl

theorem not_fails_of_files {disk : String → Option DiskRoot} {root : String} {files : TraceFiles}
    (hfiles : files_of disk root = some files) : ¬ Fails disk root ∧ disk root ≠ none := by
  rw [files_of] at hfiles
  obtain ⟨dir, hdir, hread⟩ := Option.bind_eq_some_iff.mp hfiles
  constructor
  · rintro ⟨dir', error, hdir', herror⟩
    rw [hdir, Option.some.injEq] at hdir'
    subst hdir'
    rw [herror] at hread
    cases hread
  · rw [hdir]
    exact Option.some_ne_none dir

theorem not_fails_of_missing {disk : String → Option DiskRoot} {root : String}
    (h : disk root = none) : ¬ Fails disk root := by
  rintro ⟨dir, error, hdir, -⟩
  rw [h] at hdir
  cases hdir

theorem split_at_fails {disk : String → Option DiskRoot} {roots : List String}
    (h : ∃ root ∈ roots, Fails disk root) :
    ∃ before root after, roots = before ++ root :: after ∧ Fails disk root ∧
      ∀ other ∈ before, ¬ Fails disk other := by
  induction roots with
  | nil =>
    obtain ⟨root, hroot, -⟩ := h
    cases hroot
  | cons root roots ih =>
    by_cases hroot : Fails disk root
    · exact ⟨[], root, roots, rfl, hroot, fun other hother => absurd hother List.not_mem_nil⟩
    · obtain ⟨found, hfound, hfails⟩ := h
      rcases List.mem_cons.mp hfound with rfl | hfound
      · exact absurd hfails hroot
      · obtain ⟨before, first, after, rfl, hfirst, hclean⟩ := ih ⟨found, hfound, hfails⟩
        refine ⟨root :: before, first, after, rfl, hfirst, ?_⟩
        intro other hother
        rcases List.mem_cons.mp hother with rfl | hother
        · exact hroot
        · exact hclean other hother

omit [TraceToml] in
/-- A member can be put in front. -/
theorem perm_front {roots : List String} {root : String} (h : root ∈ roots) :
    (root :: roots.erase root).Perm roots := (List.perm_cons_erase h).symm

section Verdict

variable [UuidFormat] {disk : String → Option DiskRoot} {policy : TracePolicy}
  {roots : List String}

theorem others_of_order (hall : ∀ roots', roots'.Perm roots →
      SameVerdict (evaluate_trace_evidence disk roots' policy)
        (evaluate_trace_evidence disk roots policy))
    (hfails : ∃ root ∈ roots, Fails disk root) {other : String} (hother : other ∈ roots) :
    Fails disk other ∨ HoldsNothing disk other := by
  obtain ⟨root, hroot, hfail⟩ := hfails
  by_cases hclean : Fails disk other
  · exact .inl hclean
  -- One order has the root that fails in front, another has the other root there.
  obtain ⟨-, hnone, hnothing⟩ := @evaluate_fails _ disk _ policy [] (roots.erase root) root
    (fun other hother => absurd hother List.not_mem_nil) hfail
  have hfirst := hall _ (perm_front hroot)
  have hsecond := hall _ (perm_front hother)
  obtain ⟨before, first, after, hsplit, hfirstfails, hbefore⟩ :=
    @split_at_fails _ disk (other :: roots.erase other)
      ⟨root, (perm_front hother).mem_iff.mpr hroot, hfail⟩
  obtain ⟨-, hcount, hmissing⟩ := @evaluate_fails _ disk _ policy before after first hbefore
    hfirstfails
  rw [← hsplit] at hcount hmissing
  have hmem : other ∈ before := by
    cases before with
    | nil =>
      rw [List.nil_append] at hsplit
      rw [(List.cons.inj hsplit).1] at hclean
      exact absurd hfirstfails hclean
    | cons head before =>
      rw [List.cons_append] at hsplit
      rw [(List.cons.inj hsplit).1]
      exact List.mem_cons_self
  rcases root_cases disk other with hnone' | hfails | ⟨files, hfiles⟩
  · -- A missing root is noted in the one order and not in the other.
    have hin : other ∈ (evaluate_trace_evidence disk (other :: roots.erase other)
        policy).missing_roots := by
      rw [hmissing]
      exact mem_of_missing.mpr ⟨hmem, hnone'⟩
    rw [hsecond.missing_roots, ← hfirst.missing_roots] at hin
    rw [List.nil_append] at hnothing
    rw [hnothing] at hin
    exact absurd hin List.not_mem_nil
  · exact absurd hfails hclean
  · -- Entries are counted in the one order and not in the other.
    refine .inr ⟨files, hfiles, ?_⟩
    have hle := count_le_of_mem hmem hfiles
    rw [← hcount, hsecond.requirement_count, ← hfirst.requirement_count] at hle
    rw [List.nil_append] at hnone
    rw [hnone] at hle
    exact Nat.le_zero.mp hle

theorem state_of_missing (hnil : roots ≠ []) (hmissing : ∀ root ∈ roots, disk root = none) :
    (evaluate_trace_evidence disk roots policy).state = .NotAdopted roots := by
  have hclean : ∀ root ∈ roots, ¬ Fails disk root :=
    fun root hroot => not_fails_of_missing (hmissing root hroot)
  have hnone : files_under disk roots = [] := by
    refine List.filterMap_eq_nil_iff.mpr fun root hroot => ?_
    rw [files_of, hmissing root hroot, Option.bind_none]
  have hlisted : (Gathered.of disk roots).missing_roots = roots :=
    List.filter_eq_self.mpr fun root hroot => by rw [hmissing root hroot, Option.isNone_none]
  have hcount : (Gathered.of disk roots).requirement_count = 0 := by
    rw [Gathered.of, hnone, List.map_nil, List.sum_nil]
  rw [(evaluate_clean hclean).1, clean_state]
  simp only [hnil, if_false, hcount, if_true, hlisted]

theorem evaluate_held (hfails : ∃ root ∈ roots, Fails disk root)
    (hothers : ∀ root ∈ roots, Fails disk root ∨ HoldsNothing disk root) :
    (evaluate_trace_evidence disk roots policy).state = .Invalid ∧
      (evaluate_trace_evidence disk roots policy).requirement_count = 0 ∧
      (evaluate_trace_evidence disk roots policy).missing_roots = [] := by
  obtain ⟨before, root, after, rfl, hroot, hclean⟩ := split_at_fails hfails
  obtain ⟨hstate, hcount, hmissing⟩ :=
    @evaluate_fails _ disk _ policy before after root hclean hroot
  have hholds : ∀ other ∈ before, HoldsNothing disk other := fun other hother =>
    (hothers other (List.mem_append_left _ hother)).resolve_left (hclean other hother)
  refine ⟨hstate, ?_, ?_⟩
  · rw [hcount, Gathered.of, List.sum_eq_zero_iff]
    intro count hmem
    obtain ⟨files, hfiles, rfl⟩ := List.mem_map.mp hmem
    obtain ⟨other, hother, hof⟩ := List.mem_filterMap.mp hfiles
    obtain ⟨files', hfiles', hzero⟩ := hholds other hother
    rw [hof, Option.some.injEq] at hfiles'
    rw [hfiles', hzero]
  · rw [hmissing, List.eq_nil_iff_forall_not_mem]
    intro other hmem
    obtain ⟨hother, hnone⟩ := mem_of_missing.mp hmem
    obtain ⟨files, hfiles, -⟩ := hholds other hother
    exact (not_fails_of_files hfiles).2 hnone

/-- **Where the order of the roots does not matter**: with a root that cannot be read, all others
hold nothing and are there; and where every root is missing, they are one root. -/
theorem root_order_iff :
    (∀ roots', roots'.Perm roots → SameVerdict (evaluate_trace_evidence disk roots' policy)
        (evaluate_trace_evidence disk roots policy)) ↔
      ((∃ root ∈ roots, Fails disk root) →
          ∀ root ∈ roots, Fails disk root ∨ HoldsNothing disk root) ∧
        ((∀ root ∈ roots, disk root = none) → ∀ root ∈ roots, ∀ other ∈ roots, root = other) := by
  constructor
  · intro hall
    refine ⟨fun hfails other hother => others_of_order hall hfails hother, ?_⟩
    intro hmissing root hroot other hother
    have hstate : ∀ {first : String}, first ∈ roots →
        (evaluate_trace_evidence disk roots policy).state =
          .NotAdopted (first :: roots.erase first) := by
      intro first hfirst
      rw [← (hall _ (perm_front hfirst)).state]
      refine state_of_missing (List.cons_ne_nil _ _) fun other hother => ?_
      exact hmissing other ((perm_front hfirst).mem_iff.mp hother)
    have hsame := (hstate hroot).symm.trans (hstate hother)
    rw [TraceEvidenceState.NotAdopted.injEq] at hsame
    exact (List.cons.inj hsame).1
  · rintro ⟨hothers, hlisted⟩ roots' hperm
    by_cases hfails : ∃ root ∈ roots, Fails disk root
    · have hfails' : ∃ root ∈ roots', Fails disk root := by simpa only [hperm.mem_iff] using hfails
      obtain ⟨hstate, hcount, hmissing⟩ := @evaluate_held _ _ _ policy _ hfails (hothers hfails)
      obtain ⟨hstate', hcount', hmissing'⟩ := @evaluate_held _ _ _ policy _ hfails'
        fun root hroot => hothers hfails root (hperm.mem_iff.mp hroot)
      refine ⟨hstate'.trans hstate.symm, hcount'.trans hcount.symm, fun root => ?_⟩
      rw [hmissing, hmissing']
    · have hclean : ∀ root ∈ roots, ¬ Fails disk root :=
        fun root hroot hfail => hfails ⟨root, hroot, hfail⟩
      obtain ⟨hstate, hcount, hmissing⟩ := @evaluate_clean _ _ _ policy _ hclean
      obtain ⟨hstate', hcount', hmissing'⟩ := @evaluate_clean _ _ _ policy _
        fun root hroot => hclean root (hperm.mem_iff.mp hroot)
      refine ⟨?_, ?_, fun root => ?_⟩
      · rw [hstate, hstate']
        refine (clean_state_perm hperm.symm fun hnone => ?_).symm
        -- Roots that are all one root have one order.
        cases roots with
        | nil => exact (List.perm_nil.mp hperm).symm
        | cons root roots =>
          have hall : ∀ {l : List String}, l.Perm (root :: roots) →
              l = List.replicate l.length root := by
            intro l hl
            refine List.eq_replicate_iff.mpr ⟨rfl, fun other hother => ?_⟩
            exact hlisted hnone other (hl.mem_iff.mp hother) root List.mem_cons_self
          rw [hall (List.Perm.refl _), hall hperm, hperm.length_eq]
      · rw [hcount, hcount', of_count_perm hperm]
      · rw [hmissing, hmissing', (of_missing_perm hperm).mem_iff]

end Verdict

end Evaluate

/-! ## A missing root and a broken one -/

section Instances

/-- A parser that is not called. -/
@[reducible] def no_texts : TraceToml :=
  ⟨fun _ => none, fun _ => none, fun _ => none, fun _ => none⟩

/-- A format that is not asked for. -/
@[reducible] def no_uuids : UuidFormat := ⟨fun _ => false⟩

attribute [local instance] no_texts no_uuids

/-- A root whose `sys.toml` cannot be read, and nothing else. -/
def broken_disk : String → Option DiskRoot := fun root =>
  if root = "broken" then
    some fun name => if name = .Sys then .Unreadable else .Absent
  else none

/-- **The order of the roots is semantic.** -/
theorem root_order_matters :
    ¬ ∀ (disk : String → Option DiskRoot) (policy : TracePolicy) (roots roots' : List String),
      roots'.Perm roots → SameVerdict (evaluate_trace_evidence disk roots' policy)
        (evaluate_trace_evidence disk roots policy) := by
  intro hall
  have h := hall broken_disk .default ["broken", "gone"] ["gone", "broken"]
    (List.Perm.swap "broken" "gone" [])
  exact absurd ((h.missing_roots "gone").mp (by decide +kernel)) (by decide +kernel)

end Instances

end Evidence.Trace
