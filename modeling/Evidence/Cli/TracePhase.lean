/-
`generate/phases/trace_validation.rs` -- the trace phase of `generate`, root by root.

The phase asks for the state of each root alone and records the worst of them, where
`evaluate_trace_evidence` reads all roots into one trace. The two agree where no root can be told
from the rest: there is none, one cannot be read, or none holds an entry. Elsewhere the whole
list is Valid or Invalid, as the joined trace is accepted or not, and what is recorded is Valid
when every root is, and Invalid when one root is (`trace_phase_agrees_iff`).

So a missing or an empty root beside a valid trace counts against the bundle, a link into another
root breaks the root it starts from, and an identity that two roots share goes unnoticed.
-/
import Evidence.Cli.Verify
import Evidence.Trace.EvidenceState
import Evidence.Trace.UniqueEntries

set_option autoImplicit false

namespace Evidence.Cli

open Trace

/-! ## The phase -/

def missing_roots_of : TraceEvidenceState → Option (List String)
  | .NotAdopted missing_roots => some missing_roots
  | _ => none

/-- The worst of the states of the roots. -/
def aggregate_states (states : List TraceEvidenceState) : TraceEvidenceState :=
  if states.isEmpty then .NotConfigured
  else if .Invalid ∈ states then .Invalid
  else if .Empty ∈ states then .Empty
  else
    let missing := (states.filterMap missing_roots_of).flatten
    if ¬ missing.isEmpty then .NotAdopted missing
    else if .NotConfigured ∈ states then .NotConfigured
    else .Valid

/-- Outcome of the phase. -/
structure TraceValidationResult where
  passed : Bool
  short_circuit : Option ℤ
  state : TraceEvidenceState

section Phase

variable [TraceToml] [UuidFormat] (disk : String → Option DiskRoot) (policy : TracePolicy)
  (strict : Bool)

/-- The loop over the roots, without what it prints. -/
def validate_trace_roots : List String → Bool → List TraceEvidenceState →
    Except TraceReadError TraceValidationResult
  | [], passed, states => .ok ⟨passed, none, aggregate_states states⟩
  | root :: roots, passed, states =>
    let eval := evaluate_trace_evidence disk [root] policy
    let states := states ++ [eval.state]
    let stopped : TraceValidationResult := ⟨false, some EXIT_ERROR, aggregate_states states⟩
    match eval.state with
    | .Valid => validate_trace_roots roots passed states
    | .Invalid =>
      match eval.validation, eval.read_error with
      | some _, _ => if strict then .ok stopped else validate_trace_roots roots false states
      | none, some read_error =>
        if strict then .error read_error else validate_trace_roots roots false states
      | none, none => validate_trace_roots roots passed states
    | _ => if strict then .ok stopped else validate_trace_roots roots false states

def validate_trace_links_phase (trace_roots : List String) :
    Except TraceReadError TraceValidationResult :=
  validate_trace_roots disk policy strict trace_roots true []

end Phase

/-! ## One root -/

section Roots

variable [TraceToml] [UuidFormat] {disk : String → Option DiskRoot} {policy : TracePolicy}

variable (disk policy) in
def root_state (root : String) : TraceEvidenceState :=
  (evaluate_trace_evidence disk [root] policy).state

theorem error_of_invalid {roots : List String}
    (h : (evaluate_trace_evidence disk roots policy).state = .Invalid) :
    (evaluate_trace_evidence disk roots policy).validation ≠ none ∨
      (evaluate_trace_evidence disk roots policy).read_error ≠ none := by
  unfold evaluate_trace_evidence at h ⊢
  split at h
  · cases h
  · split at h
    · exact .inr (Option.some_ne_none _)
    · simp only at h
      split_ifs at h
      split at h
      · cases h
      · next hzero _ error herror =>
        left
        simp only [hzero, if_false]
        exact Option.some_ne_none error

theorem root_state_of_fails {root : String} (h : Fails disk root) :
    root_state disk policy root = .Invalid :=
  (@evaluate_fails _ disk _ policy [] [] root
    (fun _ hother => absurd hother List.not_mem_nil) h).1

theorem root_state_of_missing {root : String} (h : disk root = none) :
    root_state disk policy root = .NotAdopted [root] :=
  state_of_missing (List.cons_ne_nil root []) fun _ hother => by
    rw [List.mem_singleton.mp hother, h]

omit [UuidFormat] in
theorem files_under_single {root : String} {files : TraceFiles}
    (h : files_of disk root = some files) : files_under disk [root] = [files] := by
  rw [files_under, List.filterMap_cons, h, List.filterMap_nil]

theorem root_state_of_files {root : String} {files : TraceFiles}
    (h : files_of disk root = some files) :
    if count_requirements files = 0 then root_state disk policy root = .Empty
    else root_state disk policy root = .Valid ∨ root_state disk policy root = .Invalid := by
  obtain ⟨hreads, hthere⟩ := not_fails_of_files h
  have hclean : ∀ other ∈ [root], ¬ Fails disk other := fun other hother => by
    rwa [List.mem_singleton.mp hother]
  have hcount : (Gathered.of disk [root]).requirement_count = count_requirements files := by
    rw [Gathered.of, files_under_single h, List.map_singleton, List.sum_singleton]
  have hmissing : ¬ (Gathered.of disk [root]).missing_roots.length = [root].length := by
    rw [of_missing_length]
    intro hall
    exact hthere (hall root (List.mem_singleton_self root))
  rw [root_state, (evaluate_clean hclean).1, clean_state]
  simp only [List.cons_ne_self, if_false, hcount, hmissing]
  split_ifs
  · rfl
  · cases validate_trace_links_with_policy policy (Gathered.of disk [root]).sys
      (Gathered.of disk [root]).hlr (Gathered.of disk [root]).llr (Gathered.of disk [root]).tests
      (Gathered.of disk [root]).derived with
    | ok _ => exact .inl rfl
    | error error => exact .inr rfl

/-! ## The run over the roots -/

/-- **One root** clears the flag unless it is valid, and is recorded with its state. -/
theorem validate_trace_roots_cons (root : String) (roots : List String) (passed : Bool)
    (states : List TraceEvidenceState) :
    validate_trace_roots disk policy false (root :: roots) passed states =
      validate_trace_roots disk policy false roots
        (passed && root_state disk policy root = .Valid)
        (states ++ [root_state disk policy root]) := by
  rw [validate_trace_roots, root_state]
  simp only [Bool.false_eq_true, if_false]
  split
  · next hvalid => simp only [hvalid, decide_true, Bool.and_true]
  · next hinvalid =>
    have herror := error_of_invalid hinvalid
    simp only [hinvalid, reduceCtorEq, decide_false, Bool.and_false]
    split
    · rfl
    · rfl
    · next hvalidation hread =>
      rw [hvalidation, hread] at herror
      exact absurd herror (by simp only [ne_eq, not_true, or_self, not_false_eq_true])
  · next hvalid hinvalid =>
    have hflag : decide ((evaluate_trace_evidence disk [root] policy).state = .Valid) = false :=
      decide_eq_false hvalid
    rw [hflag, Bool.and_false]

/-- The loop. -/
theorem validate_trace_roots_run (roots : List String) (passed : Bool)
    (states : List TraceEvidenceState) :
    validate_trace_roots disk policy false roots passed states =
      .ok ⟨passed && roots.all fun root => root_state disk policy root = .Valid, none,
        aggregate_states (states ++ roots.map (root_state disk policy))⟩ := by
  induction roots generalizing passed states with
  | nil =>
    rw [validate_trace_roots, List.all_nil, Bool.and_true, List.map_nil, List.append_nil]
  | cons root roots ih =>
    rw [validate_trace_roots_cons, ih, List.all_cons, List.map_cons, Bool.and_assoc,
      List.append_assoc, List.singleton_append]

/-! ## The recorded state -/

variable (disk policy) in
def recorded_state (roots : List String) : TraceEvidenceState :=
  aggregate_states (roots.map (root_state disk policy))

theorem mem_root_states {roots : List String} {state : TraceEvidenceState} :
    state ∈ roots.map (root_state disk policy) ↔
      ∃ root ∈ roots, root_state disk policy root = state := List.mem_map

theorem missing_roots_of_root (root : String) :
    missing_roots_of (root_state disk policy root) =
      if (disk root).isNone then some [root] else none := by
  rcases root_cases disk root with hnone | hfails | ⟨files, hfiles⟩
  · rw [root_state_of_missing hnone, hnone]
    rfl
  · obtain ⟨dir, -, hdir, -⟩ := id hfails
    rw [root_state_of_fails hfails, hdir]
    rfl
  · have hthere := (not_fails_of_files hfiles).2
    have hstate := @root_state_of_files _ _ disk policy root files hfiles
    rw [if_neg (by rwa [Option.isNone_iff_eq_none])]
    split_ifs at hstate
    · rw [hstate]
      rfl
    · rcases hstate with hvalid | hinvalid
      · rw [hvalid]
        rfl
      · rw [hinvalid]
        rfl

theorem missing_roots_of_states (roots : List String) :
    ((roots.map (root_state disk policy)).filterMap missing_roots_of).flatten =
      (Gathered.of disk roots).missing_roots := by
  rw [Gathered.of]
  induction roots with
  | nil => rfl
  | cons root roots ih =>
    rw [List.map_cons, List.filterMap_cons, missing_roots_of_root, List.filter_cons]
    by_cases hnone : (disk root).isNone = true
    · rw [if_pos hnone, if_pos hnone]
      rw [List.flatten_cons, ih]
      rfl
    · rw [if_neg hnone, if_neg hnone]
      exact ih

theorem root_state_ne_not_configured (root : String) :
    root_state disk policy root ≠ .NotConfigured := by
  intro hnot
  rcases root_cases disk root with hnone | hfails | ⟨files, hfiles⟩
  · rw [root_state_of_missing hnone] at hnot
    cases hnot
  · rw [root_state_of_fails hfails] at hnot
    cases hnot
  · have hstate := @root_state_of_files _ _ disk policy root files hfiles
    rw [hnot] at hstate
    split_ifs at hstate
    exact absurd hstate (by simp only [or_self, not_false_eq_true])

/-- **The recorded state**: the worst of the roots' own. -/
theorem recorded_state_eq (roots : List String) :
    recorded_state disk policy roots =
      if roots = [] then .NotConfigured
      else if .Invalid ∈ roots.map (root_state disk policy) then .Invalid
      else if .Empty ∈ roots.map (root_state disk policy) then .Empty
      else if (Gathered.of disk roots).missing_roots = [] then .Valid
      else .NotAdopted (Gathered.of disk roots).missing_roots := by
  have hnever : TraceEvidenceState.NotConfigured ∉ roots.map (root_state disk policy) := by
    rw [mem_root_states]
    rintro ⟨root, -, hstate⟩
    exact root_state_ne_not_configured root hstate
  unfold recorded_state aggregate_states
  simp only [missing_roots_of_states, hnever, if_false, List.isEmpty_iff, List.map_eq_nil_iff,
    ite_not]

theorem recorded_state_valid {roots : List String} :
    recorded_state disk policy roots = .Valid ↔
      roots ≠ [] ∧ ∀ root ∈ roots, root_state disk policy root = .Valid := by
  rw [recorded_state_eq]
  constructor
  · intro hvalid
    split_ifs at hvalid with hnil hinvalid hempty hmissing
    refine ⟨hnil, fun root hroot => ?_⟩
    rcases root_cases disk root with hnone | hfails | ⟨files, hfiles⟩
    · have hin := mem_of_missing.mpr ⟨hroot, hnone⟩
      rw [hmissing] at hin
      exact absurd hin List.not_mem_nil
    · exact absurd (mem_root_states.mpr ⟨root, hroot, root_state_of_fails hfails⟩) hinvalid
    · have hstate := @root_state_of_files _ _ disk policy root files hfiles
      split_ifs at hstate
      · exact absurd (mem_root_states.mpr ⟨root, hroot, hstate⟩) hempty
      · exact hstate.resolve_right fun h => hinvalid (mem_root_states.mpr ⟨root, hroot, h⟩)
  · rintro ⟨hnil, hall⟩
    have hother : ∀ state, state ≠ TraceEvidenceState.Valid →
        state ∉ roots.map (root_state disk policy) := by
      intro state hne hmem
      obtain ⟨root, hroot, rfl⟩ := mem_root_states.mp hmem
      exact hne (hall root hroot)
    have hmissing : (Gathered.of disk roots).missing_roots = [] := by
      rw [List.eq_nil_iff_forall_not_mem]
      intro root hroot
      obtain ⟨hin, hnone⟩ := mem_of_missing.mp hroot
      have hvalid := hall root hin
      rw [root_state_of_missing hnone] at hvalid
      cases hvalid
    rw [if_neg hnil, if_neg (hother _ TraceEvidenceState.noConfusion),
      if_neg (hother _ TraceEvidenceState.noConfusion), if_pos hmissing]

theorem recorded_state_invalid {roots : List String} :
    recorded_state disk policy roots = .Invalid ↔
      ∃ root ∈ roots, root_state disk policy root = .Invalid := by
  rw [recorded_state_eq, ← mem_root_states]
  constructor
  · intro hinvalid
    split_ifs at hinvalid with hnil hmem
    exact hmem
  · intro hmem
    have hnil : roots ≠ [] := by
      rintro rfl
      exact List.not_mem_nil hmem
    rw [if_neg hnil, if_pos hmem]

/-! ## The roots and the whole -/

variable (disk policy) in
/-- The trace that all roots make together is accepted. -/
def JointlyAccepted (roots : List String) : Prop :=
  validate_trace_links_with_policy policy (Gathered.of disk roots).sys
    (Gathered.of disk roots).hlr (Gathered.of disk roots).llr (Gathered.of disk roots).tests
    (Gathered.of disk roots).derived = .ok ()

/-- No root of a list holds an entry. -/
def NothingThere (disk : String → Option DiskRoot) (roots : List String) : Prop :=
  ∀ root ∈ roots, disk root = none ∨ HoldsNothing disk root

variable (disk policy) in
/-- **Where the roots give the state of the whole.** -/
def RootsTell (roots : List String) : Prop :=
  roots = [] ∨ (∃ root ∈ roots, Fails disk root) ∨ NothingThere disk roots ∨
    (JointlyAccepted disk policy roots ∧ ∀ root ∈ roots, root_state disk policy root = .Valid) ∨
    (¬ JointlyAccepted disk policy roots ∧ ∃ root ∈ roots, root_state disk policy root = .Invalid)

theorem evaluate_of_fails {roots : List String} (h : ∃ root ∈ roots, Fails disk root) :
    (evaluate_trace_evidence disk roots policy).state = .Invalid := by
  obtain ⟨before, root, after, rfl, hfails, hclean⟩ := split_at_fails h
  exact (evaluate_fails hclean hfails).1

omit [UuidFormat] in
/-- Roots that can be read hold no entry together when none does alone. -/
theorem requirement_count_eq_zero {roots : List String}
    (hclean : ∀ root ∈ roots, ¬ Fails disk root) :
    (Gathered.of disk roots).requirement_count = 0 ↔ NothingThere disk roots := by
  constructor
  · intro hzero root hroot
    rcases root_cases disk root with hnone | hfails | ⟨files, hfiles⟩
    · exact .inl hnone
    · exact absurd hfails (hclean root hroot)
    · have hle := count_le_of_mem hroot hfiles
      exact .inr ⟨files, hfiles, by omega⟩
  · intro hnothing
    rw [Gathered.of, List.sum_eq_zero_iff]
    intro count hcount
    obtain ⟨files, hfiles, rfl⟩ := List.mem_map.mp hcount
    obtain ⟨root, hroot, hof⟩ := List.mem_filterMap.mp hfiles
    rcases hnothing root hroot with hnone | ⟨files', hof', hzero⟩
    · exact absurd hnone (not_fails_of_files hof).2
    · rw [hof, Option.some.injEq] at hof'
      rw [hof', hzero]

theorem recorded_of_nothing {roots : List String} (hnil : roots ≠ [])
    (hclean : ∀ root ∈ roots, ¬ Fails disk root) (hnothing : NothingThere disk roots) :
    recorded_state disk policy roots = (evaluate_trace_evidence disk roots policy).state := by
  have hempty : ∀ {root}, HoldsNothing disk root → root_state disk policy root = .Empty := by
    rintro root ⟨files, hfiles, hzero⟩
    have hstate := @root_state_of_files _ _ disk policy root files hfiles
    rwa [if_pos hzero] at hstate
  have hinvalid : TraceEvidenceState.Invalid ∉ roots.map (root_state disk policy) := by
    rw [mem_root_states]
    rintro ⟨root, hroot, hstate⟩
    rcases hnothing root hroot with hnone | hholds
    · rw [root_state_of_missing hnone] at hstate
      cases hstate
    · rw [hempty hholds] at hstate
      cases hstate
  rw [recorded_state_eq, (evaluate_clean hclean).1, clean_state]
  simp only [hnil, hinvalid, if_false, (requirement_count_eq_zero hclean).mpr hnothing, if_true,
    of_missing_length]
  by_cases hall : ∀ root ∈ roots, disk root = none
  · have hlisted : (Gathered.of disk roots).missing_roots = roots :=
      List.filter_eq_self.mpr fun root hroot => by rw [hall root hroot, Option.isNone_none]
    have hfull : TraceEvidenceState.Empty ∉ roots.map (root_state disk policy) := by
      rw [mem_root_states]
      rintro ⟨root, hroot, hstate⟩
      rw [root_state_of_missing (hall root hroot)] at hstate
      cases hstate
    rw [if_neg hfull, if_pos hall, hlisted, if_neg hnil]
  · have hfound : TraceEvidenceState.Empty ∈ roots.map (root_state disk policy) := by
      push Not at hall
      obtain ⟨root, hroot, hthere⟩ := hall
      exact mem_root_states.mpr
        ⟨root, hroot, hempty ((hnothing root hroot).resolve_left hthere)⟩
    rw [if_pos hfound, if_neg hall]

theorem evaluate_of_entries {roots : List String} (hnil : roots ≠ [])
    (hclean : ∀ root ∈ roots, ¬ Fails disk root) (hsome : ¬ NothingThere disk roots) :
    (JointlyAccepted disk policy roots →
        (evaluate_trace_evidence disk roots policy).state = .Valid) ∧
      (¬ JointlyAccepted disk policy roots →
        (evaluate_trace_evidence disk roots policy).state = .Invalid) := by
  have hcount : ¬ (Gathered.of disk roots).requirement_count = 0 := by
    rwa [requirement_count_eq_zero hclean]
  rw [(evaluate_clean hclean).1, clean_state]
  simp only [hnil, hcount, if_false]
  constructor
  · intro hjoint
    rw [JointlyAccepted] at hjoint
    rw [hjoint, validated_state]
  · intro hjoint
    unfold JointlyAccepted at hjoint
    cases hresult : validate_trace_links_with_policy policy (Gathered.of disk roots).sys
      (Gathered.of disk roots).hlr (Gathered.of disk roots).llr (Gathered.of disk roots).tests
      (Gathered.of disk roots).derived with
    | ok _ => exact absurd hresult hjoint
    | error error => rw [validated_state]

/-- **Where the recorded state is that of the whole.** -/
theorem recorded_state_iff (roots : List String) :
    recorded_state disk policy roots = (evaluate_trace_evidence disk roots policy).state ↔
      RootsTell disk policy roots := by
  unfold RootsTell
  by_cases hnil : roots = []
  · subst hnil
    exact iff_of_true rfl (.inl rfl)
  by_cases hfails : ∃ root ∈ roots, Fails disk root
  · refine iff_of_true ?_ (.inr (.inl hfails))
    obtain ⟨root, hroot, hfail⟩ := id hfails
    rw [evaluate_of_fails hfails, recorded_state_invalid]
    exact ⟨root, hroot, root_state_of_fails hfail⟩
  have hclean : ∀ root ∈ roots, ¬ Fails disk root := fun root hroot hfail =>
    hfails ⟨root, hroot, hfail⟩
  by_cases hnothing : NothingThere disk roots
  · exact iff_of_true (recorded_of_nothing hnil hclean hnothing) (.inr (.inr (.inl hnothing)))
  simp only [hnil, hfails, hnothing, false_or]
  obtain ⟨hvalid, hinvalid⟩ := @evaluate_of_entries _ _ disk policy roots hnil hclean hnothing
  by_cases hjoint : JointlyAccepted disk policy roots
  · rw [hvalid hjoint, recorded_state_valid]
    simp only [hnil, hjoint, ne_eq, not_false_eq_true, true_and, not_true, false_and, or_false]
  · rw [hinvalid hjoint, recorded_state_invalid]
    simp only [hjoint, false_and, not_false_eq_true, true_and, false_or]

/-- **What the trace phase records.** Without the strict mode it always ends; it records the worst
of the roots' own states, which is the state of the whole list where the roots tell it; and
it has passed when that state is Valid, or there is no root. -/
theorem trace_phase_agrees_iff (disk : String → Option DiskRoot) (policy : TracePolicy)
    (roots : List String) :
    ∃ result, validate_trace_links_phase disk policy false roots = .ok result ∧
      result.short_circuit = none ∧
      result.state = aggregate_states (roots.map fun root =>
        (evaluate_trace_evidence disk [root] policy).state) ∧
      (result.state = (evaluate_trace_evidence disk roots policy).state ↔
        RootsTell disk policy roots) ∧
      (result.passed = true ↔ result.state = .Valid ∨ roots = []) := by
  refine ⟨_, validate_trace_roots_run roots true [], rfl, rfl, recorded_state_iff roots, ?_⟩
  have hstate : aggregate_states ([] ++ roots.map (root_state disk policy)) =
      recorded_state disk policy roots := rfl
  rw [hstate, recorded_state_valid, Bool.true_and, List.all_eq_true]
  simp only [decide_eq_true_eq]
  by_cases hnil : roots = []
  · subst hnil
    exact iff_of_true (fun _ hroot => absurd hroot List.not_mem_nil) (.inr rfl)
  · simp only [hnil, ne_eq, not_false_eq_true, true_and, or_false]

end Roots

/-! ## A missing root beside a valid one -/

section Instances

attribute [local instance] uuid_texts

/-- Texts in which every requirements file holds one requirement without an owner. -/
@[reducible] def one_requirement : TraceToml where
  hlr_file := fun _ => some { empty_hlr_file with requirements := [unowned_hlr "HLR-1"] }
  llr_file := fun _ => none
  tests_file := fun _ => none
  derived_file := fun _ => none

attribute [local instance] one_requirement

/-- A root with an `hlr.toml`, and nothing else. -/
def adopted_disk : String → Option DiskRoot := fun root =>
  if root = "adopted" then some fun name => if name = .Hlr then .Content [] else .Absent
  else none

/-- **A missing root beside a valid one** makes what is recorded not adopted; the whole is valid. -/
theorem missing_root_outweighs_valid_root :
    ¬ ∀ (disk : String → Option DiskRoot) (policy : TracePolicy) (roots : List String),
      aggregate_states (roots.map fun root =>
          (evaluate_trace_evidence disk [root] policy).state) =
        (evaluate_trace_evidence disk roots policy).state := by
  intro hall
  have h := hall adopted_disk .default ["adopted", "gone"]
  have hrecorded : aggregate_states (["adopted", "gone"].map fun root =>
      (evaluate_trace_evidence adopted_disk [root] .default).state) = .NotAdopted ["gone"] := by
    decide +kernel
  have hwhole : (evaluate_trace_evidence adopted_disk ["adopted", "gone"] .default).state =
      .Valid := by
    decide +kernel
  rw [hrecorded, hwhole] at h
  cases h

end Instances

end Evidence.Cli
