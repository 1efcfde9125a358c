/-
`trace/uuid.rs` -- uuids for the entries of the trace files, and the links that follow.

A file is absent, is not readable, or holds what its text parses to. The new uuids come out of a
supply, one after the other. Two layers that share a placeholder stop the run, before
anything is written.
-/
import Evidence.Lib.Store
import Evidence.Trace.Validation

set_option autoImplicit false

namespace Evidence.Trace

/-! ## Uuids for entries -/

/-- A `BTreeMap` from old uids to new ones. -/
abbrev Remap := Store (Prod.fst : String × String → String)

/-- What an assignment leaves: the entries, how many uuids it has taken, the remap, and the
position in the supply. -/
structure Assigned (ε : Type) where
  entries : List ε
  count : ℕ
  remap : Remap
  next : ℕ

section Assign

variable [UuidFormat] (new_v4 : ℕ → String)

/-- Missing, or not a valid uuid. -/
def needs_new_uuid (uid : Option String) : Bool := uid.all fun s => !parse_str_ok s

/-- The old uid and the new one, when the uid needs one. -/
def rewrite_uid_if_needed (uid : Option String) (next : ℕ) : Option (Option String × String) :=
  if needs_new_uuid uid then some (uid, new_v4 next) else none

def record_rewrite (outcome : Option (Option String × String)) (remap : Remap) : Bool × Remap :=
  match outcome with
  | some (some old, new) => (true, remap.put (old, new))
  | some (none, _) => (true, remap)
  | none => (false, remap)

/-- One entry of the loop over a file's entries. -/
def assign_entry {ε : Type} (uid : ε → Option String) (with_uid : ε → String → ε)
    (state : Assigned ε) (entry : ε) : Assigned ε :=
  let outcome := rewrite_uid_if_needed new_v4 (uid entry) state.next
  let (counted, remap) := record_rewrite outcome state.remap
  { entries := state.entries ++ [outcome.elim entry fun rewrite => with_uid entry rewrite.2]
    count := if counted then state.count + 1 else state.count
    remap := remap
    next := if outcome.isSome then state.next + 1 else state.next }

/-- Fresh uuids for the entries that need one. -/
def assign_valid_uuids {ε : Type} (uid : ε → Option String) (with_uid : ε → String → ε)
    (entries : List ε) (next : ℕ) : Assigned ε :=
  entries.foldl (assign_entry new_v4 uid with_uid) ⟨[], 0, Store.empty, next⟩

def HlrEntry.with_uid (entry : HlrEntry) (uid : String) : HlrEntry := { entry with uid := some uid }

def LlrEntry.with_uid (entry : LlrEntry) (uid : String) : LlrEntry := { entry with uid := some uid }

def TestEntry.with_uid (entry : TestEntry) (uid : String) : TestEntry :=
  { entry with uid := some uid }

def DerivedEntry.with_uid (entry : DerivedEntry) (uid : String) : DerivedEntry :=
  { entry with uid := some uid }

def assign_valid_uuids_hlr : List HlrEntry → ℕ → Assigned HlrEntry :=
  assign_valid_uuids new_v4 HlrEntry.uid HlrEntry.with_uid

def assign_valid_uuids_llr : List LlrEntry → ℕ → Assigned LlrEntry :=
  assign_valid_uuids new_v4 LlrEntry.uid LlrEntry.with_uid

def assign_valid_uuids_test : List TestEntry → ℕ → Assigned TestEntry :=
  assign_valid_uuids new_v4 TestEntry.uid TestEntry.with_uid

def assign_valid_uuids_derived : List DerivedEntry → ℕ → Assigned DerivedEntry :=
  assign_valid_uuids new_v4 DerivedEntry.uid DerivedEntry.with_uid

end Assign

/-! ## Links -/

/-- A link follows the remap; other links stay. -/
def rewrite_link (remap : Remap) (link : String) : String :=
  (remap.get link).elim link Prod.snd

/-- The links of an entry, and whether one of them has changed. -/
def rewrite_traces_to (refs : List String) (remap : Remap) : List String × Bool :=
  (refs.map (rewrite_link remap), refs.any fun r => (remap.get r).isSome)

/-! ## Files -/

inductive TraceFile (φ : Type) where
  | Absent
  | Unreadable
  | Parsed (file : φ)
deriving DecidableEq

structure TraceRoot where
  sys : TraceFile HlrFile
  hlr : TraceFile HlrFile
  llr : TraceFile LlrFile
  tests : TraceFile TestsFile
  derived : TraceFile DerivedFile
deriving DecidableEq

/-- How a run stops before it writes: a file is not readable, or the layers share a
placeholder. -/
inductive BackfillFailure where
  | Read (filename : String)
  | DuplicatePlaceholder (old existing new : String)
deriving DecidableEq

def load_existing {φ : Type} (filename : String) :
    TraceFile φ → Except BackfillFailure (Option φ)
  | .Absent => .ok none
  | .Unreadable => .error (.Read filename)
  | .Parsed file => .ok (some file)

/-- One key of a layer's remap. -/
def merge_rewrite (dst : Remap) (rewrite : String × String) : Except BackfillFailure Remap :=
  match dst.get rewrite.1 with
  | some existing => .error (.DuplicatePlaceholder rewrite.1 existing.2 rewrite.2)
  | none => .ok (dst.put rewrite)

/-- Merge the remap of a layer into the union. -/
def merge_remap (dst src : Remap) : Except BackfillFailure Remap :=
  src.values.foldlM merge_rewrite dst

/-- What the layers before have come to. -/
structure Backfill where
  total : ℕ
  remap : Remap
  next : ℕ

/-- One layer of phase 2: the file with its uuids, and whether it has changed. -/
def backfill_layer {φ ε : Type} (entries : φ → List ε) (with_entries : φ → List ε → φ)
    (assign : List ε → ℕ → Assigned ε) (file : Option φ) (state : Backfill) :
    Except BackfillFailure (Option φ × Bool × Backfill) :=
  match file with
  | none => .ok (none, false, state)
  | some file => do
    let assigned := assign (entries file) state.next
    let remap ← merge_remap state.remap assigned.remap
    .ok (some (with_entries file assigned.entries), assigned.count > 0,
      { total := state.total + assigned.count, remap := remap, next := assigned.next })

/-- One layer of phase 3. -/
def relink_layer {φ ε : Type} (entries : φ → List ε) (with_entries : φ → List ε → φ)
    (links : ε → List String) (with_links : ε → List String → ε) (remap : Remap)
    (file : Option φ) : Option φ × Bool :=
  (file.map fun file => with_entries file
    ((entries file).map fun entry => with_links entry (rewrite_traces_to (links entry) remap).1),
    file.any fun file => (entries file).any fun entry => (rewrite_traces_to (links entry) remap).2)

def write_back {φ : Type} (changed : Bool) (before : TraceFile φ) (file : Option φ) : TraceFile φ :=
  if changed then file.elim before .Parsed else before

def HlrFile.with_requirements (file : HlrFile) (requirements : List HlrEntry) : HlrFile :=
  { file with requirements := requirements }

def LlrFile.with_requirements (file : LlrFile) (requirements : List LlrEntry) : LlrFile :=
  { file with requirements := requirements }

def TestsFile.with_tests (file : TestsFile) (tests : List TestEntry) : TestsFile :=
  { file with tests := tests }

def DerivedFile.with_requirements (file : DerivedFile) (requirements : List DerivedEntry) :
    DerivedFile := { file with requirements := requirements }

def HlrEntry.with_links (entry : HlrEntry) (links : List String) : HlrEntry :=
  { entry with traces_to := links }

def LlrEntry.with_links (entry : LlrEntry) (links : List String) : LlrEntry :=
  { entry with traces_to := links }

def TestEntry.with_links (entry : TestEntry) (links : List String) : TestEntry :=
  { entry with traces_to := links }

structure LoadedRoot where
  sys : Option HlrFile
  hlr : Option HlrFile
  llr : Option LlrFile
  tests : Option TestsFile
  derived : Option DerivedFile

structure Changed where
  sys : Bool
  hlr : Bool
  llr : Bool
  tests : Bool
  derived : Bool

/-- Phase 1: load every file that exists. -/
def load_root (root : TraceRoot) : Except BackfillFailure LoadedRoot := do
  let sys ← load_existing "sys.toml" root.sys
  let hlr ← load_existing "hlr.toml" root.hlr
  let llr ← load_existing "llr.toml" root.llr
  let tests ← load_existing "tests.toml" root.tests
  let derived ← load_existing "derived.toml" root.derived
  .ok { sys := sys, hlr := hlr, llr := llr, tests := tests, derived := derived }

/-- Phase 2: new uids, and the union of the remaps. -/
def assign_root [UuidFormat] (new_v4 : ℕ → String) (root : LoadedRoot) :
    Except BackfillFailure (LoadedRoot × Changed × Backfill) := do
  let (sys, sys_changed, state) ← backfill_layer HlrFile.requirements HlrFile.with_requirements
    (assign_valid_uuids_hlr new_v4) root.sys ⟨0, Store.empty, 0⟩
  let (hlr, hlr_changed, state) ← backfill_layer HlrFile.requirements HlrFile.with_requirements
    (assign_valid_uuids_hlr new_v4) root.hlr state
  let (llr, llr_changed, state) ← backfill_layer LlrFile.requirements LlrFile.with_requirements
    (assign_valid_uuids_llr new_v4) root.llr state
  let (tests, tests_changed, state) ← backfill_layer TestsFile.tests TestsFile.with_tests
    (assign_valid_uuids_test new_v4) root.tests state
  let (derived, derived_changed, state) ← backfill_layer DerivedFile.requirements
    DerivedFile.with_requirements (assign_valid_uuids_derived new_v4) root.derived state
  .ok ({ sys := sys, hlr := hlr, llr := llr, tests := tests, derived := derived },
    { sys := sys_changed, hlr := hlr_changed, llr := llr_changed, tests := tests_changed
      derived := derived_changed }, state)

/-- Phase 3: the links of three of the files follow. -/
def relink_root (remap : Remap) (root : LoadedRoot) (changed : Changed) : LoadedRoot × Changed :=
  let (hlr, hlr_relinked) := relink_layer HlrFile.requirements HlrFile.with_requirements
    HlrEntry.traces_to HlrEntry.with_links remap root.hlr
  let (llr, llr_relinked) := relink_layer LlrFile.requirements LlrFile.with_requirements
    LlrEntry.traces_to LlrEntry.with_links remap root.llr
  let (tests, tests_relinked) := relink_layer TestsFile.tests TestsFile.with_tests
    TestEntry.traces_to TestEntry.with_links remap root.tests
  ({ root with hlr := hlr, llr := llr, tests := tests },
    { changed with
      hlr := changed.hlr || hlr_relinked
      llr := changed.llr || llr_relinked
      tests := changed.tests || tests_relinked })

/-- Phase 4: the files that changed are written back. -/
def write_root (root : TraceRoot) (loaded : LoadedRoot) (changed : Changed) : TraceRoot where
  sys := write_back changed.sys root.sys loaded.sys
  hlr := write_back changed.hlr root.hlr loaded.hlr
  llr := write_back changed.llr root.llr loaded.llr
  tests := write_back changed.tests root.tests loaded.tests
  derived := write_back changed.derived root.derived loaded.derived

/-- Fresh uuids for all entries that need one. Returns how many, and the files as they are
afterwards. -/
def backfill_uuids [UuidFormat] (new_v4 : ℕ → String) (root : TraceRoot) :
    Except BackfillFailure (ℕ × TraceRoot) := do
  let loaded ← load_root root
  let (assigned, changed, state) ← assign_root new_v4 loaded
  let (relinked, changed) := relink_root state.remap assigned changed
  .ok (state.total, write_root root relinked changed)

end Evidence.Trace
