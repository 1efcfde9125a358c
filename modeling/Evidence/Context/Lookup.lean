/-
`context/lookup.rs` and `context/report.rs` -- the context report of a selector.

`build_scoped_report` collects what an agent needs to know of the code it is about to
edit: the low-level requirements of the selected modules with their parents and tests,
and what the policy, the floors and the conventions say of the crate. The requirements
are looked up by module prefixes, everything about the crate by its name.

The parents are rolled up in two layers with one set of uids seen, which is written
before the lookup of a uid succeeds.
-/
import Evidence.Context.Resolver
import Evidence.Trace.Entries

set_option autoImplicit false

namespace Evidence.Context

open Sorting
open Trace (HlrEntry LlrEntry TestEntry TraceFiles)

/-! ## Policy -/

inductive Dal where
  | D
  | C
  | B
  | A
deriving DecidableEq

inductive AssuranceLevel where
  | Unclassified
  | Qm
  | DalD
  | DalC
  | DalB
  | DalA
deriving DecidableEq

def AssuranceLevel.from_dal : Dal → AssuranceLevel
  | .A => .DalA
  | .B => .DalB
  | .C => .DalC
  | .D => .DalD

/-- The label of a level. -/
def AssuranceLevel.display : AssuranceLevel → String
  | DalA => "A"
  | DalB => "B"
  | DalC => "C"
  | DalD => "D"
  | Qm => "QM"
  | Unclassified => "unclassified"

structure DalConfig where
  default_dal : Option Dal
  crate_overrides : Table Dal

structure BoundaryScope where
  in_scope : List String
  explicit_forbidden : List String

/-- The boundary policy, as far as a report reads it. -/
structure BoundaryConfig where
  scope : BoundaryScope
  dal : Option DalConfig

structure FloorsConfig where
  per_crate : Table (Table UInt64)
  per_crate_ceilings : Table (Table UInt64)

/-! ## Report -/

structure SelectorView where
  kind : String
  input : String
  resolved : String
deriving DecidableEq

structure RequirementRef where
  id : String
  uid : String
  layer : String
  title : String
  description : String
  modules : List String
  emits : List String
  traces_to : List String
  verification_methods : List String
deriving DecidableEq

structure ParentRef where
  id : String
  uid : String
  layer : String
  title : String
  traces_to : List String
deriving DecidableEq

structure TestRef where
  id : String
  uid : String
  name : String
  selectors : List String
  traces_to : List String
deriving DecidableEq

structure FloorRow where
  dimension : String
  kind : String
  current : UInt64
  floor : UInt64
deriving DecidableEq

structure BoundarySlice where
  in_scope : Bool
  forbidden_deps : List String
deriving DecidableEq

structure Conventions where
  nearest_claude_md : Option String
deriving DecidableEq

structure ContextWarning where
  code : String
  message : String
deriving DecidableEq

structure ContextReport where
  selector : SelectorView
  crate_name : String
  dal : String
  requirements : List RequirementRef
  parents : List ParentRef
  tests : List TestRef
  diagnostic_codes : List String
  floors : List FloorRow
  boundary : BoundarySlice
  conventions : Conventions
  warnings : List ContextWarning
deriving DecidableEq

def llr_to_ref (llr : LlrEntry) : RequirementRef where
  id := llr.id
  uid := llr.uid.getD ""
  layer := "llr"
  title := llr.title
  description := llr.description.getD ""
  modules := llr.modules
  emits := llr.emits
  traces_to := llr.traces_to
  verification_methods := llr.verification_methods

def hlr_to_parent_ref (hlr : HlrEntry) : ParentRef where
  id := hlr.id
  uid := hlr.uid.getD ""
  layer := "hlr"
  title := hlr.title
  traces_to := hlr.traces_to

def sys_to_parent_ref (sys : HlrEntry) : ParentRef where
  id := sys.id
  uid := sys.uid.getD ""
  layer := "sys"
  title := sys.title
  traces_to := sys.traces_to

def test_to_ref (t : TestEntry) : TestRef where
  id := t.id
  uid := t.uid.getD ""
  name := t.title
  selectors := t.all_selectors
  traces_to := t.traces_to

/-! ## Requirements -/

def selector_prefixes : ResolvedSelector → List String
  | .Workspace => []
  | .File _ _ crate_name _ => [replace_char '-' '_' crate_name]
  | .Crate _ crate_name _ => [replace_char '-' '_' crate_name]
  | .Module _ path _ => [path]

/-- A module equals a prefix, extends it, or is extended by it. -/
def matches_any_prefix (module : String) (prefixes : List String) : Bool :=
  prefixes.any fun p =>
    module == p || (p ++ "::").toList.isPrefixOf module.toList ||
      (module ++ "::").toList.isPrefixOf p.toList

/-- The low-level requirements of the selected modules, in the order of the file. -/
def filter_llrs_for_selector (selector : ResolvedSelector) (llrs : List LlrEntry) :
    List LlrEntry :=
  let prefixes := selector_prefixes selector
  if prefixes.isEmpty then llrs
  else llrs.filter fun llr => llr.modules.any fun m => matches_any_prefix m prefixes

/-! ## Parents -/

/-- A map of the entries by uid: the last of a uid counts. -/
def by_uid (pool : List HlrEntry) (uid : String) : Option HlrEntry :=
  pool.findRev? fun entry => entry.uid == some uid

/-- The uids seen and the rows so far. -/
structure RollUp where
  seen : List String
  rows : List ParentRef

def RollUp.start : RollUp where
  seen := []
  rows := []

/-- One link of a high-level requirement. -/
def RollUp.grandparent (sys_pool : List HlrEntry) (r : RollUp) (grandparent_uid : String) :
    RollUp :=
  if grandparent_uid ∈ r.seen then r
  else
    -- the uid is seen from here on, whether or not an entry has it
    { seen := grandparent_uid :: r.seen
      rows := r.rows ++ ((by_uid sys_pool grandparent_uid).map sys_to_parent_ref).toList }

/-- One link of a low-level requirement. -/
def RollUp.parent (hlr_pool sys_pool : List HlrEntry) (r : RollUp) (parent_uid : String) :
    RollUp :=
  if parent_uid ∈ r.seen then r
  else
    match by_uid hlr_pool parent_uid with
    -- a link to a system requirement is spent here: its row is not added below
    | none => { r with seen := parent_uid :: r.seen }
    | some hlr =>
      hlr.traces_to.foldl (RollUp.grandparent sys_pool)
        { seen := parent_uid :: r.seen, rows := r.rows ++ [hlr_to_parent_ref hlr] }

/-- The high-level requirements that the entries link to, and the system requirements that
those link to, sorted by id. -/
def roll_up_parents (llrs : List LlrEntry) (hlr_pool sys_pool : List HlrEntry) :
    List ParentRef :=
  sortBy (compareOn ParentRef.id)
    (llrs.foldl (fun r llr => llr.traces_to.foldl (RollUp.parent hlr_pool sys_pool) r)
      RollUp.start).rows

/-! ## Tests and codes -/

/-- The tests that link to a listed requirement, sorted by name. -/
def filter_tests_for_llrs (llrs : List LlrEntry) (tests : List TestEntry) : List TestRef :=
  let llr_uids := llrs.filterMap LlrEntry.uid
  sortBy (compareOn TestRef.name)
    ((tests.filter fun t => t.traces_to.any fun uid => llr_uids.contains uid).map test_to_ref)

/-- The diagnostic codes of the listed requirements, each once and sorted. -/
def collect_emits (llrs : List LlrEntry) : List String :=
  (sortBy compare (llrs.flatMap LlrEntry.emits)).destutter (· ≠ ·)

/-! ## The crate -/

def describe_selector : ResolvedSelector → Option String × String × String
  | .Workspace => (none, "", "")
  | .File raw path crate_name _ => (some crate_name, path, raw)
  | .Crate raw crate_name _ => (some crate_name, crate_name, raw)
  | .Module raw path _ =>
    -- the crate of a module is guessed from the first segment, with hyphens
    let crate_name := ((split_path path.toList).head?.map fun s =>
      replace_char '_' '-' (String.ofList s)).filter fun s => !s.toList.isEmpty
    (crate_name, path, raw)

/-- The label of a crate's level: its override, or the default, or none claimed. -/
def dal_for_crate (boundary : BoundaryConfig) (crate_name : Option String) : String :=
  let claimed := boundary.dal.bind fun dal =>
    (crate_name.bind fun name => dal.crate_overrides.lookup name).or dal.default_dal
  ((claimed.map AssuranceLevel.from_dal).getD .Unclassified).display

def floor_rows (kind : String) (floors measured : Option (Table UInt64)) : List FloorRow :=
  (floors.map fun t => t.values.map fun entry =>
    { dimension := entry.1
      kind := kind
      current := (measured.bind fun m => m.lookup entry.1).getD 0
      floor := entry.2 }).getD []

/-- The floors and ceilings of a crate, sorted by dimension and kind. -/
def per_crate_floor_rows (ws : Workspace) (cfg : FloorsConfig) (crate_name : Option String) :
    List FloorRow :=
  match crate_name with
  | none => []
  | some crate_name =>
    let measured := ws.per_crate_measurements.lookup crate_name
    -- what a crate does not measure counts as zero
    sortBy (compareLex (compareOn FloorRow.dimension) (compareOn FloorRow.kind))
      (floor_rows "per_crate_floor" (cfg.per_crate.lookup crate_name) measured ++
        floor_rows "per_crate_ceiling" (cfg.per_crate_ceilings.lookup crate_name) measured)

/-- `workspace_root.join(path).is_file()`. -/
def Workspace.is_file (ws : Workspace) (path : String) : Bool :=
  (ws.file_at (ws.join path)).isSome

def workspace_claude_md (ws : Workspace) : Option String :=
  if ws.is_file "CLAUDE.md" then some "CLAUDE.md" else none

/-- The crate's own `CLAUDE.md` if there is one. -/
def crate_claude_md (ws : Workspace) (name : String) : Option String :=
  match discover_workspace_crates ws with
  | .error _ => none
  | .ok crates =>
    ((crates.get name).map fun entry => entry.dir ++ "/CLAUDE.md").filter ws.is_file

/-- The nearest `CLAUDE.md`: of the crate, else of the workspace. -/
def nearest_claude_md (ws : Workspace) (crate_name : Option String) : Option String :=
  (crate_name.bind (crate_claude_md ws)).or (workspace_claude_md ws)

/-! ## The report -/

def collect_warnings (selector : ResolvedSelector) (llrs : List LlrEntry) :
    List ContextWarning :=
  (if selector.ambiguities.isEmpty then []
  else
    [⟨"CONTEXT_AMBIGUOUS_SELECTOR",
      "selector also matched: " ++ ", ".intercalate selector.ambiguities ++
        " — resolver picked '" ++ selector.kind ++ "'"⟩]) ++
  (if llrs.isEmpty && selector != .Workspace then
    [⟨"CONTEXT_NO_REQUIREMENTS_FOR_SELECTOR",
      "selector matched no LLR — module not yet covered by trace"⟩]
  else [])

def build_scoped_report (ws : Workspace) (selector : ResolvedSelector) (trace : TraceFiles)
    (boundary : BoundaryConfig) (floors : Option FloorsConfig) : ContextReport :=
  let (crate_name, selector_path, selector_input) := describe_selector selector
  let llrs := filter_llrs_for_selector selector trace.llr.requirements
  { selector := ⟨selector.kind, selector_input, selector_path⟩
    crate_name := crate_name.getD ""
    dal := dal_for_crate boundary crate_name
    requirements := llrs.map llr_to_ref
    parents := roll_up_parents llrs trace.hlr.requirements trace.sys.requirements
    tests := filter_tests_for_llrs llrs trace.tests.tests
    diagnostic_codes := collect_emits llrs
    floors := (floors.map fun cfg => per_crate_floor_rows ws cfg crate_name).getD []
    boundary :=
      { in_scope := (crate_name.map fun name => boundary.scope.in_scope.contains name).getD false
        forbidden_deps := boundary.scope.explicit_forbidden }
    conventions := ⟨nearest_claude_md ws crate_name⟩
    warnings := collect_warnings selector llrs }

end Evidence.Context
