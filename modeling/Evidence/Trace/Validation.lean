/-
`trace/validation.rs`, `trace/validation/link_errors.rs`, `trace/assurance.rs`,
`trace/surfaces.rs` and `policy/evidence.rs` -- the validation of a trace's links.

Two phases. The first registers every entry by its uid and by its kind, owner and id,
and collects what is missing, malformed or registered twice; if it found anything the
second does not run. The second resolves every link of the high-level and low-level
requirements and of the tests in the uids registered, and checks what the policy
asks for. `Uuid::parse_str` is a third-party parser; the class `UuidFormat` is what
the code reads of it.
-/
import Evidence.Corpus.Legacy

set_option autoImplicit false

namespace Evidence

/-- `TracePolicy`: which of the gated checks of a trace are made. -/
structure TracePolicy where
  require_uids : Bool
  require_owners : Bool
  require_hlr_verification_methods : Bool
  require_llr_verification_methods : Bool
  require_derived_rationale : Bool
  require_hlr_sys_trace : Bool
  require_hlr_surface_bijection : Bool
  require_derived_safety_impact : Bool
  require_derived_disposition : Bool
  require_derived_reviewed : Bool
deriving DecidableEq

/-- `TracePolicy::default()`. -/
def TracePolicy.default : TracePolicy :=
  ⟨false, false, false, false, false, false, false, false, false, false⟩

end Evidence

namespace Evidence.Trace

open Corpus Sorting

/-! ## Uuids -/

/-- `uuid::Uuid::parse_str`, as far as it accepts. -/
class UuidFormat where
  parse_str_ok : String → Bool

export UuidFormat (parse_str_ok)

/-! ## Errors -/

/-- A single failure of the link phase. -/
inductive LinkError where
  | InvalidLinkUuid (source_kind : EntryKind) (source_id link : String)
  | DanglingLink (source_kind : EntryKind) (source_id link : String)
      (expected_target_kind : EntryKind)
  | WrongTargetKind (source_kind : EntryKind) (source_id link : String)
      (expected found : EntryKind)
  | OwnershipViolation (source_kind : EntryKind) (source_id source_owner : String)
      (target_kind : EntryKind) (target_id target_owner : String)
  | SurfaceUnknown (hlr_id surface : String)
  | SurfaceUnclaimed (surface : String)
  | MissingVerificationMethods (kind : EntryKind) (id : String)
  | MissingHlrSysTrace (hlr_id : String)
  | DuplicateTraceLink (source_kind : EntryKind) (source_id link : String)
  | LlrMissingParentLinks (llr_id : String)
  | DerivedMissingRationale (llr_id : String)
  | DerivedMissingSafetyImpact (derived_id : String)
  | DerivedMissingDisposition (derived_id : String)
  | DerivedUnreviewed (derived_id : String)
deriving DecidableEq

inductive TraceValidationError where
  | Register (errors : List String)
  | Link (errors : List LinkError)
deriving DecidableEq

/-! ## The register phase -/

structure Item where
  uid : String
  kind : EntryKind
  owner : String
  id : String
deriving DecidableEq

/-- The two indexes, each with the first entry under its key, and the errors so far. -/
structure Registry where
  uid_index : List Item
  item_index : List Item
  register_errors : List String
deriving DecidableEq

namespace Registry

def new : Registry := ⟨[], [], []⟩

def push_error (r : Registry) (error : String) : Registry :=
  { r with register_errors := r.register_errors ++ [error] }

def insert_uid (r : Registry) (item : Item) : Registry :=
  match r.uid_index.find? (·.uid == item.uid) with
  | some prev => r.push_error ("Duplicate UID " ++ item.uid ++ ": used by [" ++
      prev.kind.as_str ++ "(" ++ prev.owner ++ "):" ++ prev.id ++ "] and [" ++
      item.kind.as_str ++ "(" ++ item.owner ++ "):" ++ item.id ++ "]")
  | none => { r with uid_index := r.uid_index ++ [item] }

def insert_item (r : Registry) (item : Item) : Registry :=
  match r.item_index.find? fun prev =>
      prev.kind == item.kind && prev.owner == item.owner && prev.id == item.id with
  | some prev => r.push_error ("Duplicate Item '" ++ item.kind.as_str ++ "(" ++ item.owner ++
      "):" ++ item.id ++ "': used by " ++ prev.uid ++ " and " ++ item.uid)
  | none => { r with item_index := r.item_index ++ [item] }

end Registry

section Validate

variable [UuidFormat] (policy : TracePolicy)

def register (r : Registry) (entry : TraceItem) : Registry :=
  match entry.owner with
  | none =>
    if policy.require_owners then
      r.push_error ("[" ++ entry.kind.as_str ++ ":" ++ entry.id ++ "] missing 'owner'")
    else r
  | some owner =>
    match entry.uid with
    | none =>
      if policy.require_uids then
        r.push_error ("[" ++ entry.kind.as_str ++ ":" ++ entry.id ++ "] missing UID")
      else r
    | some uid =>
      if policy.require_uids && !parse_str_ok uid then
        r.push_error ("[" ++ entry.kind.as_str ++ ":" ++ entry.id ++ "] invalid UID format '" ++
          uid ++ "'")
      else (r.insert_uid ⟨uid, entry.kind, owner, entry.id⟩).insert_item
        ⟨uid, entry.kind, owner, entry.id⟩

/-- The register phase. -/
def register_entries (entries : List TraceItem) : Registry :=
  entries.foldl (register policy) .new

/-! ## The link phase -/

/-- The owners a link may join: the source's own, and towards the layers above also the
system of interest and the project. -/
def owners_allowed (source_kind expected_target_kind : EntryKind) (s_owner t_owner : String) :
    Bool :=
  match source_kind, expected_target_kind with
  | .HLR, .SYS | .LLR, .HLR => s_owner == t_owner || t_owner == "soi" || t_owner == "project"
  | .TEST, .LLR => s_owner == t_owner
  | _, _ => true

def check_link (uid_index : List Item) (source_kind : EntryKind) (source_id : String)
    (source_owner : Option String) (link : String) (expected_target_kind : EntryKind) :
    Option LinkError :=
  if !parse_str_ok link then some (.InvalidLinkUuid source_kind source_id link)
  else
    match uid_index.find? (·.uid == link) with
    | none => some (.DanglingLink source_kind source_id link expected_target_kind)
    | some target =>
      if target.kind ≠ expected_target_kind then
        some (.WrongTargetKind source_kind source_id link expected_target_kind target.kind)
      else if !owners_allowed source_kind expected_target_kind (source_owner.getD "UNKNOWN")
          target.owner then
        some (.OwnershipViolation source_kind source_id (source_owner.getD "UNKNOWN")
          expected_target_kind target.id target.owner)
      else none

/-- The links of an entry, of which those in `seen` were met before. -/
def check_links (uid_index : List Item) (source_kind : EntryKind) (source_id : String)
    (source_owner : Option String) (expected_target_kind : EntryKind) :
    List String → List String → List LinkError
  | _, [] => []
  | seen, link :: links =>
    (if link ∈ seen then [.DuplicateTraceLink source_kind source_id link] else []) ++
      (check_link uid_index source_kind source_id source_owner link expected_target_kind).toList ++
      check_links uid_index source_kind source_id source_owner expected_target_kind (link :: seen)
        links

/-- Catalog of the surfaces a high-level requirement may claim. -/
def KNOWN_SURFACES : List String :=
  ["check", "context", "diff", "doctor", "floors", "generate", "init", "keygen", "rules", "trace",
    "verify", "CLI_SUBCOMMAND_ERROR terminal",
    "VERIFY_OK / VERIFY_FAIL / VERIFY_ERROR terminal contract", "agent MCP surface",
    "comment hygiene gate", "coverage measurement",
    "diagnostic code namespace (regex + reserved suffixes)", "editor-duplicate gate",
    "jsonl stream per Schema Rule 2", "layered CLAUDE.md (root + crates/*/CLAUDE.md)",
    "per-test outcome capture", "per-test ↔ LLR back-link", "pre-release safety gate",
    "root_cause_uid grouping per Schema Rule 7", "structured Link-phase diagnostic codes",
    "trace-ID reference bijection", "walker-usage standardization"]

/-- Claims of surfaces, each a surface and the id of a requirement that claims it, in order
and each once. -/
abbrev SurfaceClaims := List (String × String)

def claims_of (claims : List (String × String)) : SurfaceClaims :=
  (sortBy (compareLex (compareOn Prod.fst) (compareOn Prod.snd)) claims).destutter (· ≠ ·)

/-- The claims of the high-level requirements of a graph. -/
def surface_claims_from_graph (graph : CorpusGraph) : SurfaceClaims :=
  claims_of (graph.nodes.values.flatMap fun node =>
    match node with
    | .Requirement requirement =>
      match graph.trace_metadata.get requirement.uid with
      | some (_, .Requirement metadata) =>
        if requirement.layer = .Hlr then metadata.surfaces.map (·, requirement.id) else []
      | _ => []
    | _ => [])

/-- The claims of entries, when they make no graph. -/
def surface_claims_from_hlr_entries (entries : List HlrEntry) : SurfaceClaims :=
  claims_of (entries.flatMap fun entry => entry.surfaces.map (·, entry.id))

/-- Surfaces that are claimed and unknown, and known ones that nobody claims. -/
def surface_errors (claims : SurfaceClaims) : List LinkError :=
  (claims.filter fun claim => !KNOWN_SURFACES.contains claim.1).map
      (fun claim => .SurfaceUnknown claim.2 claim.1) ++
    (KNOWN_SURFACES.filter fun surface => !(claims.map Prod.fst).contains surface).map
      .SurfaceUnclaimed

/-- The checks of a high-level requirement. -/
def hlr_errors (uid_index : List Item) (entry : HlrEntry) : List LinkError :=
  (if policy.require_hlr_verification_methods && entry.verification_methods.isEmpty then
    [.MissingVerificationMethods .HLR entry.id] else []) ++
  (if policy.require_hlr_sys_trace && entry.traces_to.isEmpty then
    [.MissingHlrSysTrace entry.id] else []) ++
  check_links uid_index .HLR entry.id entry.owner .SYS [] entry.traces_to

/-- The checks of a low-level requirement. -/
def llr_errors (uid_index : List Item) (entry : LlrEntry) : List LinkError :=
  (if entry.traces_to.isEmpty then [.LlrMissingParentLinks entry.id] else []) ++
  (if policy.require_llr_verification_methods && entry.verification_methods.isEmpty then
    [.MissingVerificationMethods .LLR entry.id] else []) ++
  check_links uid_index .LLR entry.id entry.owner .HLR [] entry.traces_to

/-- The checks of a test; one without links is a gap of the matrix, not an error. -/
def test_errors (uid_index : List Item) (entry : TestEntry) : List LinkError :=
  check_links uid_index .TEST entry.id entry.owner .LLR [] entry.traces_to

/-- `field.map(is_empty).unwrap_or(true)`. -/
def missing_text (field : Option String) : Bool := (field.map String.isEmpty).getD true

/-- The checks of a derived requirement. -/
def derived_errors (entry : DerivedEntry) : List LinkError :=
  (if policy.require_derived_rationale && missing_text entry.rationale then
    [.DerivedMissingRationale entry.id] else []) ++
  (if policy.require_derived_safety_impact && missing_text entry.safety_impact then
    [.DerivedMissingSafetyImpact entry.id] else []) ++
  (if policy.require_derived_disposition && missing_text entry.disposition then
    [.DerivedMissingDisposition entry.id] else []) ++
  (if policy.require_derived_reviewed && entry.reviewed ≠ some true then
    [.DerivedUnreviewed entry.id] else [])

variable (sys hlrs : List HlrEntry) (llrs : List LlrEntry) (tests : List TestEntry)
  (derived : List DerivedEntry)

/-- The surface check, over the graph of the entries where they make one. -/
def surface_bijection_errors : List LinkError :=
  if policy.require_hlr_surface_bijection then
    match graph_from_trace_parts sys hlrs llrs tests derived with
    | .ok graph => surface_errors (surface_claims_from_graph graph)
    | .error _ => surface_errors (surface_claims_from_hlr_entries hlrs)
  else []

/-- The link phase. -/
def link_errors (uid_index : List Item) : List LinkError :=
  surface_bijection_errors policy sys hlrs llrs tests derived ++
    hlrs.flatMap (hlr_errors policy uid_index) ++ llrs.flatMap (llr_errors policy uid_index) ++
    tests.flatMap (test_errors uid_index) ++ derived.flatMap (derived_errors policy)

def validate_trace_links_with_policy : Except TraceValidationError Unit :=
  let registry := register_entries policy (trace_items sys hlrs llrs tests derived)
  if registry.register_errors ≠ [] then .error (.Register registry.register_errors)
  else
    let errors := link_errors policy sys hlrs llrs tests derived registry.uid_index
    if errors ≠ [] then .error (.Link errors) else .ok ()

end Validate

end Evidence.Trace
