/-
`corpus/source_patch/records.rs` -- the checks a curated-patch record file passes
when it is loaded.

`parse_source_patch` is `toml::from_str` into the strict file shape, a schema
gate, and `validate_record`. The file shape is a Lean value here, so the digests
and the locator paths have passed their deserializers, and `admit_source_patch`
is what follows the parser. The operations leave it sorted by ordinal.
-/
import Evidence.Formats
import Evidence.Lib.Check
import Evidence.Corpus.SourcePatch.Digest

set_option autoImplicit false

namespace Evidence.Corpus

open Check

/-- Highest curated-patch-file schema version this tool loads. -/
def SUPPORTED_SOURCE_PATCH_SCHEMA : UInt32 := 1

/-- Typed uid prefix for corpus-native curated patches. -/
def PATCH_UID_PREFIX : String := "patch_"

/-- Typed uid prefix for source revisions. -/
def SOURCE_UID_PREFIX : String := "src_"

/-- Typed uid prefix for structural source nodes. -/
def SNODE_UID_PREFIX : String := "snode_"

/-- On-disk shape of a curated-patch record file. -/
structure SourcePatchFile where
  schema_version : UInt32
  patch : SourcePatchRecord

/-! ## Fields -/

section Fields

variable [Formats]

/-- A uid of the patch plane: the kind's prefix followed by a UUIDv4. -/
def validate_plane_uid (expected uid : String) : Except SourcePatchError Unit :=
  validate_native_uid uid expected .NativeUidPrefix .NativeUidUuidV4

/-- A structural node uid is `snode_` followed by a UUIDv4. -/
def validate_snode_uid (uid : String) : Except SourcePatchError Unit :=
  validate_plane_uid SNODE_UID_PREFIX uid

/-- A curated-patch uid is `patch_` followed by a UUIDv4. -/
def validate_patch_uid (uid : String) : Except SourcePatchError Unit :=
  validate_plane_uid PATCH_UID_PREFIX uid

def validate_optional_snode_uid : Option String → Except SourcePatchError Unit
  | some uid => validate_snode_uid uid
  | none => .ok ()

omit [Formats] in
/-- A metadata field must carry content. -/
def validate_field (path uid field value : String) : Except SourcePatchError Unit :=
  failIf (is_blank value = true) (.BlankField path uid field)

omit [Formats] in
/-- A present label must carry content. -/
def validate_optional_label (path patch_uid : String) :
    Option String → Except SourcePatchError Unit
  | some label => validate_field path patch_uid "label" label
  | none => .ok ()

/-- One operation's fields in declaration order. -/
def validate_operation [F64Display] (path patch_uid : String) : PatchOperation → Except SourcePatchError Unit
  | .ReplaceContent ordinal target_uid _ new_canonical_text new_label => do
    validate_snode_uid target_uid
    failIf (new_canonical_text = none ∧ new_label = none)
      (.IncompleteReplaceContent path patch_uid ordinal)
    validate_optional_label path patch_uid new_label
  | .Reclassify _ target_uid _ _ => validate_snode_uid target_uid
  | .Reparent _ target_uid expected_parent_uid _ new_parent_uid _ => do
    validate_snode_uid target_uid
    validate_optional_snode_uid expected_parent_uid
    validate_optional_snode_uid new_parent_uid
  | .Insert _ expected_parent_uid node => do
    validate_optional_snode_uid expected_parent_uid
    validate_snode_uid node.uid
    validate_optional_label path patch_uid node.label
    node.locator.validate.mapError fun err =>
      .InvalidLocatorField path patch_uid err.field err.value err.rule
  | .Remove _ target_uid _ _ => validate_snode_uid target_uid

end Fields

/-! ## Operation lists -/

/-- No two operations make the same claim. `seen` holds the claims of the
operations before. -/
def check_claims {β : Type} [DecidableEq β] (claim : PatchOperation → β)
    (repeated : PatchOperation → SourcePatchError) :
    List β → List PatchOperation → Except SourcePatchError Unit
  | _, [] => .ok ()
  | seen, operation :: rest => do
    failIf (claim operation ∈ seen) (repeated operation)
    check_claims claim repeated (claim operation :: seen) rest

theorem check_claims_ok_iff {β : Type} [DecidableEq β] {claim : PatchOperation → β}
    {repeated : PatchOperation → SourcePatchError} {seen : List β}
    {operations : List PatchOperation} :
    check_claims claim repeated seen operations = .ok () ↔
      (operations.map claim).Nodup ∧ ∀ operation ∈ operations, claim operation ∉ seen := by
  induction operations generalizing seen with
  | nil => simp [check_claims]
  | cons operation rest ih =>
    rw [check_claims, seq_ok_iff, failIf_ok_iff, ih, List.map_cons, List.nodup_cons,
      List.forall_mem_cons]
    simp only [List.mem_cons, not_or, List.mem_map, not_exists, not_and]
    constructor
    · rintro ⟨hseen, hnodup, hrest⟩
      exact ⟨⟨fun x hx => (hrest x hx).1, hnodup⟩, hseen, fun x hx => (hrest x hx).2⟩
    · rintro ⟨⟨hfresh, hnodup⟩, hseen, hrest⟩
      exact ⟨hseen, hnodup, fun x hx => ⟨hfresh x hx, hrest x hx⟩⟩

/-- The operation list: non-empty, valid operations, unique ordinals, and no
conflicting pair; then the operations sorted by ordinal. -/
def validate_operations [Formats] [F64Display] (path : String) (record : SourcePatchRecord) :
    Except SourcePatchError SourcePatchRecord := do
  failIf (record.operations = []) (.EmptyOperations path record.uid)
  record.operations.forM (validate_operation path record.uid)
  check_claims PatchOperation.ordinal
    (fun operation => .DuplicateOperationOrdinal path record.uid operation.ordinal)
    [] record.operations
  check_claims (fun operation => (operation.op_tag, operation.conflict_identity))
    (fun operation =>
      .ConflictingOperation path record.uid operation.op_tag operation.conflict_identity)
    [] record.operations
  .ok { record with operations := ordered_operations record.operations }

/-! ## Records -/

variable [Formats] [Sha256] [F64Display]

/-- A record's fields in declaration order; the first failure wins. -/
def validate_record (path : String) (record : SourcePatchRecord) :
    Except SourcePatchError SourcePatchRecord := do
  validate_patch_uid record.uid
  validate_field path record.uid "human_id" record.human_id
  validate_field path record.uid "author" record.author
  validate_field path record.uid "rationale" record.rationale
  validate_plane_uid SOURCE_UID_PREFIX record.source_revision_uid
  failIf (!is_rfc3339 record.created_at) (.PatchTimestamp path record.uid record.created_at)
  let record ← validate_operations path record
  failIf (reviewed_content_digest record ≠ record.reviewed_content_digest)
    (.ReviewedContentDigestMismatch path record.uid (reviewed_content_digest record).as_str
      record.reviewed_content_digest.as_str)
  .ok record

/-- `parse_source_patch` behind the TOML parser: the schema gate and the record
checks. -/
def admit_source_patch (path : String) (file : SourcePatchFile) :
    Except SourcePatchError SourcePatchRecord := do
  failIf (SUPPORTED_SOURCE_PATCH_SCHEMA < file.schema_version)
    (.RecordSchemaTooNew path file.schema_version SUPPORTED_SOURCE_PATCH_SCHEMA)
  validate_record path file.patch

def SourcePatchRecord.Parsed (patch : SourcePatchRecord) : Prop :=
  ∃ path file, admit_source_patch path file = .ok patch

/-- **What a record file must satisfy**, and the record it is loaded as. -/
theorem admit_source_patch_ok_iff {path : String} {file : SourcePatchFile}
    {record : SourcePatchRecord} :
    admit_source_patch path file = .ok record ↔
      ¬ SUPPORTED_SOURCE_PATCH_SCHEMA < file.schema_version ∧
      validate_patch_uid file.patch.uid = .ok () ∧
      is_blank file.patch.human_id = false ∧ is_blank file.patch.author = false ∧
      is_blank file.patch.rationale = false ∧
      validate_plane_uid SOURCE_UID_PREFIX file.patch.source_revision_uid = .ok () ∧
      is_rfc3339 file.patch.created_at = true ∧
      file.patch.operations ≠ [] ∧
      (∀ operation ∈ file.patch.operations,
        validate_operation path file.patch.uid operation = .ok ()) ∧
      (file.patch.operations.map PatchOperation.ordinal).Nodup ∧
      (file.patch.operations.map fun operation =>
        (operation.op_tag, operation.conflict_identity)).Nodup ∧
      reviewed_content_digest record = record.reviewed_content_digest ∧
      record = { file.patch with operations := ordered_operations file.patch.operations } := by
  rw [admit_source_patch, validate_record]
  simp only [seq_ok_iff]
  rw [bind_ok_iff]
  simp only [seq_ok_iff, failIf_ok_iff, validate_field, validate_operations, forM_ok_iff,
    check_claims_ok_iff, ne_eq, not_not, Except.ok.injEq, Bool.not_eq_true, Bool.not_eq_true',
    Bool.not_eq_false, List.not_mem_nil, not_false_eq_true, implies_true, and_true]
  constructor
  · rintro ⟨h1, h2, h3, h4, h5, h6, h7, _, ⟨h8, h9, h10, h11, rfl⟩, h12, rfl⟩
    exact ⟨h1, h2, h3, h4, h5, h6, h7, h8, h9, h10, h11, h12, rfl⟩
  · rintro ⟨h1, h2, h3, h4, h5, h6, h7, h8, h9, h10, h11, h12, rfl⟩
    exact ⟨h1, h2, h3, h4, h5, h6, h7, _, ⟨h8, h9, h10, h11, rfl⟩, h12, rfl⟩

/-! ## A well-formed record -/

omit [Formats] in
/-- A curated patch of `graph` with the given operations, its digests as
recomputed. -/
def patch_record (uid human_id revision_uid : String) (graph : SourceGraph)
    (operations : List PatchOperation) : SourcePatchRecord :=
  let record : SourcePatchRecord :=
    { uid := uid
      human_id := human_id
      source_revision_uid := revision_uid
      recipe_digest := .of_bytes []
      input_digest := .of_bytes []
      pre_patch_graph_digest := source_graph_digest graph
      reviewed_content_digest := .of_bytes []
      author := "curator@example.com"
      rationale := "restore the intended structure"
      created_at := "2026-07-01T10:00:00Z"
      operations := operations }
  { record with reviewed_content_digest := reviewed_content_digest record }

theorem patch_record_parsed {uid human_id revision_uid : String} {graph : SourceGraph}
    {operations : List PatchOperation} (hstamp : is_rfc3339 "2026-07-01T10:00:00Z" = true)
    (huid : validate_patch_uid uid = .ok ()) (hid : is_blank human_id = false)
    (hrevision : validate_plane_uid SOURCE_UID_PREFIX revision_uid = .ok ())
    (hne : operations ≠ [])
    (hfields : ∀ operation ∈ operations, validate_operation "patches.toml" uid operation = .ok ())
    (hordinals : (operations.map PatchOperation.ordinal).Nodup)
    (hclaims : (operations.map fun operation =>
      (operation.op_tag, operation.conflict_identity)).Nodup)
    (hsorted : ordered_operations operations = operations) :
    (patch_record uid human_id revision_uid graph operations).Parsed := by
  refine ⟨"patches.toml", ⟨1, patch_record uid human_id revision_uid graph operations⟩,
    admit_source_patch_ok_iff.mpr ⟨?_, huid, hid, ?_, ?_, hrevision, hstamp, hne, hfields,
      hordinals, hclaims, rfl, ?_⟩⟩
  · exact (by decide : ¬ SUPPORTED_SOURCE_PATCH_SCHEMA < 1)
  · exact (by decide +kernel : is_blank "curator@example.com" = false)
  · exact (by decide +kernel : is_blank "restore the intended structure" = false)
  · exact congrArg (fun sorted => { patch_record uid human_id revision_uid graph operations with
      operations := sorted }) hsorted.symm

end Evidence.Corpus
