/-
`corpus/source_patch.rs` -- curated source-graph patches: the closed operation
language, the record that carries it, and the failures of its pipeline.

Every operation carries an ordinal that fixes its place in the application
order, and the context it expects to find. The record binds one source revision,
the recipe and input digests, and the digest of the graph it was curated against;
author, rationale and creation time stay outside its meaning.
-/
import Evidence.Corpus.SourceGraph.Basic

set_option autoImplicit false

namespace Evidence.Corpus

/-! ## Operations -/

/-- The explicit child disposition of a `remove` operation. -/
inductive ChildDisposition where
  | ReparentChildren
  | RemoveSubtree
deriving DecidableEq

structure InsertedNodeSpec where
  uid : String
  kind : SourceNodeKind
  ordinal : UInt32
  label : Option String
  canonical_text : String
  locator : SourceLocator
deriving DecidableEq

/-- The closed curated-patch operation enum. -/
inductive PatchOperation where
  /-- Replace a node's canonical text or label, against the expected digest. -/
  | ReplaceContent (ordinal : UInt32) (target_uid : String)
      (expected_content_sha256 : StructuralContentDigest) (new_canonical_text : Option String)
      (new_label : Option String)
  /-- Reclassify a node's kind, against the expected kind. -/
  | Reclassify (ordinal : UInt32) (target_uid : String) (expected_kind new_kind : SourceNodeKind)
  /-- Reparent or reorder a node, against the expected parent and ordinal. -/
  | Reparent (ordinal : UInt32) (target_uid : String) (expected_parent_uid : Option String)
      (expected_ordinal : UInt32) (new_parent_uid : Option String) (new_ordinal : UInt32)
  /-- Insert a fully specified curated node under an expected parent. -/
  | Insert (ordinal : UInt32) (expected_parent_uid : Option String) (node : InsertedNodeSpec)
  /-- Remove a node, against the expected digest. -/
  | Remove (ordinal : UInt32) (target_uid : String) (expected_digest : StructuralContentDigest)
      (child_disposition : ChildDisposition)
deriving DecidableEq

namespace PatchOperation

/-- The operation's application-order ordinal. -/
def ordinal : PatchOperation → UInt32
  | ReplaceContent ordinal .. => ordinal
  | Reclassify ordinal .. => ordinal
  | Reparent ordinal .. => ordinal
  | Insert ordinal .. => ordinal
  | Remove ordinal .. => ordinal

/-- The operation's wire tag. -/
def op_tag : PatchOperation → String
  | ReplaceContent .. => "replace_content"
  | Reclassify .. => "reclassify"
  | Reparent .. => "reparent"
  | Insert .. => "insert"
  | Remove .. => "remove"

/-- Two operations of one kind on one conflict identity are a conflicting pair. -/
def conflict_identity : PatchOperation → String
  | ReplaceContent _ target_uid .. => target_uid
  | Reclassify _ target_uid .. => target_uid
  | Reparent _ target_uid .. => target_uid
  | Insert _ _ node => node.uid
  | Remove _ target_uid .. => target_uid

end PatchOperation

/-! ## Records -/

structure SourcePatchRecord where
  uid : String
  human_id : String
  source_revision_uid : String
  recipe_digest : StructuralContentDigest
  input_digest : StructuralContentDigest
  pre_patch_graph_digest : StructuralContentDigest
  reviewed_content_digest : StructuralContentDigest
  author : String
  rationale : String
  created_at : String
  operations : List PatchOperation
deriving DecidableEq

/-- The failures of the curated-patch pipeline that validating a parsed record,
insertion, corpus validation and application can report. -/
inductive SourcePatchError where
  | RecordSchemaTooNew (path : String) (found supported : UInt32)
  | NativeUidPrefix (uid expected : String)
  | NativeUidUuidV4 (uid : String)
  | DuplicateUid (uid : String)
  | DuplicateHumanId (human_id first_uid duplicate_uid : String)
  | BlankField (path uid field : String)
  | PatchTimestamp (path uid value : String)
  | EmptyOperations (path uid : String)
  | DuplicateOperationOrdinal (path uid : String) (ordinal : UInt32)
  | ConflictingOperation (path uid op target_uid : String)
  | IncompleteReplaceContent (path uid : String) (ordinal : UInt32)
  | InvalidLocatorField (path uid field value : String) (rule : LocatorRule)
  | ReviewedContentDigestMismatch (path uid expected actual : String)
  | UnknownSourceRevision (patch_uid revision_uid : String)
  | PrePatchGraphDigestMismatch (patch_uid expected actual : String)
  | CrossRevisionTarget (patch_uid target_uid target_revision_uid : String)
  | CrossPatchTarget (patch_uid target_uid other_patch_uid : String)
  | DanglingTarget (patch_uid target_uid : String)
  | StaleBinding (patch_uid field expected actual : String)
  | StalePrecondition (patch_uid : String) (ordinal : UInt32)
      (target_uid field expected actual : String)
  | InsertedIdentityCollision (patch_uid uid field existing_uid : String)
  | PreGraphInvalid (patch_uid : String) (source : SourceGraphError)
  | InvalidPostGraph (patch_uid : String) (source : SourceGraphError)
deriving DecidableEq

end Evidence.Corpus
