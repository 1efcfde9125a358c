/-
`corpus/source_patch/error.rs` -- the texts of the curated-patch errors.

A drift finding carries the text of a failed application, so two failures that a
report tells apart are two texts. `to_string_ne` is what tells every one of them
from the texts the drift comparison writes itself.
-/
import Evidence.Corpus.SourcePatch.Basic

set_option autoImplicit false

namespace Evidence.Corpus

/-- `Display for SourcePatchError`. -/
def SourcePatchError.to_string [StrDebug] : SourcePatchError → String
  | .RecordSchemaTooNew path found supported =>
    "corpus record file " ++ path ++ " declares schema_version " ++ decimal found.toNat ++
      "; this tool supports up to " ++ decimal supported.toNat
  | .NativeUidPrefix uid expected =>
    "corpus-native uid " ++ str_debug uid ++ " must start with " ++ str_debug expected
  | .NativeUidUuidV4 uid =>
    "corpus-native uid " ++ str_debug uid ++ " must end with an RFC 9562 UUIDv4"
  | .DuplicateUid uid => "duplicate curated-patch uid " ++ uid
  | .DuplicateHumanId human_id first_uid duplicate_uid =>
    "duplicate curated-patch human id " ++ str_debug human_id ++ ": first uid " ++ first_uid ++
      ", duplicate uid " ++ duplicate_uid
  | .BlankField path uid field =>
    "curated patch " ++ uid ++ " in " ++ path ++ " has a blank " ++ field
  | .PatchTimestamp path uid value =>
    "curated patch " ++ uid ++ " in " ++ path ++ " has created_at " ++ str_debug value ++
      ", which is not RFC 3339"
  | .EmptyOperations path uid =>
    "curated patch " ++ uid ++ " in " ++ path ++ " declares no operations"
  | .DuplicateOperationOrdinal path uid ordinal =>
    "curated patch " ++ uid ++ " in " ++ path ++ " has duplicate operation ordinal " ++
      decimal ordinal.toNat
  | .ConflictingOperation path uid op target_uid =>
    "curated patch " ++ uid ++ " in " ++ path ++ " has conflicting " ++ op ++
      " operations on target " ++ target_uid
  | .IncompleteReplaceContent path uid ordinal =>
    "curated patch " ++ uid ++ " in " ++ path ++ " has a replace_content operation at ordinal " ++
      decimal ordinal.toNat ++ " with neither new_canonical_text nor new_label"
  | .InvalidLocatorField path uid field value rule =>
    "curated patch " ++ uid ++ " in " ++ path ++ " has an inserted node with invalid " ++ field ++
      " value " ++ str_debug value ++ ": " ++ rule.to_string
  | .ReviewedContentDigestMismatch path uid expected actual =>
    "curated patch " ++ uid ++ " in " ++ path ++ " has reviewed_content_digest " ++ actual ++
      ", which does not match the recomputed value " ++ expected
  | .UnknownSourceRevision patch_uid revision_uid =>
    "curated patch " ++ patch_uid ++ " binds source revision " ++ revision_uid ++
      ", which names no committed source revision"
  | .PrePatchGraphDigestMismatch patch_uid expected actual =>
    "curated patch " ++ patch_uid ++ " has pre_patch_graph_digest " ++ actual ++
      ", which does not match the committed parser graph's canonical digest " ++ expected
  | .CrossRevisionTarget patch_uid target_uid target_revision_uid =>
    "curated patch " ++ patch_uid ++ " targets node " ++ target_uid ++ " of source revision " ++
      target_revision_uid ++ "; cross-document edits are rejected"
  | .CrossPatchTarget patch_uid target_uid other_patch_uid =>
    "curated patch " ++ patch_uid ++ " targets node " ++ target_uid ++
      " inserted by curated patch " ++ other_patch_uid ++
      "; implicit cross-patch cascades are rejected"
  | .DanglingTarget patch_uid target_uid =>
    "curated patch " ++ patch_uid ++ " targets node " ++ target_uid ++ ", which resolves nowhere"
  | .StaleBinding patch_uid field expected actual =>
    "curated patch " ++ patch_uid ++ " is stale: " ++ field ++ " is " ++ actual ++
      ", but the patch was curated against " ++ expected
  | .StalePrecondition patch_uid ordinal target_uid field expected actual =>
    "curated patch " ++ patch_uid ++ " operation at ordinal " ++ decimal ordinal.toNat ++
      " on target " ++ target_uid ++ " has stale " ++ field ++ ": expected " ++ expected ++
      ", found " ++ actual
  | .InsertedIdentityCollision patch_uid uid field existing_uid =>
    "curated patch " ++ patch_uid ++ " inserts node " ++ uid ++ ", whose " ++ field ++
      " collides with existing node " ++ existing_uid
  | .PreGraphInvalid patch_uid _ =>
    "curated patch " ++ patch_uid ++ " cannot apply: the parser graph is invalid"
  | .InvalidPostGraph patch_uid _ =>
    "curated patch " ++ patch_uid ++ " produces an invalid post-patch graph"

/-! ## Telling the texts apart -/

private def third (text : String) : Option Char := text.toList[2]?

private theorem third_append {start rest : String} {c : Char} (h : third start = some c) :
    third (start ++ rest) = some c := by
  unfold third at h ⊢
  obtain ⟨hlt, -⟩ := List.getElem?_eq_some_iff.mp h
  rw [String.toList_append, List.getElem?_append_left hlt, h]

/-- The texts of the errors start with `corpus`, `curated` or `duplicate`. -/
private theorem third_to_string [StrDebug] (error : SourcePatchError) :
    third error.to_string = some 'r' ∨ third error.to_string = some 'p' := by
  have hcorpus : third "corpus record file " = some 'r' := by decide +kernel
  have hnative : third "corpus-native uid " = some 'r' := by decide +kernel
  have huid : third "duplicate curated-patch uid " = some 'p' := by decide +kernel
  have hid : third "duplicate curated-patch human id " = some 'p' := by decide +kernel
  have hpatch : third "curated patch " = some 'r' := by decide +kernel
  cases error <;> (unfold SourcePatchError.to_string; dsimp only)
  case DuplicateUid => exact .inr (third_append huid)
  case DuplicateHumanId =>
    refine .inr ?_
    repeat with_reducible apply third_append
    exact hid
  case RecordSchemaTooNew =>
    refine .inl ?_
    repeat with_reducible apply third_append
    exact hcorpus
  case NativeUidPrefix =>
    refine .inl ?_
    repeat with_reducible apply third_append
    exact hnative
  case NativeUidUuidV4 =>
    refine .inl ?_
    repeat with_reducible apply third_append
    exact hnative
  all_goals
    refine .inl ?_
    repeat with_reducible apply third_append
    exact hpatch

/-- No error reads as a message of the drift comparison, which starts with
`candidate`. -/
theorem SourcePatchError.to_string_ne [StrDebug] (error : SourcePatchError) (rest : String) :
    error.to_string ≠ "candidate " ++ rest := by
  intro h
  have hother : third ("candidate " ++ rest) = some 'n' := third_append (by decide +kernel)
  rcases third_to_string error with hthird | hthird
  · rw [h, hother] at hthird
    exact nomatch Option.some.inj hthird
  · rw [h, hother] at hthird
    exact nomatch Option.some.inj hthird

end Evidence.Corpus
