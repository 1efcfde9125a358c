/-
`corpus/proposal/record.rs` and `corpus/proposal/error.rs` -- the schema of a proposal
file, and the validation of a record and of the content it proposes.

An append validates the submitter and the content before it writes anything; reading
a file back validates the whole record. The two are different selections of the same
rules: the uid shapes and the timestamp are checked on read-back only, where the
append relies on having minted them.
-/
import Evidence.Formats
import Evidence.Corpus.Lifecycle

set_option autoImplicit false

namespace Evidence.Corpus.Proposal

open Check

/-! ## Digests and errors -/

/-- SHA-256 over the raw bytes of a proposal file. -/
structure ProposalFileDigest where
  as_str : String
  valid : is_valid_digest_hex as_str = true

/-- Digests are compared as texts. -/
instance : DecidableEq ProposalFileDigest := fun a b =>
  decidable_of_iff (a.as_str = b.as_str) <| by rw [ProposalFileDigest.mk.injEq]

/-- `ProposalFileDigest::from_hasher_output(crate::hash::sha256(bytes))`. -/
def ProposalFileDigest.of_bytes [Sha256] (bytes : List UInt8) : ProposalFileDigest :=
  ⟨sha256 bytes, Sha256.sha256_hex bytes⟩

/-- The failures of appends, of the revision guards, and of strict read-back, without
the sources of the file-system and parser errors. -/
inductive ProposalError where
  | ProposalRead (path : String)
  | ProposalWrite (path : String)
  | ProposalSerialize (path : String)
  | ProposalParse (path : String)
  | ProposalSchema (path : String) (found supported : UInt32)
  | ProposalSubmitter (path uid : String)
  | ProposalTimestamp (path uid value : String)
  | ProposalTargetMissing (uid : String)
  | ProposalLifecycle (uid : String) (state : RequirementLifecycle)
  | ProposalLifecycleEvaluation (source : LifecycleError)
  | ProposalDigestMismatch (uid : String) (expected actual : ReviewContentDigest)
  | ProposalExists (path : String)
  | NativeUidPrefix (uid expected : String)
  | NativeUidUuidV4 (uid : String)
  | ProposalContentTitle (path uid : String)
  | ProposalContentDerivesFrom (path uid target : String)
  | ProposalContentVerificationMethodsOrder (path uid first second : String)
  | ProposalContentVerificationMethodsDuplicate (path uid method : String)
deriving DecidableEq

/-! ## The schema -/

/-- Highest proposal-file schema version this tool loads. -/
def SUPPORTED_PROPOSAL_SCHEMA : UInt32 := 1

/-- Typed uid prefix for proposal records. -/
def PROPOSAL_UID_PREFIX : String := "prop_"

/-- Typed uid prefix for requirement records. -/
def REQUIREMENT_UID_PREFIX : String := "req_"

/-- Full replacement content for a candidate. -/
structure ProposedRequirementContent where
  title : String
  layer : RequirementLayer
  description : Option String
  rationale : Option String
  scope : Option String
  category : Option String
  source : Option String
  verification_methods : List String
  derives_from : List String
  safety_impact : Option String
deriving DecidableEq

/-- The only two representable proposal actions. -/
inductive ProposalAction where
  | CreateCandidate (candidate_uid : String) (content : ProposedRequirementContent)
  | ReviseCandidate (base_uid : String) (expected_current_digest : ReviewContentDigest)
      (content : ProposedRequirementContent)
deriving DecidableEq

/-- The proposed content, regardless of action kind. -/
def ProposalAction.content : ProposalAction → ProposedRequirementContent
  | .CreateCandidate _ content => content
  | .ReviseCandidate _ _ content => content

structure ProposalRecord where
  uid : String
  submitter : String
  submitted_at : String
  action : ProposalAction
deriving DecidableEq

/-- On-disk shape of a proposal file. -/
structure ProposalFile where
  schema_version : UInt32
  proposal : ProposalRecord
deriving DecidableEq

/-- The `toml` crate at the schema type: `to_string_pretty`, and the strict parser. -/
class ProposalToml where
  to_string_pretty : ProposalFile → Option String
  from_str : String → Option ProposalFile

export ProposalToml (to_string_pretty from_str)

/-! ## Validation -/

section Validation

variable [Formats]

/-- One entry of `derives_from` against the entries before it. -/
def check_target (path uid : String) (seen : List String) (target : String) :
    Except ProposalError (List String) := do
  validate_native_uid target REQUIREMENT_UID_PREFIX .NativeUidPrefix .NativeUidUuidV4
  failIf (target ∈ seen) (.ProposalContentDerivesFrom path uid target)
  .ok (target :: seen)

omit [Formats] in
/-- One window of two methods: `first == second` is told before `first > second`. -/
def check_window (path uid : String) (pair : String × String) : Except ProposalError Unit := do
  failIf (pair.1 = pair.2) (.ProposalContentVerificationMethodsDuplicate path uid pair.1)
  failIf (pair.2 < pair.1) (.ProposalContentVerificationMethodsOrder path uid pair.1 pair.2)

/-- The semantic content contract. -/
def validate_content (path uid : String) (content : ProposedRequirementContent) :
    Except ProposalError Unit := do
  failIf (is_blank content.title = true) (.ProposalContentTitle path uid)
  let _ ← content.derives_from.foldlM (check_target path uid) []
  (content.verification_methods.zip content.verification_methods.tail).forM
    (check_window path uid)

/-- The requirement uid that an action carries: minted for a creation, named by the
caller for a revision. -/
def ProposalAction.requirement_uid : ProposalAction → String
  | .CreateCandidate candidate_uid _ => candidate_uid
  | .ReviseCandidate base_uid _ _ => base_uid

/-- A record's fields in declaration order. -/
def validate_record (path : String) (record : ProposalRecord) : Except ProposalError Unit := do
  validate_native_uid record.uid PROPOSAL_UID_PREFIX .NativeUidPrefix .NativeUidUuidV4
  failIf (is_blank record.submitter = true) (.ProposalSubmitter path record.uid)
  failIf (is_rfc3339 record.submitted_at = false)
    (.ProposalTimestamp path record.uid record.submitted_at)
  validate_native_uid record.action.requirement_uid REQUIREMENT_UID_PREFIX .NativeUidPrefix
    .NativeUidUuidV4
  validate_content path record.uid record.action.content

end Validation

end Evidence.Corpus.Proposal
