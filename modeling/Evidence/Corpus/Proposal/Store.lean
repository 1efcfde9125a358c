/-
`corpus/proposal.rs` -- the append-only proposal store.

The files are a map from paths to bytes. An append draws from outside the identities it
mints, the reading of the clock, and whether the file system fails the write; the
`toml` crate is the class `ProposalToml`. The store's own operations are translated as
functions on the map of files.

The main result is about a whole run of appends (`proposals_append_only`): no file that
exists ever changes, a successful append adds one file that reads back as what was
submitted from then on, and a failed one that did not fail in the file system changes
nothing. A successful revision has passed every guard, and the graph it was checked
against is valid.
-/
import Evidence.Bundle.Signing
import Evidence.Lib.Growth
import Evidence.Corpus.Proposal.Record

set_option autoImplicit false

namespace Evidence.Corpus.Proposal

open Evidence.Bundle Check Growth

/-! ## Files -/

/-- The files, by path. -/
abbrev Files := String → Option (List UInt8)

/-- How the file system fails a write: it does not open a new file, or it stops after
some bytes, and the removal of the partial file succeeds or not. -/
inductive WriteFault where
  | open_failed
  | write_failed (written : List UInt8) (removed : Bool)

/-- `root.join(name)`. -/
def join (root name : String) : String :=
  if root.toList.getLast? = some '/' then root ++ name else root ++ "/" ++ name

/-- Exclusive creation: an existing file is never overwritten. -/
def write_exclusive_blocking (fault : Option WriteFault) (path : String) (bytes : List UInt8)
    (files : Files) : Except ProposalError Unit × Files :=
  match fault, files path with
  | some .open_failed, _ => (.error (.ProposalWrite path), files)
  | _, some _ => (.error (.ProposalExists path), files)
  | none, none => (.ok (), Function.update files path (some bytes))
  | some (.write_failed written removed), none =>
    (.error (.ProposalWrite path),
      Function.update files path (if removed then none else some written))

/-! ## Appends -/

/-- What one append draws from outside: the texts of the UUIDs it may mint, the clock, and
the fault of the write. -/
structure Draws where
  candidate_v4 : String
  proposal_v4 : String
  now : String
  fault : Option WriteFault

/-- The draws are what their sources document: `Uuid::new_v4` displays as a UUIDv4, and
`to_rfc3339` as a timestamp. -/
structure Draws.Documented [Formats] (draws : Draws) : Prop where
  candidate_v4 : is_uuid_v4 draws.candidate_v4 = true
  proposal_v4 : is_uuid_v4 draws.proposal_v4 = true
  now : is_rfc3339 draws.now = true

/-- Mint a corpus-native uid: the kind's prefix plus a fresh UUIDv4. -/
def mint_uid (kind : String) (new_v4 : String) : String := kind ++ new_v4

/-- The result of one successful append. -/
structure AppendOutcome where
  path : String
  proposal_uid : String
  candidate_uid : Option String
  content_digest : ProposalFileDigest

def ProposalAction.candidate_uid : ProposalAction → Option String
  | .CreateCandidate candidate_uid _ => some candidate_uid
  | .ReviseCandidate _ _ _ => none

section Store

variable [Formats] [Sha256] [F64Display] [ProposalToml]

/-- The file that an append writes. -/
def proposal_file (draws : Draws) (submitter : String) (action : ProposalAction) : ProposalFile where
  schema_version := SUPPORTED_PROPOSAL_SCHEMA
  proposal :=
    { uid := mint_uid PROPOSAL_UID_PREFIX draws.proposal_v4
      submitter := submitter
      submitted_at := draws.now
      action := action }

/-- What an append does before it writes: the fields that can fail, and the text of the
file. -/
def prepare (path : String) (draws : Draws) (submitter : String) (action : ProposalAction) :
    Except ProposalError String := do
  let proposal_uid := mint_uid PROPOSAL_UID_PREFIX draws.proposal_v4
  failIf (is_blank submitter = true) (.ProposalSubmitter path proposal_uid)
  validate_content path proposal_uid action.content
  match to_string_pretty (proposal_file draws submitter action) with
  | none => .error (.ProposalSerialize path)
  | some serialized => .ok serialized

/-- Shared tail of both appends: mint the proposal uid and timestamp, validate, serialize,
and write the record beneath the root. -/
def append_blocking (root : String) (draws : Draws) (submitter : String) (action : ProposalAction)
    (files : Files) : Except ProposalError AppendOutcome × Files :=
  let proposal_uid := mint_uid PROPOSAL_UID_PREFIX draws.proposal_v4
  let path := join root (proposal_uid ++ ".toml")
  match prepare path draws submitter action with
  | .error e => (.error e, files)
  | .ok serialized =>
    let written := write_exclusive_blocking draws.fault path (str_bytes serialized) files
    (written.1.map fun _ =>
        { path := path
          proposal_uid := proposal_uid
          candidate_uid := action.candidate_uid
          content_digest := .of_bytes (str_bytes serialized) },
      written.2)

def append_create_candidate_blocking (root : String) (draws : Draws) (submitter : String)
    (content : ProposedRequirementContent) (files : Files) :
    Except ProposalError AppendOutcome × Files :=
  append_blocking root draws submitter
    (.CreateCandidate (mint_uid REQUIREMENT_UID_PREFIX draws.candidate_v4) content) files

/-- The guards of a revision. -/
def check_revision (graph : CorpusGraph) (base_uid : String)
    (expected_current_digest : ReviewContentDigest) : Except ProposalError Unit := do
  validate_native_uid base_uid REQUIREMENT_UID_PREFIX .NativeUidPrefix .NativeUidUuidV4
  failIf ((graph.review_content base_uid).isNone = true) (.ProposalTargetMissing base_uid)
  let evaluation ← (evaluate_lifecycle graph base_uid).mapError .ProposalLifecycleEvaluation
  failIf (evaluation.state ≠ .Candidate) (.ProposalLifecycle base_uid evaluation.state)
  failIf (evaluation.current_digest ≠ expected_current_digest)
    (.ProposalDigestMismatch base_uid expected_current_digest evaluation.current_digest)

/-- Append a proposal replacing the full content of an existing candidate. -/
def append_revise_candidate_blocking (root : String) (draws : Draws) (graph : CorpusGraph)
    (base_uid : String) (expected_current_digest : ReviewContentDigest) (submitter : String)
    (content : ProposedRequirementContent) (files : Files) :
    Except ProposalError AppendOutcome × Files :=
  match check_revision graph base_uid expected_current_digest with
  | .error e => (.error e, files)
  | .ok () =>
    append_blocking root draws submitter
      (.ReviseCandidate base_uid expected_current_digest content) files

def read_proposal_blocking (files : Files) (path : String) : Except ProposalError ProposalFile :=
  match (files path).bind from_utf8 with
  | none => .error (.ProposalRead path)
  | some raw =>
    match from_str raw with
    | none => .error (.ProposalParse path)
    | some file => do
      failIf (SUPPORTED_PROPOSAL_SCHEMA < file.schema_version)
        (.ProposalSchema path file.schema_version SUPPORTED_PROPOSAL_SCHEMA)
      validate_record path file.proposal
      .ok file

/-! ## Runs -/

inductive Request where
  | create (submitter : String) (content : ProposedRequirementContent)
  | revise (graph : CorpusGraph) (base_uid : String)
      (expected_current_digest : ReviewContentDigest) (submitter : String)
      (content : ProposedRequirementContent)

def Request.submitter : Request → String
  | .create submitter _ => submitter
  | .revise _ _ _ submitter _ => submitter

def Request.action (draws : Draws) : Request → ProposalAction
  | .create _ content =>
    .CreateCandidate (mint_uid REQUIREMENT_UID_PREFIX draws.candidate_v4) content
  | .revise _ base_uid expected_current_digest _ content =>
    .ReviseCandidate base_uid expected_current_digest content

def Request.serve (root : String) (draws : Draws) (files : Files) :
    Request → Except ProposalError AppendOutcome × Files
  | .create submitter content =>
    append_create_candidate_blocking root draws submitter content files
  | .revise graph base_uid expected_current_digest submitter content =>
    append_revise_candidate_blocking root draws graph base_uid expected_current_digest submitter
      content files

/-- The files after a sequence of requests, each with its draws. -/
def run (root : String) (files : Files) (requests : List (Draws × Request)) : Files :=
  requests.foldl (fun files request => (request.2.serve root request.1 files).2) files

/-! ## What a write leaves -/

omit [Formats] [Sha256] [F64Display] [ProposalToml] in
theorem write_exclusive_extends (fault : Option WriteFault) (path : String) (bytes : List UInt8)
    (files : Files) : Extends files (write_exclusive_blocking fault path bytes files).2 := by
  unfold write_exclusive_blocking
  split
  · exact Extends.refl files
  · exact Extends.refl files
  · rename_i hfree
    exact extends_update hfree _
  · rename_i hfree
    exact extends_update hfree _

omit [Formats] [Sha256] [F64Display] [ProposalToml] in
theorem write_exclusive_ok {fault : Option WriteFault} {path : String} {bytes : List UInt8}
    {files : Files} (h : (write_exclusive_blocking fault path bytes files).1 = .ok ()) :
    files path = none ∧
      (write_exclusive_blocking fault path bytes files).2 =
        Function.update files path (some bytes) := by
  unfold write_exclusive_blocking at h ⊢
  split at h
  · cases h
  · cases h
  · rename_i hfree
    exact ⟨hfree, rfl⟩
  · cases h

omit [Formats] [Sha256] [F64Display] [ProposalToml] in
theorem write_exclusive_error {fault : Option WriteFault} {path : String} {bytes : List UInt8}
    {files : Files} {e : ProposalError}
    (h : (write_exclusive_blocking fault path bytes files).1 = .error e)
    (hwrite : ∀ path, e ≠ .ProposalWrite path) :
    (write_exclusive_blocking fault path bytes files).2 = files := by
  unfold write_exclusive_blocking at h ⊢
  split at h
  · rfl
  · rfl
  · cases h
  · exact absurd (Except.error.inj h).symm (hwrite path)

/-! ## What an append leaves -/

/-- The path that an append writes. -/
def proposal_path (root : String) (draws : Draws) : String :=
  join root (mint_uid PROPOSAL_UID_PREFIX draws.proposal_v4 ++ ".toml")

/-- What a successful append returns. -/
def append_outcome (root : String) (draws : Draws) (action : ProposalAction)
    (serialized : String) : AppendOutcome where
  path := proposal_path root draws
  proposal_uid := mint_uid PROPOSAL_UID_PREFIX draws.proposal_v4
  candidate_uid := action.candidate_uid
  content_digest := .of_bytes (str_bytes serialized)

omit [Sha256] [F64Display] in
theorem append_unprepared [Sha256] {root : String} {draws : Draws} {submitter : String}
    {action : ProposalAction} {files : Files} {e : ProposalError}
    (h : prepare (proposal_path root draws) draws submitter action = .error e) :
    append_blocking root draws submitter action files = (.error e, files) := by
  rw [proposal_path] at h
  simp only [append_blocking, h]

omit [F64Display] in
theorem append_prepared {root : String} {draws : Draws} {submitter : String}
    {action : ProposalAction} {files : Files} {serialized : String}
    (h : prepare (proposal_path root draws) draws submitter action = .ok serialized) :
    append_blocking root draws submitter action files =
      ((write_exclusive_blocking draws.fault (proposal_path root draws) (str_bytes serialized)
          files).1.map fun _ => append_outcome root draws action serialized,
        (write_exclusive_blocking draws.fault (proposal_path root draws) (str_bytes serialized)
          files).2) := by
  rw [proposal_path] at h
  simp only [append_blocking, h]
  rfl

omit [F64Display] in
theorem append_extends (root : String) (draws : Draws) (submitter : String)
    (action : ProposalAction) (files : Files) :
    Extends files (append_blocking root draws submitter action files).2 := by
  cases hprepare : prepare (proposal_path root draws) draws submitter action with
  | error e =>
    rw [append_unprepared hprepare]
    exact Extends.refl files
  | ok serialized =>
    rw [append_prepared hprepare]
    exact write_exclusive_extends _ _ _ _

omit [F64Display] in
theorem append_ok {root : String} {draws : Draws} {submitter : String} {action : ProposalAction}
    {files : Files} {outcome : AppendOutcome}
    (h : (append_blocking root draws submitter action files).1 = .ok outcome) :
    ∃ serialized, prepare (proposal_path root draws) draws submitter action = .ok serialized ∧
      outcome = append_outcome root draws action serialized ∧
      files (proposal_path root draws) = none ∧
      (append_blocking root draws submitter action files).2 =
        Function.update files (proposal_path root draws) (some (str_bytes serialized)) := by
  cases hprepare : prepare (proposal_path root draws) draws submitter action with
  | error e =>
    rw [append_unprepared hprepare] at h
    cases h
  | ok serialized =>
    rw [append_prepared hprepare] at h
    obtain ⟨_, hwritten, houtcome⟩ := map_ok_iff.mp h
    obtain ⟨hfree, hfiles⟩ := write_exclusive_ok hwritten
    refine ⟨serialized, rfl, houtcome.symm, hfree, ?_⟩
    rw [append_prepared hprepare]
    exact hfiles

omit [F64Display] in
theorem append_error {root : String} {draws : Draws} {submitter : String}
    {action : ProposalAction} {files : Files} {e : ProposalError}
    (h : (append_blocking root draws submitter action files).1 = .error e)
    (hwrite : ∀ path, e ≠ .ProposalWrite path) :
    (append_blocking root draws submitter action files).2 = files := by
  cases hprepare : prepare (proposal_path root draws) draws submitter action with
  | error e' =>
    rw [append_unprepared hprepare]
  | ok serialized =>
    rw [append_prepared hprepare] at h ⊢
    cases hwritten : (write_exclusive_blocking draws.fault (proposal_path root draws)
        (str_bytes serialized) files).1 with
    | error e' =>
      rw [hwritten] at h
      cases h
      exact write_exclusive_error hwritten hwrite
    | ok =>
      rw [hwritten] at h
      cases h

/-! ## What is read back -/

omit [Sha256] [F64Display] [ProposalToml] in
theorem validate_minted {ε : Type} {kind new_v4 : String} (h : is_uuid_v4 new_v4 = true)
    ( native_uid_prefix : String → String → ε) (native_uid_uuid_v4 : String → ε) :
    validate_native_uid (mint_uid kind new_v4) kind native_uid_prefix native_uid_uuid_v4 =
      .ok () := by
  rw [validate_native_uid, mint_uid, strip_prefix_append]
  simp only [h, if_true]

omit [Sha256] [F64Display] in
theorem prepare_ok {path : String} {draws : Draws} {submitter : String} {action : ProposalAction}
    {serialized : String} (h : prepare path draws submitter action = .ok serialized) :
    is_blank submitter = false ∧
      validate_content path (mint_uid PROPOSAL_UID_PREFIX draws.proposal_v4) action.content =
        .ok () ∧
      to_string_pretty (proposal_file draws submitter action) = some serialized := by
  obtain ⟨hsubmitter, h⟩ := seq_ok_iff.mp h
  obtain ⟨hcontent, h⟩ := seq_ok_iff.mp h
  refine ⟨Bool.eq_false_iff.mpr (failIf_ok_iff.mp hsubmitter), hcontent, ?_⟩
  split at h
  · cases h
  · rename_i htext
    rw [htext, Except.ok.inj h]

omit [Sha256] [F64Display] in
/-- **A prepared file is read back.** The record was checked in part when it was prepared;
the rest of the rules hold of what was minted. -/
theorem read_prepared {path : String} {draws : Draws} {submitter : String}
    {action : ProposalAction} {serialized : String} {files : Files}
    (htoml : ∀ file text, to_string_pretty file = some text → from_str text = some file)
    (hdraws : draws.Documented)
    (haction : validate_native_uid action.requirement_uid REQUIREMENT_UID_PREFIX
      ProposalError.NativeUidPrefix .NativeUidUuidV4 = .ok ())
    (hprepare : prepare path draws submitter action = .ok serialized)
    (hfile : files path = some (str_bytes serialized)) :
    read_proposal_blocking files path = .ok (proposal_file draws submitter action) := by
  obtain ⟨hsubmitter, hcontent, htext⟩ := prepare_ok hprepare
  have hschema : failIf (SUPPORTED_PROPOSAL_SCHEMA <
      (proposal_file draws submitter action).schema_version)
      (ProposalError.ProposalSchema path (proposal_file draws submitter action).schema_version
        SUPPORTED_PROPOSAL_SCHEMA) = .ok () :=
    failIf_ok_iff.mpr (UInt32.lt_irrefl _)
  have hrecord : validate_record path (proposal_file draws submitter action).proposal =
      .ok () := by
    refine seq_ok_iff.mpr ⟨validate_minted hdraws.proposal_v4 _ _, ?_⟩
    refine seq_ok_iff.mpr ⟨failIf_ok_iff.mpr (Bool.eq_false_iff.mp hsubmitter), ?_⟩
    refine seq_ok_iff.mpr ⟨failIf_ok_iff.mpr ?_, ?_⟩
    · rw [proposal_file, hdraws.now]
      exact Bool.noConfusion
    · exact seq_ok_iff.mpr ⟨haction, hcontent⟩
  rw [read_proposal_blocking, hfile, Option.bind_some, from_utf8_str_bytes]
  simp only [htoml _ _ htext]
  exact seq_ok_iff.mpr ⟨hschema, seq_ok_iff.mpr ⟨hrecord, rfl⟩⟩

/-! ## What the guards check -/

structure Revisable (graph : CorpusGraph) (base_uid : String)
    (expected_current_digest : ReviewContentDigest) : Prop where
  valid : graph.validate = .ok ()
  candidate : ∃ node, graph.get base_uid = some (.Requirement node) ∧
    review_content_digest_v1 (.from_node node) = expected_current_digest ∧
    derive_state (effective_heads graph (.Requirement base_uid)) expected_current_digest.as_str =
      .Candidate

omit [ProposalToml] in
/-- **A guarded revision targets a candidate.** -/
theorem check_revision_ok {graph : CorpusGraph} {base_uid : String}
    {expected_current_digest : ReviewContentDigest}
    (h : check_revision graph base_uid expected_current_digest = .ok ()) :
    validate_native_uid base_uid REQUIREMENT_UID_PREFIX ProposalError.NativeUidPrefix
        .NativeUidUuidV4 = .ok () ∧
      Revisable graph base_uid expected_current_digest := by
  obtain ⟨huid, h⟩ := seq_ok_iff.mp h
  obtain ⟨hpresent, h⟩ := seq_ok_iff.mp h
  obtain ⟨evaluation, hevaluation, h⟩ := bind_ok_iff.mp h
  obtain ⟨hstate, hdigest⟩ := seq_ok_iff.mp h
  obtain ⟨hvalid, hevaluated⟩ := seq_ok_iff.mp (mapError_ok_iff.mp hevaluation)
  refine ⟨huid, mapError_ok_iff.mp hvalid, ?_⟩
  have hnode : ∃ node, graph.get base_uid = some (.Requirement node) := by
    have hsome := failIf_ok_iff.mp hpresent
    unfold CorpusGraph.review_content at hsome
    split at hsome
    · rename_i node hget
      exact ⟨node, hget⟩
    · exact absurd rfl hsome
  obtain ⟨node, hget⟩ := hnode
  have hcontent : graph.review_content base_uid = some (.from_node node) := by
    rw [CorpusGraph.review_content, hget]
  rw [evaluate_lifecycle_validated, hcontent] at hevaluated
  have heq := Except.ok.inj hevaluated
  have hdigest := not_not.mp (failIf_ok_iff.mp hdigest)
  have hstate := not_not.mp (failIf_ok_iff.mp hstate)
  rw [← heq] at hdigest hstate
  refine ⟨node, hget, hdigest, ?_⟩
  rw [← hdigest]
  exact hstate

/-! ## Requests -/

theorem serve_cases (root : String) (draws : Draws) (files : Files) (request : Request) :
    (∃ e, request.serve root draws files = (.error e, files)) ∨
      (request.serve root draws files =
          append_blocking root draws request.submitter (request.action draws) files ∧
        ∀ graph base_uid expected submitter content,
          request = .revise graph base_uid expected submitter content →
            check_revision graph base_uid expected = .ok ()) := by
  cases request with
  | create submitter content =>
    right
    refine ⟨rfl, ?_⟩
    intro graph base_uid expected submitter' content' hrequest
    cases hrequest
  | revise graph base_uid expected submitter content =>
    rw [Request.serve, append_revise_candidate_blocking]
    cases hguards : check_revision graph base_uid expected with
    | error e => exact .inl ⟨e, rfl⟩
    | ok =>
      right
      refine ⟨rfl, ?_⟩
      intro graph' base_uid' expected' submitter' content' hrequest
      cases hrequest
      exact hguards

theorem serve_extends (root : String) (draws : Draws) (files : Files) (request : Request) :
    Extends files (request.serve root draws files).2 := by
  rcases serve_cases root draws files request with ⟨e, hserve⟩ | ⟨hserve, -⟩
  · rw [hserve]
    exact Extends.refl files
  · rw [hserve]
    exact append_extends root draws _ _ files

/-- What a successful request leaves: one new file, named after the minted uid, whose bytes
have the returned digest, and which reads back as the submitted record in whatever the
files become. -/
structure Appended (root : String) (draws : Draws) (request : Request) (files files' : Files)
    (outcome : AppendOutcome) : Prop where
  proposal_uid : outcome.proposal_uid = mint_uid PROPOSAL_UID_PREFIX draws.proposal_v4
  candidate_uid : outcome.candidate_uid = (request.action draws).candidate_uid
  path : outcome.path = join root (outcome.proposal_uid ++ ".toml")
  new : files outcome.path = none
  added : ∃ bytes, files' = Function.update files outcome.path (some bytes) ∧
    outcome.content_digest = .of_bytes bytes
  read_back : ∀ later, Extends files' later →
    read_proposal_blocking later outcome.path =
      .ok (proposal_file draws request.submitter (request.action draws))
  target : ∀ graph base_uid expected submitter content,
    request = .revise graph base_uid expected submitter content →
      Revisable graph base_uid expected

omit [ProposalToml] in
theorem action_uid {draws : Draws} (hdraws : draws.Documented) {request : Request}
    (hguards : ∀ graph base_uid expected submitter content,
      request = .revise graph base_uid expected submitter content →
        check_revision graph base_uid expected = .ok ()) :
    validate_native_uid (request.action draws).requirement_uid REQUIREMENT_UID_PREFIX
      ProposalError.NativeUidPrefix .NativeUidUuidV4 = .ok () := by
  cases request with
  | create submitter content => exact validate_minted hdraws.candidate_v4 _ _
  | revise graph base_uid expected submitter content =>
    exact (check_revision_ok (hguards _ _ _ _ _ rfl)).1

/-- **A successful request adds one file, that reads back as what was submitted.** -/
theorem serve_ok {root : String} {draws : Draws} {files : Files} {request : Request}
    {outcome : AppendOutcome}
    (htoml : ∀ file text, to_string_pretty file = some text → from_str text = some file)
    (hdraws : draws.Documented)
    (h : (request.serve root draws files).1 = .ok outcome) :
    Appended root draws request files (request.serve root draws files).2 outcome := by
  rcases serve_cases root draws files request with ⟨e, hserve⟩ | ⟨hserve, hguards⟩
  · rw [hserve] at h
    cases h
  · rw [hserve] at h ⊢
    obtain ⟨serialized, hprepare, houtcome, hfree, hfiles⟩ := append_ok h
    subst houtcome
    refine ⟨rfl, rfl, rfl, hfree, ⟨_, hfiles, rfl⟩, ?_, ?_⟩
    · intro later hlater
      refine read_prepared htoml hdraws (action_uid hdraws hguards) hprepare ?_
      refine hlater _ _ ?_
      rw [hfiles]
      exact Function.update_self _ _ _
    · intro graph base_uid expected submitter content hrequest
      exact (check_revision_ok (hguards graph base_uid expected submitter content hrequest)).2

theorem serve_error {root : String} {draws : Draws} {files : Files} {request : Request}
    {e : ProposalError} (h : (request.serve root draws files).1 = .error e)
    (hwrite : ∀ path, e ≠ .ProposalWrite path) :
    (request.serve root draws files).2 = files := by
  rcases serve_cases root draws files request with ⟨e', hserve⟩ | ⟨hserve, -⟩
  · rw [hserve]
  · rw [hserve] at h ⊢
    exact append_error h hwrite

theorem run_extends (root : String) (files : Files) (requests : List (Draws × Request)) :
    Extends files (run root files requests) := by
  refine extends_foldl ?_ files requests
  intro files request
  exact serve_extends root request.1 files request.2

/-- **The store is append-only, and what it appends reads back.** At any point of any run of
requests: the run keeps every file; a successful request adds one file, which reads back
there and at the end of the run as what was submitted; and a request that fails otherwise
than in the file system changes no file. -/
theorem proposals_append_only (root : String) (files : Files)
    (before after : List (Draws × Request)) (draws : Draws) (request : Request)
    (htoml : ∀ file text, to_string_pretty file = some text → from_str text = some file)
    (hdraws : draws.Documented) :
    let start := run root files before
    let served := request.serve root draws start
    let final := run root files (before ++ (draws, request) :: after)
    Extends files start ∧ Extends start served.2 ∧ Extends served.2 final ∧
      (∀ outcome, served.1 = .ok outcome →
        Appended root draws request start served.2 outcome ∧
          read_proposal_blocking final outcome.path =
            .ok (proposal_file draws request.submitter (request.action draws))) ∧
      ∀ e, served.1 = .error e → (∀ path, e ≠ .ProposalWrite path) → served.2 = start := by
  intro start served final
  have hfinal : final = run root served.2 after := by
    show List.foldl _ files (before ++ (draws, request) :: after) = _
    rw [List.foldl_append, List.foldl_cons]
    rfl
  have hlater : Extends served.2 final := by
    rw [hfinal]
    exact run_extends root served.2 after
  refine ⟨run_extends root files before, serve_extends root draws start request, hlater, ?_, ?_⟩
  · intro outcome houtcome
    have happended := serve_ok htoml hdraws houtcome
    exact ⟨happended, happended.read_back final hlater⟩
  · intro e herror hwrite
    exact serve_error herror hwrite

end Store

/-! ## A sample run -/

/-- The content of a new candidate. -/
def sample_content : ProposedRequirementContent where
  title := "Brake on loss of signal"
  layer := .Derived
  description := some "The controller applies the brake."
  rationale := none
  scope := none
  category := none
  source := none
  verification_methods := ["review", "test"]
  derives_from := []
  safety_impact := some "high"

def sample_draws : Draws where
  candidate_v4 := "00000000-0000-4000-8000-00000000000a"
  proposal_v4 := "00000000-0000-4000-8000-00000000000b"
  now := "2026-01-01T00:00:00Z"
  fault := none

/-- The file that the sample run writes. -/
def sample_file : ProposalFile :=
  proposal_file sample_draws "agent"
    (.CreateCandidate "req_00000000-0000-4000-8000-00000000000a" sample_content)

/-- A serializer that knows the sample file. -/
@[reducible] def sample_toml : ProposalToml where
  to_string_pretty := fun file => if file = sample_file then some "schema_version = 1" else none
  from_str := fun text => if text = "schema_version = 1" then some sample_file else none

attribute [local instance] canonical_formats fips180 F64.exact_display sample_toml

/-- A proposal is appended and reads back, and the same identities are then refused. -/
theorem proposals_append_only_sample :
    let request := Request.create "agent" sample_content
    let requests := [(sample_draws, request), (sample_draws, request)]
    ∃ outcome,
      (request.serve "/proposals" sample_draws fun _ => none).1 = .ok outcome ∧
        read_proposal_blocking (run "/proposals" (fun _ => none) requests) outcome.path =
          .ok sample_file := by
  intro request requests
  have htoml : ∀ file text, to_string_pretty file = some text → from_str text = some file := by
    intro file text h
    change (if file = sample_file then some "schema_version = 1" else none) = some text at h
    by_cases hfile : file = sample_file
    · rw [if_pos hfile] at h
      rw [← Option.some.inj h, hfile]
      exact if_pos rfl
    · rw [if_neg hfile] at h
      cases h
  have hdraws : sample_draws.Documented := by
    constructor <;> decide +kernel
  have hserved : (request.serve "/proposals" sample_draws fun _ => none).1 =
      .ok (append_outcome "/proposals" sample_draws (request.action sample_draws)
        "schema_version = 1") := by
    rfl
  obtain ⟨-, -, -, hok, -⟩ := proposals_append_only "/proposals" (fun _ => none) []
    [(sample_draws, request)] sample_draws request htoml hdraws
  exact ⟨_, hserved, (hok _ hserved).2⟩

end Evidence.Corpus.Proposal
