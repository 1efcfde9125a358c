/-
The output formats of `cargo evidence verify`, compared.

A script branches on the exit code, a reader of the stream on the terminal event, a
reader of the envelope on `success`, and a person on the line that is printed. All four
say the same of a run, in every format, unless the verification was begun and ended in a
fault: then the stream says that the tool could not run, and the other formats say that
the bundle was found wanting.
-/
import Evidence.Cli.Verify

set_option autoImplicit false

namespace Evidence.Cli

open Evidence.Bundle

/-! ## What each format says of a run -/

/-- The exit code a terminal event stands for. -/
def Terminal.exit : Terminal → ℤ
  | .Ok => EXIT_SUCCESS
  | .Fail => EXIT_VERIFICATION_FAILURE
  | .Error => EXIT_ERROR

/-- The lines that report a success to a person. -/
def is_success_line (line : String) : Bool :=
  "verify: PASS".toList.isPrefixOf line.toList || "verify: SKIPPED".toList.isPrefixOf line.toList

section Formats

variable {Completeness : Type}

/-- A run of the human output reports success. -/
def human_success (run : Run Completeness) : Prop :=
  ∃ line, .Stdout line ∈ run.printed ∧ is_success_line line = true

/-- A run of the JSON output reports success. -/
def json_success (run : Run Completeness) : Prop :=
  ∃ output, .Envelope output ∈ run.printed ∧ output.success = true

/-- A run of the stream ends with its only terminal event, and that stands for the exit code. -/
def StreamEnds (run : Run Completeness) : Prop :=
  ∃ events terminal kind, run.printed = (events ++ [terminal]).map .Event ∧
    (∀ event ∈ events, terminal_of event.code = none) ∧
    terminal_of terminal.code = some kind ∧ run.exit = kind.exit

/-- **The formats agree.** -/
structure FormatsAgree (run : OutputFormat → Run Completeness) : Prop where
  json_exit : (run .Json).exit = (run .Human).exit
  jsonl_exit : (run .Jsonl).exit = (run .Human).exit
  stream_ends : StreamEnds (run .Jsonl)
  human_reports : human_success (run .Human) ↔ (run .Human).exit = EXIT_SUCCESS
  json_reports : json_success (run .Json) ↔ (run .Json).exit = EXIT_SUCCESS

/-- The document driver's half: what the two formats report fits the code, and the code is
the same. -/
structure DocumentsAgree (json human : Run Completeness) : Prop where
  exit : json.exit = human.exit
  human_reports : human_success human ↔ human.exit = EXIT_SUCCESS
  json_reports : json_success json ↔ json.exit = EXIT_SUCCESS

end Formats

/-! ## Codes, lines and terminals -/

theorem is_success_line_of_prefix {start : String} (rest : String)
    (hstart : start = "verify: PASS" ∨ start = "verify: SKIPPED") :
    is_success_line (start ++ rest) = true := by
  simp only [is_success_line, Bool.or_eq_true, List.isPrefixOf_iff_prefix, String.toList_append]
  rcases hstart with rfl | rfl
  · exact .inl (List.prefix_append _ _)
  · exact .inr (List.prefix_append _ _)

/-- The failures of the document driver return the codes of an error or of a finding. -/
theorem exit_failures :
    EXIT_ERROR ≠ EXIT_SUCCESS ∧ EXIT_VERIFICATION_FAILURE ≠ EXIT_SUCCESS := by
  decide

theorem stream_ends {Completeness : Type} {events : List Diagnostic} {terminal : Diagnostic}
    (kind : Terminal) (hevents : ∀ event ∈ events, terminal_of event.code = none)
    (hterminal : terminal_of terminal.code = some kind) :
    StreamEnds (stream events terminal kind.exit : Run Completeness) :=
  ⟨events, terminal, kind, rfl, hevents, hterminal, rfl⟩

theorem terminal_of_ok (message : String) : terminal_of (terminal_ok message).code = some .Ok := by
  simp only [terminal_ok, plain_diagnostic]
  decide +kernel

theorem terminal_of_fail (message : String) :
    terminal_of (terminal_fail message).code = some .Fail := by
  simp only [terminal_fail, plain_diagnostic]
  decide +kernel

theorem terminal_of_error (message : String) :
    terminal_of (terminal_error message).code = some .Error := by
  simp only [terminal_error, plain_diagnostic]
  decide +kernel

/-- Only findings that are a pre-release tool on the dev profile leave the stream without an
error. -/
theorem any_error_iff {errors : List VerifyError} (herrors : errors ≠ []) :
    errors.any (!VerifyError.dev_prerelease ·) = !all_prerelease_on_dev errors := by
  simp [all_prerelease_on_dev, herrors, List.all_eq_not_any_not]

/-! ## How far a run gets -/

/-- Where a run ends: before the verification, or with what that came to. -/
inductive Course where
  | NotFound
  | Unsigned
  | KeyFault (diagnostic : Diagnostic)
  | Verified (outcome : Except VerifyRuntimeError VerifyResult)

section Command

variable [DebugText] [Ed25519] {Completeness : Type} (s : Surroundings Completeness)
  (bundle_path : String)

/-- The course of a run with a key's path that was resolved. -/
def course (strict : Bool) (verify_key : Option String) : Course :=
  if !s.exists_at bundle_path then .NotFound
  else if strict_signature_missing s bundle_path strict verify_key then .Unsigned
  else
    match load_verify_key s verify_key with
    | .error diag => .KeyFault diag
    | .ok key => .Verified (s.verify_bundle_with_key key)

/-- The code both drivers return, unless the verification ends in a fault. -/
def Course.exit (strict : Bool) : Course → Option ℤ
  | .NotFound => some EXIT_ERROR
  | .Unsigned => some EXIT_VERIFICATION_FAILURE
  | .KeyFault _ => some EXIT_ERROR
  | .Verified (.ok .Pass) => some EXIT_SUCCESS
  | .Verified (.ok (.Fail errors)) =>
    some (if all_prerelease_on_dev errors then EXIT_SUCCESS else EXIT_VERIFICATION_FAILURE)
  | .Verified (.ok (.Skipped _)) =>
    some (if strict then EXIT_VERIFICATION_FAILURE else EXIT_SUCCESS)
  | .Verified (.error _) => none

/-! ## The document driver -/

omit [DebugText] in
/-- A failure is reported as one, in both formats. -/
theorem fail_verify_agrees (checks : List VerifyCheck) ( text_prefix msg : String)
    {exit_code : ℤ} (hexit : exit_code ≠ EXIT_SUCCESS) :
    DocumentsAgree (fail_verify s bundle_path true checks text_prefix msg exit_code)
      (fail_verify s bundle_path false checks text_prefix msg exit_code) where
  exit := by simp [fail_verify]
  human_reports := by simp [fail_verify, human_success, hexit]
  json_reports := by simp [fail_verify, json_success, envelope_of, hexit]

theorem report_pass_agrees :
    DocumentsAgree (report_pass s bundle_path true) (report_pass s bundle_path false) where
  exit := by simp [report_pass]
  human_reports := by
    have hline := is_success_line_of_prefix (" - bundle " ++ debug bundle_path) (.inl rfl)
    simp only [report_pass, human_success, List.mem_singleton, Bool.false_eq_true, if_false,
      Output.Stdout.injEq, iff_true]
    exact ⟨_, rfl, hline⟩
  json_reports := by simp [report_pass, json_success, envelope_of]

/-- A list of findings is a success where each is a pre-release tool on the dev profile; the
verdict comes after the warnings. -/
theorem report_fail_agrees (errors : List VerifyError) :
    DocumentsAgree (report_fail s bundle_path true errors)
      (report_fail s bundle_path false errors) := by
  by_cases hdev : all_prerelease_on_dev errors = true
  · have hline := is_success_line_of_prefix (" (with warning) - bundle " ++ debug bundle_path)
      (.inl rfl)
    refine ⟨by simp [report_fail, hdev], ?_, ?_⟩
    · simp only [report_fail, hdev, if_true, human_success, Bool.false_eq_true, if_false, iff_true]
      exact ⟨_, List.mem_append_right _ (List.mem_singleton.mpr rfl), hline⟩
    · simp only [report_fail, hdev, if_true, json_success, iff_true]
      exact ⟨_, List.mem_append_right _ (List.mem_singleton.mpr rfl), rfl⟩
  · have hfail := @fail_verify_agrees _ _ s bundle_path
      (bundle_exists_check :: errors.map failed_check) "verify: FAIL -"
      (String.intercalate "; " (errors.map VerifyError.display)) EXIT_VERIFICATION_FAILURE exit_failures.2
    simpa only [report_fail, hdev, Bool.false_eq_true, if_false] using hfail

omit [DebugText] in
theorem report_skipped_agrees (strict : Bool) (reason : String) :
    DocumentsAgree (report_skipped s bundle_path true strict reason)
      (report_skipped s bundle_path false strict reason) := by
  cases strict with
  | true =>
    exact ⟨rfl, by simp [report_skipped, human_success, EXIT_SUCCESS, EXIT_VERIFICATION_FAILURE],
      by simp [report_skipped, json_success, envelope_of, EXIT_SUCCESS, EXIT_VERIFICATION_FAILURE]⟩
  | false =>
    have hline := is_success_line_of_prefix (" - " ++ reason) (.inr rfl)
    refine ⟨rfl, ?_, by simp [report_skipped, json_success, envelope_of]⟩
    simp only [report_skipped, human_success, Bool.false_eq_true, if_false, List.mem_singleton,
      Output.Stdout.injEq, iff_true]
    exact ⟨_, rfl, hline⟩

/-- **What the document driver reports fits the code it returns**, and both formats return
the same one: that of the course, or that of a finding after a fault. -/
theorem cmd_verify_document_agrees (strict : Bool) (verify_key : Option String) :
    DocumentsAgree (cmd_verify_document s bundle_path true strict verify_key)
        (cmd_verify_document s bundle_path false strict verify_key) ∧
      (cmd_verify_document s bundle_path false strict verify_key).exit =
        ((course s bundle_path strict verify_key).exit strict).getD EXIT_VERIFICATION_FAILURE := by
  simp only [cmd_verify_document, course]
  by_cases hexists : s.exists_at bundle_path = true
  · simp only [hexists, Bool.not_true, Bool.false_eq_true, if_false]
    by_cases hsig : strict_signature_missing s bundle_path strict verify_key = true
    · simp only [if_pos hsig]
      exact ⟨fail_verify_agrees s bundle_path _ _ _ exit_failures.2, rfl⟩
    · simp only [if_neg hsig]
      cases load_verify_key s verify_key with
      | error diag => exact ⟨fail_verify_agrees s bundle_path _ _ _ exit_failures.1, rfl⟩
      | ok key =>
        dsimp only
        cases s.verify_bundle_with_key key with
        | error e => exact ⟨fail_verify_agrees s bundle_path _ _ _ exit_failures.2, rfl⟩
        | ok outcome =>
          cases outcome with
          | Pass => exact ⟨report_pass_agrees s bundle_path, rfl⟩
          | Fail errors =>
            refine ⟨report_fail_agrees s bundle_path errors, ?_⟩
            by_cases hdev : all_prerelease_on_dev errors = true <;>
              simp [report_fail, fail_verify, Course.exit, hdev]
          | Skipped reason =>
            refine ⟨report_skipped_agrees s bundle_path strict reason, ?_⟩
            cases strict <;> rfl
  · simp only [hexists, Bool.not_false, if_true]
    exact ⟨fail_verify_agrees s bundle_path _ _ _ exit_failures.1, rfl⟩

/-! ## The stream -/

omit [DebugText] in
theorem notices_not_terminal {event : Diagnostic}
    (hevent : event ∈ maybe_emit_bundle_incomplete_warning s bundle_path ++
      maybe_emit_llr_check_skipped_no_outcomes s bundle_path) :
    terminal_of event.code = none := by
  simp only [maybe_emit_bundle_incomplete_warning, maybe_emit_llr_check_skipped_no_outcomes,
    List.mem_append] at hevent
  rcases hevent with hevent | hevent
  · split at hevent
    · simp at hevent
    · split at hevent
      · simp at hevent
      · rw [List.mem_singleton.mp hevent]
        simp only [plain_diagnostic]
        decide +kernel
  · split at hevent
    · simp at hevent
    · rw [List.mem_singleton.mp hevent]
      simp only [plain_diagnostic]
      decide +kernel

omit [Ed25519] in
theorem finding_event_not_terminal (err : VerifyError) :
    terminal_of (finding_event err).code = none := by
  have hcode : (finding_event err).code = err.code := by
    simp only [finding_event]
    split <;> rfl
  rw [hcode, terminal_of_finding]

theorem key_fault_not_terminal {verify_key : Option String} {diag : Diagnostic}
    (hload : load_verify_key s verify_key = .error diag) : terminal_of diag.code = none := by
  simp only [load_verify_key] at hload
  split at hload
  · simp at hload
  · split at hload
    · simp at hload
    · simp only [Except.error.injEq] at hload
      subst hload
      simp only [classify_key_load_diagnostic]
      split
      · exact terminal_of_fault _
      · exact terminal_of_signing _

/-- **The stream ends with its only terminal event**, and returns the code of the course, or
that of an error after a fault. -/
theorem cmd_verify_jsonl_ends (strict : Bool) (verify_key : Option String)
    (hfail : ∀ key, s.verify_bundle_with_key key ≠ .ok (.Fail [])) :
    StreamEnds (cmd_verify_jsonl s bundle_path strict verify_key) ∧
      (cmd_verify_jsonl s bundle_path strict verify_key).exit =
        ((course s bundle_path strict verify_key).exit strict).getD EXIT_ERROR := by
  simp only [cmd_verify_jsonl, course]
  by_cases hexists : s.exists_at bundle_path = true
  · simp only [hexists, Bool.not_true, Bool.false_eq_true, if_false]
    by_cases hsig : strict_signature_missing s bundle_path strict verify_key = true
    · simp only [if_pos hsig]
      refine ⟨stream_ends .Fail ?_ (terminal_of_fail _), rfl⟩
      simp only [List.forall_mem_singleton, plain_diagnostic]
      decide +kernel
    · simp only [if_neg hsig]
      cases hload : load_verify_key s verify_key with
      | error diag =>
        refine ⟨stream_ends .Error ?_ (terminal_of_error _), rfl⟩
        simpa only [List.forall_mem_singleton] using key_fault_not_terminal s hload
      | ok key =>
        dsimp only
        cases houtcome : s.verify_bundle_with_key key with
        | error e =>
          refine ⟨stream_ends .Error ?_ (terminal_of_error _), rfl⟩
          rw [List.forall_mem_singleton]
          exact terminal_of_fault e
        | ok outcome =>
          cases outcome with
          | Pass =>
            exact ⟨stream_ends .Ok (fun _ => notices_not_terminal s bundle_path)
              (terminal_of_ok _), rfl⟩
          | Fail errors =>
            have herrors : errors ≠ [] := fun h => hfail key (h ▸ houtcome)
            have hevents : ∀ event ∈ errors.map finding_event, terminal_of event.code = none := by
              simp only [List.forall_mem_map]
              exact fun err _ => finding_event_not_terminal err
            simp only [stream_fail, any_error_iff herrors]
            by_cases hdev : all_prerelease_on_dev errors = true
            · simp only [hdev, Bool.not_true, Bool.false_eq_true, if_false]
              exact ⟨stream_ends .Ok hevents (terminal_of_ok _),
                by simp [stream, Course.exit, hdev]⟩
            · simp only [hdev, Bool.not_false, if_true]
              exact ⟨stream_ends .Fail hevents (terminal_of_fail _),
                by simp [stream, Course.exit, hdev]⟩
          | Skipped reason =>
            have hevents : ∀ event ∈ [plain_diagnostic "VERIFY_SKIPPED" .Info reason],
                terminal_of event.code = none := by
              simp only [List.forall_mem_singleton, plain_diagnostic]
              decide +kernel
            cases strict with
            | true => exact ⟨stream_ends .Fail hevents (terminal_of_fail _), rfl⟩
            | false => exact ⟨stream_ends .Ok hevents (terminal_of_ok _), rfl⟩
  · simp only [hexists, Bool.not_false, if_true]
    refine ⟨stream_ends .Error ?_ (terminal_of_error _), rfl⟩
    rw [List.forall_mem_singleton]
    exact terminal_of_fault (.BundleNotFound bundle_path)

/-! ## The formats -/

/-- The verification was begun, and ended in a fault. -/
def Faulted (strict : Bool) (verify_key : Option String) : Prop :=
  ∃ e, course s bundle_path strict (resolve_verify_key_path s bundle_path verify_key) =
    .Verified (.error e)

omit [DebugText] [Ed25519] in
/-- Only a fault leaves the code open. -/
theorem course_exit_eq_none_iff (strict : Bool) (c : Course) :
    c.exit strict = none ↔ ∃ e, c = .Verified (.error e) := by
  rcases c with _ | _ | _ | (_ | _ | _ | _) <;> simp [Course.exit]

/-- **The output formats agree exactly when the verification does not end in a fault.** After
a fault the human and the JSON output return the code of a failed verification, and the
stream that of an error. -/
theorem cmd_verify_formats_agree_iff (strict : Bool) (verify_key : Option String)
    (hfail : ∀ key, s.verify_bundle_with_key key ≠ .ok (.Fail [])) :
    FormatsAgree (cmd_verify s bundle_path strict verify_key) ↔
      ¬ Faulted s bundle_path strict verify_key := by
  obtain ⟨hdocuments, hhuman⟩ := cmd_verify_document_agrees s bundle_path strict
    (resolve_verify_key_path s bundle_path verify_key)
  obtain ⟨hends, hjsonl⟩ := cmd_verify_jsonl_ends s bundle_path strict
    (resolve_verify_key_path s bundle_path verify_key) hfail
  rw [Faulted, ← course_exit_eq_none_iff strict, ← ne_eq, Option.ne_none_iff_exists']
  constructor
  · intro hagree
    have hexit := hagree.jsonl_exit
    simp only [cmd_verify] at hexit
    rw [hhuman, hjsonl] at hexit
    -- without a code of its own the course takes the two defaults, and these differ
    by_contra hnone
    rw [← Option.ne_none_iff_exists', not_not] at hnone
    rw [hnone] at hexit
    exact absurd hexit (by decide)
  · rintro ⟨code, hcode⟩
    exact ⟨hdocuments.exit, by rw [cmd_verify, cmd_verify, hhuman, hjsonl, hcode]; rfl, hends,
      hdocuments.human_reports, hdocuments.json_reports⟩

end Command

/-! ## A bundle whose index does not parse -/

section Witness

/-- Quotes around a text. -/
local instance quoted : DebugText where
  debug text := "\"" ++ text ++ "\""

/-- One key, and one signature. -/
local instance unsigned : Ed25519 where
  SigningKey := Unit
  VerifyingKey := Unit
  verifying_key _ := ()
  sign _ _ := List.replicate 64 0
  sign_length _ _ := List.length_replicate
  verify _ _ _ := true

/-- A bundle that is there, without a signature, and what its verification comes to. -/
def unsigned_bundle (outcome : Except VerifyRuntimeError VerifyResult) : Surroundings Unit where
  exists_at path := path == "bundle"
  read_to_string _ := none
  parse_index _ := none
  evidence_verify_key_path := none
  read_verifying_key path := .error (.Read path)
  verify_bundle_with_key _ := outcome

/-- `cmd_verify_formats_agree_iff` on a bundle with a finding. -/
theorem cmd_verify_formats_agree_finding :
    FormatsAgree (cmd_verify (unsigned_bundle (.ok (.Fail [.SourceBaselineEmpty]))) "bundle"
      false none) := by
  refine (cmd_verify_formats_agree_iff _ _ _ _ (by simp [unsigned_bundle])).mpr ?_
  rintro ⟨e, he⟩
  simp [course, unsigned_bundle, strict_signature_missing, resolve_verify_key_path,
    resolve_verify_key_path.anchor, join, load_verify_key] at he

/-- **A bundle whose index does not parse gives two codes**: that of a failed verification in
the human and the JSON output, and that of an error in the stream. -/
theorem cmd_verify_formats_disagree :
    (cmd_verify (unsigned_bundle (.error .ParseIndex)) "bundle" false none .Human).exit =
        EXIT_VERIFICATION_FAILURE ∧
      (cmd_verify (unsigned_bundle (.error .ParseIndex)) "bundle" false none .Jsonl).exit =
        EXIT_ERROR ∧
      ¬ FormatsAgree (cmd_verify (unsigned_bundle (.error .ParseIndex)) "bundle" false none) := by
  have hhuman : (cmd_verify (unsigned_bundle (.error .ParseIndex)) "bundle" false none
      .Human).exit = EXIT_VERIFICATION_FAILURE := by
    decide +kernel
  have hjsonl : (cmd_verify (unsigned_bundle (.error .ParseIndex)) "bundle" false none
      .Jsonl).exit = EXIT_ERROR := by
    decide +kernel
  refine ⟨hhuman, hjsonl, fun hagree => ?_⟩
  have hexit := hagree.jsonl_exit
  rw [hhuman, hjsonl] at hexit
  exact absurd hexit (by decide)

end Witness

end Evidence.Cli
