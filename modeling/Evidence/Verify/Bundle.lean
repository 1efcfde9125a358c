/-
`verify/bundle.rs` -- the order of a verification.

Every pass adds its errors to one list, and the bundle passes if the list is empty
in the end; only what cannot be read or parsed ends the run before. The passes over
the content of `index.json` (its fields, and how they agree with the other files)
are the fields of `Passes`: whatever they find, they only add to the list. What
`Pass` says of a bundle is therefore what the passes over its files and the
signature say, each without an error.
-/
import Evidence.Verify.Sums

set_option autoImplicit false

namespace Evidence.Verify

open Corpus Evidence.Bundle Check

/-! ## The run -/

/-- Files that every bundle must have. -/
def REQUIRED_FILES : List String :=
  ["index.json", "inputs_hashes.json", "outputs_hashes.json", "commands.json", "env.json",
    "deterministic-manifest.json", "SHA256SUMS"]

/-- `EvidenceIndex`, as far as the run itself reads it. -/
structure EvidenceIndex where
  content_hash : String
  trace_outputs : List String
deriving DecidableEq

/-- The parser of `index.json`, and the passes over its content: those that run before the
files are hashed, the one over the recipe manifest, and those that also read which files
were listed. -/
structure Passes where
  parse_index : String → Option EvidenceIndex
  index_checks : FileTree → String → List VerifyError
  check_recipe_manifest : FileTree → String → Except VerifyRuntimeError (List VerifyError)
  consistency_checks : FileTree → String → Finset (List Char) → List VerifyError

inductive VerifyResult where
  | Pass
  | Fail (errors : List VerifyError)
deriving DecidableEq

section Run

variable [Sha256] [Ed25519] (passes : Passes) (bundle : FileTree)

/-- The required files that are not there. -/
def missing_required : List VerifyError :=
  REQUIRED_FILES.filterMap fun f =>
    if bundle.exists_text f.toList then none else some (.MissingHashedFile f)

/-- A trace output of the index that may not be joined, or is not there. -/
def check_trace_output (trace_out : String) : Option VerifyError :=
  if !is_safe_bundle_path trace_out.toList then some (.UnsafePath trace_out)
  else if !bundle.exists_text trace_out.toList then
    some (.MissingHashedFile ("trace output: " ++ trace_out))
  else none

def read_file (filename : String) : Except VerifyRuntimeError String :=
  match read_to_string bundle filename with
  | none => .error (.ReadFile filename)
  | some content => .ok content

/-- `sha256_file(&bundle.join(filename))`. -/
def sha256_file (filename : String) : Except VerifyRuntimeError String :=
  match bundle.read_text filename.toList with
  | none => .error (.ReadFile filename)
  | some content => .ok (sha256 content)

def parse_index (content : String) : Except VerifyRuntimeError EvidenceIndex :=
  match passes.parse_index content with
  | none => .error .ParseIndex
  | some index => .ok index

/-- The index is in the metadata layer and must not be listed. -/
def check_index_unlisted (listed : Finset (List Char)) : List VerifyError :=
  if "index.json".toList ∈ listed then
    [.UnexpectedFile "index.json must NOT be listed in SHA256SUMS (metadata layer violation)"]
  else []

def check_signature (verify_key : Option VerifyingKey) :
    Except VerifyRuntimeError (List VerifyError) :=
  match verify_key with
  | none => .ok []
  | some key =>
    if !bundle.exists_text "BUNDLE.sig".toList then .ok [.SignatureInvalid]
    else do
      let valid ← (verify_bundle_signature bundle key).mapError .Signing
      .ok (if valid then [] else [.SignatureInvalid])

def verify_bundle_with_key (verify_key : Option VerifyingKey) :
    Except VerifyRuntimeError VerifyResult :=
  if missing_required bundle ≠ [] then .ok (.Fail (missing_required bundle))
  else do
    let index_content ← read_file bundle "index.json"
    let index ← parse_index passes index_content
    let errors := passes.index_checks bundle index_content ++
      index.trace_outputs.filterMap (check_trace_output bundle)
    let sha256sums_content ← read_file bundle "SHA256SUMS"
    let checked ← hash_sha256sums_entries bundle sha256sums_content.toList errors
    let errors := checked.2 ++ check_index_unlisted checked.1
    let actual_content_hash ← sha256_file bundle "SHA256SUMS"
    let errors := errors ++
      if index.content_hash ≠ actual_content_hash then
        [.ContentHashMismatch index.content_hash actual_content_hash]
      else []
    let errors := errors ++ (← passes.check_recipe_manifest bundle index_content)
    let errors := errors ++ passes.consistency_checks bundle index_content checked.1 ++
      unexpected_files bundle checked.1
    let errors := errors ++ (← check_signature bundle verify_key)
    .ok (if errors ≠ [] then .Fail errors else .Pass)

/-! ## What a pass says -/

/-- What each pass over the files and the signature found: nothing. -/
structure Passed (verify_key : Option VerifyingKey) : Prop where
  required : missing_required bundle = []
  index : ∃ index_content index, read_file bundle "index.json" = .ok index_content ∧
    parse_index passes index_content = .ok index ∧
    passes.index_checks bundle index_content = [] ∧
    index.trace_outputs.filterMap (check_trace_output bundle) = [] ∧
    sha256_file bundle "SHA256SUMS" = .ok index.content_hash ∧
    passes.check_recipe_manifest bundle index_content = .ok [] ∧
    ∃ sha256sums_content listed, read_file bundle "SHA256SUMS" = .ok sha256sums_content ∧
      hash_sha256sums_entries bundle sha256sums_content.toList [] = .ok (listed, []) ∧
      check_index_unlisted listed = [] ∧
      passes.consistency_checks bundle index_content listed = [] ∧
      unexpected_files bundle listed = []
  signature : check_signature bundle verify_key = .ok []

omit [Ed25519] in
theorem check_line_adds {checked checked' : Checked} {line : List Char}
    (h : check_line bundle checked line = .ok checked') : checked.2 <+: checked'.2 := by
  unfold check_line at h
  split at h
  · rw [Except.ok.inj h]
  · split at h
    · rw [← Except.ok.inj h]
      exact List.prefix_append _ _
    · split at h
      · rw [← Except.ok.inj h]
        exact List.prefix_append _ _
      · split at h
        · rw [← Except.ok.inj h]
          exact List.prefix_append _ _
        · simp only at h
          split at h
          · rw [← Except.ok.inj h]
            exact List.prefix_append _ _
          · split at h
            · exact nomatch h
            · split at h
              · rw [← Except.ok.inj h]
                exact List.prefix_append _ _
              · rw [← Except.ok.inj h]

omit [Sha256] [Ed25519] in
theorem result_pass_iff {errors : List VerifyError} :
    (Except.ok (if errors ≠ [] then .Fail errors else .Pass) :
      Except VerifyRuntimeError VerifyResult) = .ok .Pass ↔ errors = [] := by
  by_cases h : errors = []
  · simp [h]
  · simp [h]

/-- **A bundle passes exactly when no pass finds an error.** -/
theorem verify_pass_iff {verify_key : Option VerifyingKey} :
    verify_bundle_with_key passes bundle verify_key = .ok .Pass ↔
      Passed passes bundle verify_key := by
  unfold verify_bundle_with_key
  by_cases hrequired : missing_required bundle = []
  · rw [if_neg (not_not.mpr hrequired)]
    simp only [bind_ok_iff]
    constructor
    · rintro ⟨index_content, hcontent, index, hindex, sums, hsums, checked, hchecked, actual,
        hactual, recipe, hrecipe, signature, hsignature, hresult⟩
      have hnone := result_pass_iff.mp hresult
      simp only [List.append_eq_nil_iff] at hnone
      obtain ⟨⟨⟨⟨⟨⟨hfiles, hunlisted⟩, hhash⟩, rfl⟩, hcross⟩, hwalk⟩, rfl⟩ := hnone
      have hstart : passes.index_checks bundle index_content ++
          index.trace_outputs.filterMap (check_trace_output bundle) = [] := by
        have hgrows := (foldlM_ok_iff.mp hchecked).invariant
          (fun s : Checked => (passes.index_checks bundle index_content ++
            index.trace_outputs.filterMap (check_trace_output bundle)) <+: s.2)
          (fun _ _ _ hs hstep => hs.trans (check_line_adds bundle hstep))
          (List.prefix_refl _)
        rw [hfiles] at hgrows
        exact List.prefix_nil.mp hgrows
      obtain ⟨hchecks, htrace⟩ := List.append_eq_nil_iff.mp hstart
      rw [hstart] at hchecked
      have hsame : index.content_hash = actual := by
        by_contra hne
        rw [if_pos hne] at hhash
        exact nomatch hhash
      subst hsame
      exact ⟨hrequired, ⟨index_content, index, hcontent, hindex, hchecks, htrace, hactual,
        hrecipe, sums, checked.1, hsums, by rw [hchecked, ← hfiles], hunlisted, hcross, hwalk⟩,
        hsignature⟩
    · rintro ⟨-, ⟨index_content, index, hcontent, hindex, hchecks, htrace, hactual, hrecipe, sums,
        listed, hsums, hchecked, hunlisted, hcross, hwalk⟩, hsignature⟩
      refine ⟨index_content, hcontent, index, hindex, sums, hsums, (listed, []), ?_,
        index.content_hash, hactual, [], hrecipe, [], hsignature, ?_⟩
      · rw [hchecks, htrace]
        exact hchecked
      · refine result_pass_iff.mpr ?_
        simp [hunlisted, hcross, hwalk]
  · rw [if_pos hrequired]
    constructor
    · exact fun h => nomatch Except.ok.inj h
    · exact fun h => absurd h.required hrequired

end Run

/-! ## Lines of a bundle that passes -/

section Lines

variable [Sha256] {bundle : FileTree}

theorem check_line_accepts {listed listed' : Finset (List Char)} {line : List Char}
    (h : check_line bundle (listed, []) line = .ok (listed', [])) (hline : line ≠ []) :
    ∃ hash filename content, split_once "  ".toList line = some (hash, filename) ∧
      bundle.resolve_text filename = some (.File content) ∧
      sha256 content = String.ofList hash ∧ listed' = insert filename listed := by
  unfold check_line at h
  rw [if_neg (by simpa using hline)] at h
  split at h
  · simp at h
  · next hash filename hsplit =>
    split at h
    · simp at h
    · split at h
      · simp at h
      · simp only at h
        split at h
        · simp at h
        · split at h
          · exact nomatch h
          · next content hread =>
            split at h
            · simp at h
            · next hhash =>
              rw [Except.ok.injEq, Prod.mk.injEq] at h
              refine ⟨hash, filename, content, hsplit, ?_, not_not.mp hhash, h.1.symm⟩
              unfold FileTree.read_text at hread
              split at hread
              · next found hfound => rw [hfound, Option.some.inj hread]
              · exact nomatch hread

/-- **Every line of sums that are read without an error** names a file that hashes to its
digest, and every listed name is a line's. -/
theorem hash_sha256sums_entries_ok {text : List Char} {listed : Finset (List Char)}
    (h : hash_sha256sums_entries bundle text [] = .ok (listed, [])) :
    (∀ line ∈ lines text, line ≠ [] → ∃ hash filename content,
      split_once "  ".toList line = some (hash, filename) ∧
      bundle.resolve_text filename = some (.File content) ∧
      sha256 content = String.ofList hash ∧ filename ∈ listed) ∧
    ∀ filename ∈ listed, ∃ line ∈ lines text, ∃ hash,
      split_once "  ".toList line = some (hash, filename) := by
  -- The run is read from any names that were listed before.
  have hrun : ∀ (ls : List (List Char)) (before : Finset (List Char)),
      ls.foldlM (check_line bundle) (before, []) = .ok (listed, []) →
      before ⊆ listed ∧
      (∀ line ∈ ls, line ≠ [] → ∃ hash filename content,
        split_once "  ".toList line = some (hash, filename) ∧
        bundle.resolve_text filename = some (.File content) ∧
        sha256 content = String.ofList hash ∧ filename ∈ listed) ∧
      ∀ filename ∈ listed, filename ∈ before ∨ ∃ line ∈ ls, ∃ hash,
        split_once "  ".toList line = some (hash, filename) := by
    intro ls
    induction ls with
    | nil =>
      intro before hls
      have hsame : before = listed := congrArg Prod.fst (Except.ok.inj hls)
      subst hsame
      exact ⟨fun _ h => h, fun line hline => absurd hline List.not_mem_nil,
        fun filename hmem => .inl hmem⟩
    | cons line ls ih =>
      intro before hls
      rw [List.foldlM_cons, bind_ok_iff] at hls
      obtain ⟨⟨next, errors⟩, hstep, hrest⟩ := hls
      have hnone : errors = [] := by
        have hgrows := (foldlM_ok_iff.mp hrest).invariant (fun s : Checked => errors <+: s.2)
          (fun _ _ _ hs hs' => hs.trans (check_line_adds bundle hs')) (List.prefix_refl _)
        exact List.prefix_nil.mp hgrows
      subst hnone
      obtain ⟨hkept, hlines, hnames⟩ := ih next hrest
      by_cases hline : line = []
      · subst hline
        have hsame : before = next := congrArg Prod.fst (Except.ok.inj hstep)
        subst hsame
        refine ⟨hkept, fun line hmem hne => ?_, fun filename hmem => ?_⟩
        · rcases List.mem_cons.mp hmem with rfl | hmem
          · exact absurd rfl hne
          · exact hlines line hmem hne
        · rcases hnames filename hmem with hbefore | ⟨line, hline, hsplit⟩
          · exact .inl hbefore
          · exact .inr ⟨line, List.mem_cons_of_mem _ hline, hsplit⟩
      · obtain ⟨hash, filename, content, hsplit, hread, hhash, rfl⟩ :=
          check_line_accepts hstep hline
        have hlisted : filename ∈ listed := hkept (Finset.mem_insert_self _ _)
        refine ⟨fun name hname => hkept (Finset.mem_insert_of_mem hname), fun line' hmem hne => ?_,
          fun name hmem => ?_⟩
        · rcases List.mem_cons.mp hmem with rfl | hmem
          · exact ⟨hash, filename, content, hsplit, hread, hhash, hlisted⟩
          · exact hlines line' hmem hne
        · rcases hnames name hmem with hnext | ⟨line', hline', hsplit'⟩
          · rcases Finset.mem_insert.mp hnext with rfl | hbefore
            · exact .inr ⟨line, List.mem_cons_self, hash, hsplit⟩
            · exact .inl hbefore
          · exact .inr ⟨line', List.mem_cons_of_mem _ hline', hsplit'⟩
  obtain ⟨-, hlines, hnames⟩ := hrun _ ∅ h
  refine ⟨hlines, fun filename hmem => ?_⟩
  rcases hnames filename hmem with hnone | hsome
  · exact absurd hnone (Finset.notMem_empty _)
  · exact hsome

end Lines

end Evidence.Verify
