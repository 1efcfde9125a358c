/-
`verify/bundle.rs` and `verify/paths.rs` -- checking a bundle against its
`SHA256SUMS`.

Two passes cover the tree. The first reads the sums line by line and hashes what
each line names; a name is joined onto the bundle's root, so it is resolved by
the operating system. The second walks the regular files, without following a
link, and looks each one's path up among the names that were listed. The errors
of both accumulate; only an unreadable file ends the run.
-/
import Mathlib.Data.Finset.Insert
import Evidence.Bundle.Sha256Sums
import Evidence.Bundle.Signing

set_option autoImplicit false

namespace Evidence.Verify

open Corpus Evidence.Bundle

/-! ## Errors -/

/-- `VerifyError`, as far as the passes over the files and the signature raise it; a
`Finding` is an error of one of the passes over the content of the index. -/
inductive VerifyError where
  | HashMismatch (file expected actual : String)
  | UnsafePath (path : String)
  | MissingHashedFile (file : String)
  | UnexpectedFile (file : String)
  | SignatureInvalid
  | ContentHashMismatch (index_hash actual_hash : String)
  | Finding (code detail : String)
deriving DecidableEq

/-- `VerifyRuntimeError`, with the same distinction. -/
inductive VerifyRuntimeError where
  | ReadFile (path : String)
  | ParseIndex
  | Signing (source : SigningError)
  | Fault (detail : String)
deriving DecidableEq

/-! ## Paths -/

/-- Whether a path of the sums may be joined onto the root. -/
def is_safe_bundle_path (filename : List Char) : Bool :=
  filename.head? != some '/' && (filename.splitOn '/').all (· != ['.', '.']) &&
    filename.head? != some '\\'

/-- Files that are allowed in a bundle but not listed in its sums. -/
def KNOWN_META_FILES : List (List Char) :=
  ["index.json".toList, "SHA256SUMS".toList, "BUNDLE.sig".toList]

/-! ## The sums -/

section Verify

variable [Sha256] (t : FileTree)

/-- The names that were listed, and the errors so far. -/
abbrev Checked := Finset (List Char) × List VerifyError

/-- `c.is_ascii_hexdigit()`. -/
def is_ascii_hexdigit (c : Char) : Bool :=
  c.isDigit || ('a' ≤ c && c ≤ 'f') || ('A' ≤ c && c ≤ 'F')

/-- One line of the sums. -/
def check_line (checked : Checked) (line : List Char) : Except VerifyRuntimeError Checked :=
  if line.isEmpty then .ok checked
  else
    match split_once "  ".toList line with
    | none =>
      .ok (checked.1, checked.2 ++ [.HashMismatch "(malformed line)" ""
        ("malformed SHA256SUMS line: " ++ String.ofList line)])
    | some (expected_hash, filename) =>
      if str_len (String.ofList expected_hash) ≠ 64 ∨ expected_hash.all is_ascii_hexdigit = false then
        .ok (checked.1, checked.2 ++ [.HashMismatch (String.ofList filename)
          ("64-char hex, got " ++ decimal (str_len (String.ofList expected_hash)) ++ " chars")
          (String.ofList expected_hash)])
      else if !is_safe_bundle_path filename then
        .ok (checked.1, checked.2 ++ [.UnsafePath (String.ofList filename)])
      else
        let listed := insert filename checked.1
        if !t.exists_text filename then
          .ok (listed, checked.2 ++ [.MissingHashedFile (String.ofList filename)])
        else
          match t.read_text filename with
          | none => .error (.ReadFile (String.ofList filename))
          | some content =>
            if sha256 content ≠ String.ofList expected_hash then
              .ok (listed, checked.2 ++ [.HashMismatch (String.ofList filename)
                (String.ofList expected_hash) (sha256 content)])
            else .ok (listed, checked.2)

/-- Hash every file the sums name; returns the names that were listed. -/
def hash_sha256sums_entries (sha256sums_content : List Char) (errors : List VerifyError) :
    Except VerifyRuntimeError Checked :=
  (lines sha256sums_content).foldlM (check_line t) (∅, errors)

def unexpected_files (listed : Finset (List Char)) : List VerifyError :=
  t.walk_files.filterMap fun file =>
    let rel := replace_backslash (to_string_lossy file.1)
    if rel ∈ listed then none
    else if KNOWN_META_FILES.contains rel then none
    else some (.UnexpectedFile (String.ofList rel))

end Verify

end Evidence.Verify
