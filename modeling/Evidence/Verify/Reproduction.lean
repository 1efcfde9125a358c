/-
`verify/reproduction.rs` -- whether a candidate bundle reproduced a baseline.

Three planes are compared: the digests of the inputs, the fields of the recipe and
the digests of the outputs. A digest plane that is absent or does not parse on either
side is one finding; else its keys are sorted into four buckets in two passes, over
the baseline's entries and over the candidate's keys. Each bucket becomes a kind of
finding, and the list of all findings is sorted.

A plane that is there and cannot be read ends the comparison; one that is not there
is a finding. An absent recipe field is compared as `null`.
-/
import Evidence.Bundle.Signing
import Evidence.Lib.Check
import Evidence.Lib.Sorting
import Evidence.Lib.Store
import Evidence.Verify.Sums

set_option autoImplicit false

namespace Evidence.Verify

open Std Check Sorting Evidence.Bundle

/-! ## Findings -/

/-- One typed difference between a baseline and a candidate bundle. -/
inductive ReproductionFinding where
  | InputChanged (path : String)
  | InputMissing (path : String)
  | InputUnverifiable (path : String)
  | RecipeFieldChanged (field : String)
  | RecipeUnavailable
  | OutputChanged (artifact : String)
  | OutputMissing (artifact : String)
  | OutputExtra (artifact : String)
  | OutputUnverifiable (artifact : String)
deriving DecidableEq

def ReproductionFinding.rank : ReproductionFinding → ℕ
  | InputChanged _ => 0
  | InputMissing _ => 1
  | InputUnverifiable _ => 2
  | RecipeFieldChanged _ => 3
  | RecipeUnavailable => 4
  | OutputChanged _ => 5
  | OutputMissing _ => 6
  | OutputExtra _ => 7
  | OutputUnverifiable _ => 8

def ReproductionFinding.name : ReproductionFinding → String
  | InputChanged path | InputMissing path | InputUnverifiable path => path
  | RecipeFieldChanged field => field
  | RecipeUnavailable => ""
  | OutputChanged artifact | OutputMissing artifact | OutputExtra artifact
  | OutputUnverifiable artifact => artifact

/-- The derived order: by declaration, then by name. -/
def finding_cmp : ReproductionFinding → ReproductionFinding → Ordering :=
  compareLex (compareOn ReproductionFinding.rank) (compareOn ReproductionFinding.name)

/-- Errors of the comparison. -/
inductive ReproductionError where
  | BundleNotFound (path : String)
  | Io (path : String)
deriving DecidableEq

/-! ## Planes -/

abbrev DigestMap := Store (Prod.fst : String × String → String)

/-- `serde_json`, as far as the planes are read by it; values of `Value` are equal where
serde_json's are. -/
class ReproductionJson where
  map_from_slice : List UInt8 → Option DigestMap
  Value : Type
  value_eq : DecidableEq Value
  null : Value
  get : Value → String → Option Value
  value_from_slice : List UInt8 → Option Value

instance [ReproductionJson] : DecidableEq ReproductionJson.Value := ReproductionJson.value_eq

structure BundleDir where
  path : String
  tree : Option FileTree

/-- A digest plane that was loaded, or is missing or unparseable. -/
inductive Plane where
  | Loaded (map : DigestMap)
  | Unavailable

section Reading

variable [ReproductionJson]

/-- The bytes of a plane file, if it is there; one that is there is read or the
comparison ends. -/
def read_plane (path : String) (bundle : FileTree) (name : String) :
    Except ReproductionError (Option (List UInt8)) :=
  if !bundle.exists_text name.toList then .ok none
  else
    match read_bytes bundle name with
    | some bytes => .ok (some bytes)
    | none => .error (.Io (path ++ "/" ++ name))

def read_digest_map (path : String) (bundle : FileTree) (name : String) :
    Except ReproductionError Plane := do
  match ← read_plane path bundle name with
  | none => .ok .Unavailable
  | some bytes =>
    match ReproductionJson.map_from_slice bytes with
    | some map => .ok (.Loaded map)
    | none => .ok .Unavailable

def read_recipe (path : String) (bundle : FileTree) :
    Except ReproductionError (Option ReproductionJson.Value) := do
  match ← read_plane path bundle "deterministic-manifest.json" with
  | none => .ok none
  | some bytes => .ok (ReproductionJson.value_from_slice bytes)

end Reading

/-! ## Digest planes -/

/-- `c.is_ascii_uppercase()`. -/
def is_ascii_uppercase (c : Char) : Bool := 'A' ≤ c && c ≤ 'Z'

/-- 64-character lowercase hex. -/
def is_sha256_hex (digest : String) : Bool :=
  str_len digest == 64 &&
    digest.toList.all fun c => is_ascii_hexdigit c && !is_ascii_uppercase c

/-- Directional key-level diff of two digest planes. -/
structure DigestPlaneDiff where
  changed : List String
  base_only : List String
  cand_only : List String
  unverifiable : List String

/-- One entry of the baseline. -/
def DigestPlaneDiff.base_entry (cand : DigestMap) (diff : DigestPlaneDiff)
    (entry : String × String) : DigestPlaneDiff :=
  let (key, base_digest) := entry
  if !is_sha256_hex base_digest then { diff with unverifiable := diff.unverifiable ++ [key] }
  else
    match (cand.get key).map Prod.snd with
    | none => { diff with base_only := diff.base_only ++ [key] }
    | some cand_digest =>
      if cand_digest ≠ base_digest then
        if is_sha256_hex cand_digest then { diff with changed := diff.changed ++ [key] }
        else { diff with unverifiable := diff.unverifiable ++ [key] }
      else diff

def DigestPlaneDiff.cand_key (base : DigestMap) (diff : DigestPlaneDiff)
    (entry : String × String) : DigestPlaneDiff :=
  if (base.get entry.1).isNone then { diff with cand_only := diff.cand_only ++ [entry.1] }
  else diff

/-- Diff two digest planes key by key. -/
def diff_digest_planes (base cand : DigestMap) : DigestPlaneDiff :=
  cand.values.foldl (DigestPlaneDiff.cand_key base)
    (base.values.foldl (DigestPlaneDiff.base_entry cand) ⟨[], [], [], []⟩)

/-! ## The comparison -/

section Compare

variable [ReproductionJson]

/-- Input plane: canonical source-input digests must be identical. -/
def compare_inputs (baseline candidate : String × FileTree)
    (findings : List ReproductionFinding) :
    Except ReproductionError (List ReproductionFinding) := do
  let base ← read_digest_map baseline.1 baseline.2 "inputs_hashes.json"
  let cand ← read_digest_map candidate.1 candidate.2 "inputs_hashes.json"
  match base, cand with
  | .Loaded base, .Loaded cand =>
    let diff := diff_digest_planes base cand
    .ok (findings ++ diff.changed.map .InputChanged ++
      (diff.base_only ++ diff.cand_only).map .InputMissing ++
      diff.unverifiable.map .InputUnverifiable)
  | _, _ => .ok (findings ++ [.InputUnverifiable "inputs_hashes.json"])

/-- The recipe fields compared, with the names they are reported under. -/
def RECIPE_FIELDS : List (String × String) :=
  [("profile", "profile"),
    ("rustc", "rustc"),
    ("cargo", "cargo"),
    ("llvm_version", "llvm_version"),
    ("cargo_lock_hash", "dependency_lock"),
    ("rust_toolchain_toml", "rust_toolchain_toml"),
    ("rustflags", "rustflags"),
    ("target_triple", "target_triple"),
    ("features", "features"),
    ("locked_graph_hash", "locked_graph_hash"),
    ("command_recipe_hash", "command_recipe_hash"),
    ("inputs_hash", "inputs_hash"),
    ("resolution_policy", "resolution_policy")]

/-- Recipe plane: every recipe field must agree. Absent fields compare as `null`. -/
def compare_recipe_fields (base cand : ReproductionJson.Value) : List String :=
  (RECIPE_FIELDS.filter fun (key, _) =>
    let base_value := (ReproductionJson.get base key).getD ReproductionJson.null
    let cand_value := (ReproductionJson.get cand key).getD ReproductionJson.null
    base_value ≠ cand_value).map Prod.snd

/-- Recipe plane driver. -/
def compare_recipe (baseline candidate : String × FileTree)
    (findings : List ReproductionFinding) :
    Except ReproductionError (List ReproductionFinding) := do
  let base ← read_recipe baseline.1 baseline.2
  let cand ← read_recipe candidate.1 candidate.2
  match base, cand with
  | some base, some cand =>
    .ok (findings ++ (compare_recipe_fields base cand).map .RecipeFieldChanged)
  | _, _ => .ok (findings ++ [.RecipeUnavailable])

/-- Output plane: recorded artifact digests must be identical. -/
def compare_outputs (baseline candidate : String × FileTree)
    (findings : List ReproductionFinding) :
    Except ReproductionError (List ReproductionFinding) := do
  let base ← read_digest_map baseline.1 baseline.2 "outputs_hashes.json"
  let cand ← read_digest_map candidate.1 candidate.2 "outputs_hashes.json"
  match base, cand with
  | .Loaded base, .Loaded cand =>
    let diff := diff_digest_planes base cand
    .ok (findings ++ diff.changed.map .OutputChanged ++ diff.base_only.map .OutputMissing ++
      diff.unverifiable.map .OutputUnverifiable ++ diff.cand_only.map .OutputExtra)
  | _, _ => .ok (findings ++ [.OutputUnverifiable "outputs_hashes.json"])

/-- Compare two bundle directories for reproduced-output equality. -/
def compare_reproduction (baseline candidate : BundleDir) :
    Except ReproductionError (List ReproductionFinding) :=
  match baseline.tree, candidate.tree with
  | none, _ => .error (.BundleNotFound baseline.path)
  | some _, none => .error (.BundleNotFound candidate.path)
  | some base, some cand => do
    let findings ← compare_inputs (baseline.path, base) (candidate.path, cand) []
    let findings ← compare_recipe (baseline.path, base) (candidate.path, cand) findings
    let findings ← compare_outputs (baseline.path, base) (candidate.path, cand) findings
    .ok (sortBy finding_cmp findings)

end Compare

end Evidence.Verify
