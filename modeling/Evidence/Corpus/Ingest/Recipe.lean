/-
`corpus/ingest/recipe.rs`, `html/recipe.rs`, `pdf/recipe.rs` and `pdf/lock.rs` -- the
identity of one ingester configuration.

An encoding frames the fields of a recipe in order; a set is counted and listed in sorted
order, and an optional field is led by a flag. The tool lock of a PDF recipe has an
encoding of its own, which the recipe frames by its length. Floating-point rules are
encoded as their bit patterns.
-/
import Evidence.Corpus.Digest
import Evidence.F64
import Evidence.Framing
import Evidence.Lib.Store

set_option autoImplicit false

namespace Evidence.Corpus

/-- Domain/version tag prefixing the recipe encoding. -/
def RECIPE_DOMAIN_TAG : List UInt8 := str_bytes "evidence/ingester-recipe/v1"

/-- A `BTreeSet` of strings. -/
abbrev StringSet := Store (id : String → String)

/-- The explicit identity of one ingester configuration. -/
structure IngesterRecipe where
  parser : String
  parser_version : String
  extensions : StringSet
  adapter_version : String
  normalization_contract : String

def IngesterRecipe.canonical_bytes (recipe : IngesterRecipe) : List UInt8 :=
  RECIPE_DOMAIN_TAG ++ [0] ++ push_str recipe.parser ++ push_str recipe.parser_version ++
    push_count recipe.extensions.size ++ recipe.extensions.values.flatMap push_str ++
    push_str recipe.adapter_version ++ push_str recipe.normalization_contract

/-- The recipe identity plane. -/
def IngesterRecipe.digest [Sha256] (recipe : IngesterRecipe) : StructuralContentDigest :=
  .of_bytes recipe.canonical_bytes

/-! ## HTML -/

/-- Domain/version tag prefixing the HTML recipe encoding. -/
def HTML_RECIPE_DOMAIN_TAG : List UInt8 := str_bytes "evidence/html-ingester-recipe/v1"

/-- The explicit identity of one HTML ingestion configuration. -/
structure HtmlIngestionRecipe where
  parser : String
  parser_version : String
  adapter_version : String
  normalization_contract : String
  encoding : String
  inclusion_root : Option String
  exclusion_selectors : StringSet
  note_selectors : StringSet
  figure_caption_selectors : StringSet
  compatibility_modes : StringSet

/-- A set encodes as its count, then each member in sorted order. -/
def push_set (set : StringSet) : List UInt8 := push_count set.size ++ set.values.flatMap push_str

/-- An optional field: a flag, and the field if it is there. -/
def push_flagged {α : Type} (enc : α → List UInt8) : Option α → List UInt8
  | some value => 1 :: enc value
  | none => [0]

def HtmlIngestionRecipe.canonical_bytes (recipe : HtmlIngestionRecipe) : List UInt8 :=
  HTML_RECIPE_DOMAIN_TAG ++ [0] ++ push_str recipe.parser ++ push_str recipe.parser_version ++
    push_str recipe.adapter_version ++ push_str recipe.normalization_contract ++
    push_str recipe.encoding ++ push_flagged push_str recipe.inclusion_root ++
    push_set recipe.exclusion_selectors ++ push_set recipe.note_selectors ++
    push_set recipe.figure_caption_selectors ++ push_set recipe.compatibility_modes

open Std

/-! ## The tool lock -/

/-- Domain/version tag prefixing the lock encoding. -/
def LOCK_DOMAIN_TAG : List UInt8 := str_bytes "evidence/pdf-tool-lock/v1"

/-- The closed set of platforms a tool lock may pin. -/
inductive PdfPlatform where
  | LinuxX86_64
  | MacosAarch64
  | MacosX86_64
  | WindowsX86_64
deriving DecidableEq

namespace PdfPlatform

/-- The wire key of the platform. -/
def as_str : PdfPlatform → String
  | LinuxX86_64 => "linux_x86_64"
  | MacosAarch64 => "macos_aarch64"
  | MacosX86_64 => "macos_x86_64"
  | WindowsX86_64 => "windows_x86_64"

/-- The derived order. -/
def rank : PdfPlatform → ℕ
  | LinuxX86_64 => 0
  | MacosAarch64 => 1
  | MacosX86_64 => 2
  | WindowsX86_64 => 3

instance : Ord PdfPlatform := ⟨compareOn rank⟩

instance : TransOrd PdfPlatform := inferInstanceAs (TransCmp (compareOn rank))

instance : LawfulEqOrd PdfPlatform where
  compare_self := by
    intro platform
    have hself : compareOn rank platform platform = .eq := ReflCmp.compare_self
    exact hself
  eq_of_compare := by
    intro a b h
    have hrank : compare a.rank b.rank = .eq := h
    rw [LawfulEqCmp.compare_eq_iff_eq] at hrank
    revert hrank
    cases a <;> cases b <;> decide

end PdfPlatform

/-- A `BTreeMap<PdfPlatform, String>`. -/
abbrev PlatformMap := Store (Prod.fst : PdfPlatform × String → PdfPlatform)

/-- The strict tool-lock record for the PDF extractor. -/
structure PdfToolLock where
  tool_name : String
  version_output : String
  executable_sha256 : PlatformMap
  argv : List String
  adapter_version : String
  config_digest : String

/-- One executable of the lock. -/
def push_executable (entry : PdfPlatform × String) : List UInt8 :=
  push_str entry.1.as_str ++ push_str entry.2

def PdfToolLock.canonical_bytes (lock : PdfToolLock) : List UInt8 :=
  LOCK_DOMAIN_TAG ++ [0] ++ push_str lock.tool_name ++ push_str lock.version_output ++
    push_count lock.executable_sha256.size ++
    lock.executable_sha256.values.flatMap push_executable ++
    push_count lock.argv.length ++ lock.argv.flatMap push_str ++
    push_str lock.adapter_version ++ push_str lock.config_digest

/-! ## The recipe -/

/-- Domain/version tag prefixing the PDF recipe encoding. -/
def PDF_RECIPE_DOMAIN_TAG : List UInt8 := str_bytes "evidence/pdf-ingestion-recipe/v1"

/-- The committed layout rules of one PDF projection. -/
structure PdfLayoutRules where
  header_bottom : F64
  footer_top : F64
  column_split_x : Option F64
  max_heading_depth : UInt32
  note_prefixes : StringSet
  caption_prefixes : StringSet
  page_label_prefix : Option String

/-- The explicit identity of one PDF ingestion configuration. -/
structure PdfIngestionRecipe where
  tool_lock : PdfToolLock
  rules : PdfLayoutRules

/-- The bit pattern, big-endian. -/
def push_f64 (value : F64) : List UInt8 := to_be_bytes value.bits.toNat

def PdfIngestionRecipe.canonical_bytes (recipe : PdfIngestionRecipe) : List UInt8 :=
  PDF_RECIPE_DOMAIN_TAG ++ [0] ++ push_count recipe.tool_lock.canonical_bytes.length ++
    recipe.tool_lock.canonical_bytes ++ push_f64 recipe.rules.header_bottom ++
    push_f64 recipe.rules.footer_top ++ push_flagged push_f64 recipe.rules.column_split_x ++
    push_count recipe.rules.max_heading_depth.toNat ++ push_set recipe.rules.note_prefixes ++
    push_set recipe.rules.caption_prefixes ++
    push_flagged push_str recipe.rules.page_label_prefix

end Evidence.Corpus
