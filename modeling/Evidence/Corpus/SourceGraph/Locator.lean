/-
`corpus/source_graph/locator.rs` -- the closed per-format locator of a
structural source node -- and the path rules it shares with the vendored captures,
`validate_vendored_wire_path` of `corpus/source/records.rs`.

A locator is diagnostic only: it never enters a digest or a fingerprint, but its
variant must agree with the media type of the revision, and its document-author
anchor feeds the first tier of the structural key. `validate` checks the
per-variant rules in declaration order and reports the first field that breaks
one.
-/
import Evidence.F64
import Evidence.Text

set_option autoImplicit false

namespace Evidence.Corpus

inductive VendoredPathRule where
  | Empty
  | Absolute
  | DrivePrefix
  | UncPrefix
  | Backslash
  | EmptyComponent
  | DotComponent
  | ParentComponent
deriving DecidableEq

def component_rule (component : List Char) : Option VendoredPathRule :=
  if component = [] then some .EmptyComponent
  else if component = ['.'] then some .DotComponent
  else if component = ['.', '.'] then some .ParentComponent
  else none

/-- Whether the path starts with a drive letter and a colon. -/
def has_drive_prefix (value : String) : Bool :=
  match str_bytes value with
  | letter :: colon :: _ => colon == 0x3A && is_ascii_alphabetic letter
  | _ => false

def validate_vendored_wire_path (value : String) : Except VendoredPathRule Unit :=
  let chars := value.toList
  if chars.isEmpty then .error .Empty
  else if ['/'].isPrefixOf chars then .error .Absolute
  else if ['\\', '\\'].isPrefixOf chars then .error .UncPrefix
  else if has_drive_prefix value then .error .DrivePrefix
  else if '\\' ∈ chars then .error .Backslash
  else
    match (chars.splitOn '/').findSome? component_rule with
    | some rule => .error rule
    | none => .ok ()

/-- A validated `/`-separated relative path in canonical wire form. -/
structure SafeRelPath where
  as_str : String
  safe : validate_vendored_wire_path as_str = .ok ()
deriving DecidableEq

theorem SafeRelPath.ext_iff {p q : SafeRelPath} : p = q ↔ p.as_str = q.as_str := by
  cases p
  cases q
  simp only [mk.injEq]

inductive LocatorRule where
  | ByteRangeReversed
  | BboxNonFinite
  | BboxNegative
  | BboxReversed
  | PageZero
  | Blank
  | UrlScheme
  | GitBlobHex
deriving DecidableEq

/-- `Display for LocatorRule`. -/
def LocatorRule.to_string : LocatorRule → String
  | .ByteRangeReversed => "byte range bounds are reversed"
  | .BboxNonFinite => "bounding-box coordinate is not finite"
  | .BboxNegative => "bounding-box coordinate is negative"
  | .BboxReversed => "bounding-box corners are reversed on an axis"
  | .PageZero => "physical page is zero; pages are 1-based"
  | .Blank => "value is blank"
  | .UrlScheme => "URL lacks an absolute <scheme>:// shape"
  | .GitBlobHex => "git blob identifier is not 40- or 64-character lowercase hexadecimal"

/-- One invalid locator field: its name, its rendered offending value, and the
rule it violated. -/
structure LocatorFieldError where
  field : String
  value : String
  rule : LocatorRule
deriving DecidableEq

inductive SourceLocator where
  /-- A node inside a Markdown source document. -/
  | Markdown (path : SafeRelPath) (git_blob : Option String) (anchor : Option String)
      (heading_path : List String) (byte_range : UInt64 × UInt64)
  /-- A node inside an HTML source document. -/
  | Html (canonical_url : String) (final_url : Option String) (fragment : Option String)
      (heading_path : List String) (dom_path : List UInt32)
  /-- A node inside a PDF source document. -/
  | Pdf (physical_page : UInt32) (printed_label : Option String) (bbox : Vector F64 4)
deriving DecidableEq

namespace SourceLocator

def format_str : SourceLocator → String
  | Markdown .. => "markdown"
  | Html .. => "html"
  | Pdf .. => "pdf"

/-- The media type a source revision must declare for this variant. -/
def expected_media_type : SourceLocator → String
  | Markdown .. => "text/markdown"
  | Html .. => "text/html"
  | Pdf .. => "application/pdf"

/-- The document-author anchor feeding the structural key's first tier. -/
def explicit_anchor : SourceLocator → Option String
  | Markdown _ _ anchor _ _ => anchor
  | Html _ _ fragment _ _ => fragment
  | Pdf .. => none

end SourceLocator

/-! ## Field rules -/

/-- A git blob identifier is 40 or 64 lowercase hexadecimal characters. -/
def is_valid_git_blob (value : String) : Bool :=
  (str_len value == 40 || str_len value == 64) && (str_bytes value).all is_lower_hex

/-- A string that must carry content rejects whitespace-only values. -/
def check_non_blank (field value : String) : Except LocatorFieldError Unit :=
  if is_blank value then .error ⟨field, value, .Blank⟩ else .ok ()

/-- Every heading-path component carries content. -/
def check_heading_path (heading_path : List String) : Except LocatorFieldError Unit :=
  heading_path.forM (check_non_blank "heading_path")

/-- The absolute `<scheme>://<rest>` shape, with no whitespace anywhere. -/
def is_absolute_url (value : String) : Bool :=
  match split_once "://".toList value.toList with
  | some (scheme, rest) =>
    let bytes := str_bytes (String.ofList scheme)
    !rest.isEmpty && bytes.head?.any is_ascii_alphabetic &&
      (bytes.all fun b => is_ascii_alphanumeric b || b == 0x2B || b == 0x2D || b == 0x2E) &&
      !value.toList.any is_whitespace
  | none => false

def check_url (field value : String) : Except LocatorFieldError Unit :=
  if is_absolute_url value then .ok () else .error ⟨field, value, .UrlScheme⟩

/-- The bounding box as its error reports it. -/
def bbox_text [F64Display] (bbox : Vector F64 4) : String :=
  "[" ++ display bbox[0] ++ ", " ++ display bbox[1] ++ ", " ++ display bbox[2] ++ ", " ++
    display bbox[3] ++ "]"

/-- Bounding-box coordinates are finite, non-negative, and ordered lower-left to
upper-right on both axes. -/
def check_bbox [F64Display] (bbox : Vector F64 4) : Except LocatorFieldError Unit :=
  if bbox.toList.any (fun c => !c.is_finite) then .error ⟨"bbox", bbox_text bbox, .BboxNonFinite⟩
  else if bbox.toList.any (fun c => c.lt F64.zero) then
    .error ⟨"bbox", bbox_text bbox, .BboxNegative⟩
  else if bbox[2].lt bbox[0] || bbox[3].lt bbox[1] then
    .error ⟨"bbox", bbox_text bbox, .BboxReversed⟩
  else .ok ()

/-- `if let Some(value) = value { check(value)?; }` -/
def check_optional {α ε : Type} (check : α → Except ε Unit) : Option α → Except ε Unit
  | some value => check value
  | none => .ok ()

/-- Validate the per-variant field rules; the first failure wins. -/
def SourceLocator.validate [F64Display] : SourceLocator → Except LocatorFieldError Unit
  | Markdown _ git_blob anchor heading_path byte_range => do
    check_optional (fun blob =>
      if is_valid_git_blob blob then .ok () else .error ⟨"git_blob", blob, .GitBlobHex⟩) git_blob
    check_optional (check_non_blank "anchor") anchor
    check_heading_path heading_path
    if byte_range.2 < byte_range.1 then
      .error ⟨"byte_range", "[" ++ decimal byte_range.1.toNat ++ ", " ++
        decimal byte_range.2.toNat ++ "]", .ByteRangeReversed⟩
    else .ok ()
  | Html canonical_url final_url fragment heading_path _ => do
    check_url "canonical_url" canonical_url
    check_optional (check_url "final_url") final_url
    check_optional (check_non_blank "fragment") fragment
    check_heading_path heading_path
  | Pdf physical_page printed_label bbox => do
    if physical_page = 0 then .error ⟨"physical_page", "0", .PageZero⟩
    check_optional (check_non_blank "printed_label") printed_label
    check_bbox bbox

end Evidence.Corpus
