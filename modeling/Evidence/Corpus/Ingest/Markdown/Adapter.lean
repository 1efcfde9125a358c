/-
`corpus/ingest/markdown/adapter.rs`, `close.rs` and `anchors.rs` -- the Markdown adapter.

The adapter walks the parser's events. A block tag pushes a frame at its start and pops it at
its end, where the node is emitted; inline tags leave no frame, and their text lands in the
innermost open one. The parent and the ordinal of a node are decided when its frame is opened, but
for a paragraph, which is folded into an absorbing frame around it or becomes a node of its
own when it is closed. As for the HTML adapter, the state is passed along explicitly, and the two
stacks have their innermost entry first.
-/
import Evidence.Corpus.Ingest.Normalize
import Evidence.Corpus.SourceGraph.Identity

set_option autoImplicit false

namespace Evidence.Corpus.Markdown

/-! ## Parser events -/

inductive HeadingLevel where
  | H1 | H2 | H3 | H4 | H5 | H6
deriving DecidableEq

def HeadingLevel.as_usize : HeadingLevel → ℕ
  | H1 => 1
  | H2 => 2
  | H3 => 3
  | H4 => 4
  | H5 => 5
  | H6 => 6

/-- The tags of the parser, with the fields the adapter reads. -/
inductive Tag where
  | Paragraph
  | Heading (level : HeadingLevel)
  | BlockQuote
  | CodeBlock
  | HtmlBlock
  | List
  | Item
  | FootnoteDefinition (name : String)
  | DefinitionList
  | DefinitionListTitle
  | DefinitionListDefinition
  | Table
  | TableHead
  | TableRow
  | TableCell
  | Emphasis
  | Strong
  | Strikethrough
  | Superscript
  | Subscript
  | Link
  | Image (dest_url : String)
  | MetadataBlock
deriving DecidableEq

inductive TagEnd where
  | Paragraph
  | Heading (level : HeadingLevel)
  | BlockQuote
  | CodeBlock
  | HtmlBlock
  | List
  | Item
  | FootnoteDefinition
  | DefinitionList
  | DefinitionListTitle
  | DefinitionListDefinition
  | Table
  | TableHead
  | TableRow
  | TableCell
  | Emphasis
  | Strong
  | Strikethrough
  | Superscript
  | Subscript
  | Link
  | Image
  | MetadataBlock
deriving DecidableEq

def Tag.to_end : Tag → TagEnd
  | Paragraph => .Paragraph
  | Heading level => .Heading level
  | BlockQuote => .BlockQuote
  | CodeBlock => .CodeBlock
  | HtmlBlock => .HtmlBlock
  | List => .List
  | Item => .Item
  | FootnoteDefinition _ => .FootnoteDefinition
  | DefinitionList => .DefinitionList
  | DefinitionListTitle => .DefinitionListTitle
  | DefinitionListDefinition => .DefinitionListDefinition
  | Table => .Table
  | TableHead => .TableHead
  | TableRow => .TableRow
  | TableCell => .TableCell
  | Emphasis => .Emphasis
  | Strong => .Strong
  | Strikethrough => .Strikethrough
  | Superscript => .Superscript
  | Subscript => .Subscript
  | Link => .Link
  | Image _ => .Image
  | MetadataBlock => .MetadataBlock

inductive Event where
  | Start (tag : Tag)
  | End (tag_end : TagEnd)
  | Text (text : String)
  | Code (text : String)
  | InlineMath (text : String)
  | DisplayMath (text : String)
  | Html
  | InlineHtml
  | FootnoteReference
  | SoftBreak
  | HardBreak
  | Rule
  | TaskListMarker
deriving DecidableEq

/-- A byte range of the source text: start and end. -/
abbrev ByteRange := ℕ × ℕ

/-! ## Diagnostics and errors -/

inductive IngestDiagnosticKind where
  | DuplicateAnchor (anchor : String)
  | MalformedExplicitId (raw : String)
  | UnsupportedRawHtml
  | LossyConstruct (construct : String)
deriving DecidableEq

structure IngestDiagnostic where
  kind : IngestDiagnosticKind
  byte_range : UInt64 × UInt64
  detail : String
deriving DecidableEq

/-- The failures of the walk and of the assembly. -/
inductive IngestError where
  | ByteRangeUnaligned (start stop : UInt64) (len : ℕ)
  | CandidateGraph (error : SourceGraphError)
deriving DecidableEq

/-! ## State -/

inductive FrameKind where
  | Section
  | Paragraph
  | ListItem
  | Table
  | TableRow
  | TableCell
  | CodeBlock
  | Note
  | FootnoteNote
  /-- A block that produces no node. -/
  | Transparent
deriving DecidableEq

def FrameKind.absorbs_paragraph : FrameKind → Bool
  | ListItem | Note | FootnoteNote | TableCell => true
  | Section | Paragraph | Table | TableRow | CodeBlock | Transparent => false

/-- One open block. -/
structure Frame where
  kind : FrameKind
  text : String
  start : ℕ
  provisional : String
  parent : Option String
  ordinal : UInt32
  heading_level : ℕ
  footnote_id : String
  skip : Bool
deriving DecidableEq

def Frame.bare (kind : FrameKind) (provisional : String) (start : ℕ) : Frame where
  kind := kind
  text := ""
  start := start
  provisional := provisional
  parent := none
  ordinal := 0
  heading_level := 0
  footnote_id := ""
  skip := false

/-- One logical section in the heading trail. -/
structure SectionEntry where
  level : ℕ
  provisional : String
  path : List String
deriving DecidableEq

/-- What an adapter is built with: the metadata of an ingestion. -/
structure Setup where
  source_revision_uid : String
  path : SafeRelPath
  git_blob : Option String

structure Adapter where
  frames : List Frame
  sections : List SectionEntry
  candidates : List CandidateNode
  diagnostics : List IngestDiagnostic
  ordinals : Option String → UInt32
  used_anchors : List String
  footnote_ids : List String
  next_provisional : ℕ

def Adapter.new : Adapter where
  frames := []
  sections := []
  candidates := []
  diagnostics := []
  ordinals := fun _ => 0
  used_anchors := []
  footnote_ids := []
  next_provisional := 0

/-- The id of the `n`-th candidate. -/
def provisional_id (n : ℕ) : String := "cand-" ++ decimal n

/-! ## Anchors -/

/-- The outcome of inspecting a heading's trailing id suffix. -/
inductive ExplicitId where
  | None
  | Valid ( label_prefix id : String)
  | Malformed (raw : String)
deriving DecidableEq

/-- A valid explicit id: an ASCII alphanumeric, then alphanumerics, hyphens and underscores. -/
def is_valid_id (raw : String) : Bool :=
  !raw.isEmpty && ((str_bytes raw).head?.any is_ascii_alphanumeric) &&
    (str_bytes raw).all fun b => is_ascii_alphanumeric b || b == 0x2D || b == 0x5F

/-- `str::trim_end`, on characters. -/
def trim_end (text : List Char) : List Char := (text.reverse.dropWhile is_whitespace).reverse

/-- Inspect a heading text for a trailing explicit-id suffix. -/
def extract_explicit_id (text : String) : ExplicitId :=
  match (trim_end text.toList).reverse with
  | '\x7d' :: before_close =>
    match rsplit_once ['\x7b', '#'] before_close.reverse with
    | none => .None
    | some ( label_prefix, raw) =>
      let raw := String.ofList raw
      if is_valid_id raw then .Valid (String.ofList (trim_end label_prefix)) raw
      else .Malformed raw
  | _ => .None

def ALERT_KINDS : List String := ["NOTE", "TIP", "IMPORTANT", "WARNING", "CAUTION"]

/-- Strip a leading GFM alert marker and the whitespace behind it. -/
def strip_alert_marker (text : String) : String :=
  match strip_text ['[', '!'] (text.toList.dropWhile is_whitespace) with
  | none => text
  | some rest =>
    match split_once [']'] rest with
    | none => text
    | some (kind, rest) =>
      if ALERT_KINDS.any fun alert => eq_ignore_ascii_case (String.ofList kind) alert then
        String.ofList (rest.dropWhile is_whitespace)
      else text

/-! ## Operations -/

/-- `str::is_char_boundary`. -/
def is_char_boundary (text : String) (index : ℕ) : Bool :=
  index == 0 || index == str_len text ||
    ((str_bytes text)[index]?).any fun b => b < 0x80 || 0xC0 ≤ b

/-- A checked locator byte range: ordered, in bounds, and aligned to UTF-8 boundaries. -/
def checked_byte_range (text : String) (start stop : ℕ) : Except IngestError (UInt64 × UInt64) :=
  if start ≤ stop ∧ stop ≤ str_len text ∧ is_char_boundary text start = true ∧
      is_char_boundary text stop = true then
    .ok (UInt64.ofNat start, UInt64.ofNat stop)
  else .error (.ByteRangeUnaligned (UInt64.ofNat start) (UInt64.ofNat stop) (str_len text))

namespace Adapter

variable (a : Adapter)

/-- The next candidate-local identity. -/
def provisional : String × Adapter :=
  (provisional_id a.next_provisional, { a with next_provisional := a.next_provisional + 1 })

/-- The next sibling ordinal under a parent. -/
def next_ordinal (parent : Option String) : UInt32 × Adapter :=
  (a.ordinals parent,
    { a with ordinals := Function.update a.ordinals parent (a.ordinals parent + 1) })

/-- The innermost open section. -/
def section_parent : Option String := a.sections.head?.map SectionEntry.provisional

/-- The innermost open section's heading path. -/
def section_path : List String := a.sections.head?.elim [] SectionEntry.path

/-- The innermost open frame of a kind, or else the enclosing section. -/
def frame_parent (kind : FrameKind) : Option String :=
  ((a.frames.find? fun frame => frame.kind == kind).map Frame.provisional).or a.section_parent

/-- Push a frame whose parent and ordinal resolve at open, with what its tag sets. -/
def push_node_frame (kind : FrameKind) (parent : Option String) (start : ℕ)
    (set : Frame → Frame) : Adapter :=
  let (ordinal, a) := a.next_ordinal parent
  let (provisional, a) := a.provisional
  let frame := { Frame.bare kind provisional start with parent := parent, ordinal := ordinal }
  { a with frames := set frame :: a.frames }

/-- Push a frame whose parent is decided at close, or never. -/
def push_bare_frame (kind : FrameKind) (start : ℕ) : Adapter :=
  let (provisional, a) := a.provisional
  { a with frames := Frame.bare kind provisional start :: a.frames }

def diagnose (kind : IngestDiagnosticKind) (range : ByteRange) (detail : String) : Adapter :=
  { a with diagnostics := a.diagnostics ++
      [⟨kind, (UInt64.ofNat range.1, UInt64.ofNat range.2), detail⟩] }

/-- Push a text onto the innermost frame. -/
def push_str (text : String) : Adapter :=
  match a.frames with
  | [] => a
  | top :: rest => { a with frames := { top with text := top.text ++ text } :: rest }

def close_sections (level : ℕ) : Adapter :=
  { a with sections := a.sections.dropWhile fun entry => level ≤ entry.level }

/-! ## Opening -/

variable [StrDebug]

def opened (tag : Tag) (range : ByteRange) : Adapter :=
  match tag with
  | .Heading level =>
    let a := a.close_sections level.as_usize
    a.push_node_frame .Section a.section_parent range.1 fun frame =>
      { frame with heading_level := level.as_usize }
  | .Paragraph => a.push_bare_frame .Paragraph range.1
  | .BlockQuote => a.push_node_frame .Note a.section_parent range.1 id
  | .CodeBlock => a.push_node_frame .CodeBlock a.section_parent range.1 id
  | .List | .HtmlBlock => a.push_bare_frame .Transparent range.1
  | .Item => a.push_node_frame .ListItem a.section_parent range.1 id
  | .Table => a.push_node_frame .Table a.section_parent range.1 id
  | .TableHead | .TableRow => a.push_node_frame .TableRow (a.frame_parent .Table) range.1 id
  | .TableCell => a.push_node_frame .TableCell (a.frame_parent .TableRow) range.1 id
  | .FootnoteDefinition name =>
    let duplicate : Bool := decide (name ∈ a.footnote_ids)
    let a := a.push_node_frame .FootnoteNote a.section_parent range.1 fun frame =>
      { frame with footnote_id := name, skip := duplicate }
    { a with footnote_ids := if duplicate then a.footnote_ids else name :: a.footnote_ids }
  | .Image dest_url =>
    a.diagnose (.LossyConstruct "image") range
      ("image target " ++ str_debug dest_url ++
        " is not represented in the structural projection")
  | .Emphasis | .Strong | .Strikethrough | .Superscript | .Subscript | .Link | .DefinitionList
  | .DefinitionListTitle | .DefinitionListDefinition | .MetadataBlock => a

end Adapter

/-! ## Closing -/

structure NodeContent where
  kind : SourceNodeKind
  label : Option String
  canonical_text : String
  anchor : Option String
  heading_path : List String

/-- Emit one candidate node from a closed frame. -/
def emit (s : Setup) (text : String) (frame : Frame) (content : NodeContent) (stop : ℕ)
    (a : Adapter) : Except IngestError Adapter := do
  let byte_range ← checked_byte_range text frame.start stop
  .ok { a with
    candidates := a.candidates ++
      [{ provisional_id := frame.provisional
         parent_id := frame.parent
         kind := content.kind
         ordinal := frame.ordinal
         label := content.label
         canonical_text := content.canonical_text
         locator := .Markdown s.path s.git_blob content.anchor content.heading_path byte_range }] }

/-- Emit a node that carries no anchor, with the enclosing section trail as its heading path. -/
def emit_simple (s : Setup) (text : String) (frame : Frame) (kind : SourceNodeKind)
    (label : Option String) (canonical_text : String) (stop : ℕ) (a : Adapter) :
    Except IngestError Adapter :=
  emit s text frame ⟨kind, label, canonical_text, none, a.section_path⟩ stop a

/-- Fold a paragraph's text into the innermost absorbing frame, if there is one. -/
def absorb (text : String) : List Frame → Option (List Frame)
  | [] => none
  | frame :: rest =>
    if frame.kind.absorbs_paragraph then
      let joined := if !frame.text.isEmpty && !text.isEmpty then frame.text ++ "\n" else frame.text
      some ({ frame with text := joined ++ text } :: rest)
    else (absorb text rest).map (frame :: ·)

variable [UnicodeTables] [StrDebug]

/-- A heading's label text and anchor: the explicit id, or a generated slug. -/
def process_heading (raw : String) (range : ByteRange) (a : Adapter) :
    String × String × Adapter :=
  match extract_explicit_id raw with
  | .None =>
    let label := normalize_prose raw
    let (anchor, used_anchors) := dedup_anchor a.used_anchors (slugify label)
    (label, anchor, { a with used_anchors := used_anchors })
  | .Valid label_prefix id =>
    let claimed :=
      if id ∈ a.used_anchors then
        a.diagnose (.DuplicateAnchor id) range
          ("explicit heading anchor " ++ str_debug id ++ " is claimed more than once")
      else { a with used_anchors := id :: a.used_anchors }
    (normalize_prose label_prefix, id, claimed)
  | .Malformed bad =>
    let a := a.diagnose (.MalformedExplicitId bad) range
      ("trailing heading id \x7b#" ++ bad ++ "\x7d is not a valid explicit id")
    let label := normalize_prose raw
    let (anchor, used_anchors) := dedup_anchor a.used_anchors (slugify label)
    (label, anchor, { a with used_anchors := used_anchors })

/-- Close a heading: emit the section, and push its trail entry. -/
def close_section (s : Setup) (text : String) (frame : Frame) (range : ByteRange) (a : Adapter) :
    Except IngestError Adapter := do
  let (label_text, anchor, a) := process_heading frame.text range a
  let label := if label_text.isEmpty then none else some label_text
  let heading_path := a.section_path ++ label.toList
  let a ← emit s text frame ⟨.Section, label, label.getD "", some anchor, heading_path⟩ range.2 a
  .ok { a with sections := ⟨frame.heading_level, frame.provisional, heading_path⟩ :: a.sections }

/-- Close a paragraph: fold it into an absorbing ancestor, or emit it at the enclosing
section. -/
def close_paragraph (s : Setup) (text : String) (frame : Frame) (range : ByteRange) (a : Adapter) :
    Except IngestError Adapter :=
  match absorb frame.text a.frames with
  | some frames => .ok { a with frames := frames }
  | none =>
    let parent := a.section_parent
    let (ordinal, a) := a.next_ordinal parent
    emit_simple s text { frame with parent := parent, ordinal := ordinal } .Paragraph none
      (normalize_prose frame.text) range.2 a

/-- Close a footnote definition: the first of an id emits a note, a duplicate a diagnostic. -/
def close_footnote (s : Setup) (text : String) (frame : Frame) (range : ByteRange) (a : Adapter) :
    Except IngestError Adapter :=
  if frame.skip then
    .ok (a.diagnose (.LossyConstruct "footnote-definition") range
      ("footnote definition " ++ str_debug frame.footnote_id ++
        " duplicates an earlier definition"))
  else
    emit_simple s text frame .Note (some ("footnote:" ++ frame.footnote_id))
      (normalize_prose frame.text) range.2 a

def close_frame (s : Setup) (text : String) (tag_end : TagEnd) (range : ByteRange) (frame : Frame)
    (a : Adapter) : Except IngestError Adapter :=
  match tag_end with
  | .Heading _ => close_section s text frame range a
  | .Paragraph => close_paragraph s text frame range a
  | .BlockQuote =>
    emit_simple s text frame .Note none (normalize_prose (strip_alert_marker frame.text)) range.2 a
  | .CodeBlock => emit_simple s text frame .CodeBlock none (normalize_code frame.text) range.2 a
  | .Item => emit_simple s text frame .ListItem none (normalize_prose frame.text) range.2 a
  | .FootnoteDefinition => close_footnote s text frame range a
  | .Table => emit_simple s text frame .Table none "" range.2 a
  | .TableHead | .TableRow => emit_simple s text frame .TableRow none "" range.2 a
  | .TableCell => emit_simple s text frame .TableCell none (normalize_prose frame.text) range.2 a
  | .List | .HtmlBlock => .ok a
  | .Emphasis | .Strong | .Strikethrough | .Superscript | .Subscript | .Link | .Image
  | .DefinitionList | .DefinitionListTitle | .DefinitionListDefinition | .MetadataBlock => .ok a

def TagEnd.is_block : TagEnd → Bool
  | Heading _ | Paragraph | BlockQuote | CodeBlock | Item | FootnoteDefinition | Table | TableHead
  | TableRow | TableCell | List | HtmlBlock => true
  | Emphasis | Strong | Strikethrough | Superscript | Subscript | Link | Image | DefinitionList
  | DefinitionListTitle | DefinitionListDefinition | MetadataBlock => false

/-- Close one tag: pop its frame and emit its node, or fold its text into an absorbing
ancestor. -/
def Adapter.close (s : Setup) (text : String) (tag_end : TagEnd) (range : ByteRange)
    (a : Adapter) : Except IngestError Adapter :=
  if tag_end.is_block then
    match a.frames with
    | [] => .ok a
    | frame :: rest => close_frame s text tag_end range frame { a with frames := rest }
  else .ok a

/-- Consume one parser event with its byte range. -/
def Adapter.event (s : Setup) (text : String) (event : Event) (range : ByteRange) (a : Adapter) :
    Except IngestError Adapter :=
  match event with
  | .Start tag => .ok (a.opened tag range)
  | .End tag_end => a.close s text tag_end range
  | .Text t | .Code t | .InlineMath t | .DisplayMath t => .ok (a.push_str t)
  | .SoftBreak | .HardBreak => .ok (a.push_str "\n")
  | .FootnoteReference | .TaskListMarker => .ok a
  | .Html | .InlineHtml =>
    .ok (a.diagnose .UnsupportedRawHtml range
      "raw HTML is not represented in the structural projection")
  | .Rule =>
    .ok (a.diagnose (.LossyConstruct "thematic-break") range
      "a thematic break is not represented in the structural projection")

def walk (s : Setup) (text : String) (events : List (Event × ByteRange)) (a : Adapter) :
    Except IngestError Adapter :=
  events.foldlM (fun a entry => a.event s text entry.1 entry.2) a

end Evidence.Corpus.Markdown
