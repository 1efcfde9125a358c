/-
`corpus/ingest/html/adapter.rs` and `emit.rs` -- the DOM as the ingester sees it, the
adapter state, and candidate emission.

A node is a text, an element with its children, or one of the nodes the ingester takes no
notice of. Texts and elements carry the identity they have in the tree. A selector
is what it matches; it may look at all of the tree around an element, so it is any
predicate on elements.

The state is passed along explicitly. The two stacks, the open sections and the open note
frames, have their innermost entry first. A text buffer, and with it a
candidate, remembers which text nodes it was collected from; nothing reads that but the
statements about what becomes of a text.
-/
import Mathlib.Data.List.Basic
import Evidence.Corpus.Ingest.Normalize
import Evidence.Corpus.SourceGraph.Identity
import Evidence.Text

set_option autoImplicit false

namespace Evidence.Corpus.Html

structure Element where
  id : ℕ
  name : String
  attributes : List (String × String)
deriving DecidableEq

inductive Dom where
  | Text (id : ℕ) (text : String)
  | Element (el : Element) (children : List Dom)
  /-- A comment, a doctype or a processing instruction. -/
  | Other

/-- An element without attributes. -/
def Dom.tag (id : ℕ) (name : String) (children : List Dom) : Dom := .Element ⟨id, name, []⟩ children

/-- The value of an attribute. -/
def Element.attr (el : Element) (name : String) : Option String :=
  (el.attributes.find? fun entry => entry.1 == name).map Prod.snd

/-- A compiled selector. -/
abbrev Selector := Element → Bool

theorem Dom.children_induction {motive : List Dom → Prop} (nil : motive [])
    (text : ∀ id text rest, motive rest → motive (.Text id text :: rest))
    (other : ∀ rest, motive rest → motive (.Other :: rest))
    (element : ∀ el children rest, motive children → motive rest →
      motive (.Element el children :: rest)) : ∀ nodes, motive nodes
  | [] => nil
  | .Text id content :: rest =>
    text id content rest (children_induction nil text other element rest)
  | .Other :: rest => other rest (children_induction nil text other element rest)
  | .Element el children :: rest =>
    element el children rest (children_induction nil text other element children)
      (children_induction nil text other element rest)

/-! ## Tag sets -/

/-- Tags dropped by the closed rule. -/
def DROP_TAGS : List String :=
  ["script", "style", "template", "head", "title", "meta", "link", "noscript", "colgroup", "col"]

/-- Inline formatting tags: transparent. -/
def INLINE_TAGS : List String :=
  ["a", "abbr", "b", "bdi", "bdo", "br", "cite", "code", "data", "dfn", "em", "i", "kbd", "mark",
    "q", "rp", "rt", "ruby", "s", "samp", "small", "span", "strong", "sub", "sup", "time", "u",
    "var", "wbr"]

/-- Known transparent containers. -/
def CONTAINER_TAGS : List String :=
  ["html", "body", "div", "section", "article", "main", "nav", "header", "footer", "aside",
    "hgroup"]

/-- Block tags that emit their own nodes when nested in a text-collecting context. -/
def NESTED_BLOCK_TAGS : List String :=
  ["ul", "ol", "dl", "table", "figure", "pre", "blockquote", "h1", "h2", "h3", "h4", "h5", "h6"]

/-- Foreign and embedded content, whose subtree is skipped. -/
def SKIP_SUBTREE_TAGS : List String :=
  ["svg", "math", "iframe", "object", "embed", "audio", "video", "canvas"]

def is_container (name : String) : Bool := CONTAINER_TAGS.contains name

def is_inline (name : String) : Bool := INLINE_TAGS.contains name

def is_dropped (name : String) : Bool := DROP_TAGS.contains name

def skips_subtree (name : String) : Bool := SKIP_SUBTREE_TAGS.contains name

/-- Does a dropped element carry content: an element, or a text that is not blank? -/
def carries_content (children : List Dom) : Bool :=
  children.any fun child =>
    match child with
    | .Element _ _ => true
    | .Text _ text => !is_blank text
    | .Other => false

/-! ## Bounds -/

/-- The candidate node-count bound. -/
def MAX_NODES : ℕ := 65536

/-- The per-node canonical-text size bound in bytes. -/
def MAX_TEXT_BYTES : ℕ := 1024 * 1024

/-! ## Diagnostics and errors -/

inductive HtmlIngestDiagnosticKind where
  | ExcludedByRecipe (selector : String)
  | DroppedByClosedRule (tag : String)
  | UnsupportedElement (tag : String)
  | DuplicateAnchor (anchor : String)
  | DanglingInternalLink (fragment : String)
deriving DecidableEq

structure HtmlIngestDiagnostic where
  kind : HtmlIngestDiagnosticKind
  dom_path : List UInt32
  detail : String
  element : ℕ
deriving DecidableEq

/-- The failures of the walk and of the assembly. -/
inductive HtmlIngestError where
  | TooManyNodes (count limit : ℕ)
  | TextTooLarge (size limit : ℕ)
  | CandidateGraph (error : SourceGraphError)
deriving DecidableEq

/-! ## State -/

/-- A text buffer, and the text nodes it was collected from. -/
structure Raw where
  text : String
  sources : List ℕ
deriving DecidableEq

namespace Raw

def empty : Raw := ⟨"", []⟩

def push_text (raw : Raw) (id : ℕ) (text : String) : Raw := ⟨raw.text ++ text, raw.sources ++ [id]⟩

/-- Push a line feed. -/
def push_newline (raw : Raw) : Raw := ⟨raw.text ++ "\n", raw.sources⟩

/-- Start a new line, unless the buffer is at the start of one. -/
def break_line (raw : Raw) : Raw :=
  if raw.text.isEmpty || raw.text.toList.getLast? == some '\n' then raw else raw.push_newline

/-- Push another buffer, on a line of its own. -/
def push_line (raw line : Raw) : Raw :=
  ⟨(if raw.text.isEmpty then "" else raw.text ++ "\n") ++ line.text, raw.sources ++ line.sources⟩

end Raw

structure Candidate extends CandidateNode where
  sources : List ℕ
deriving DecidableEq

/-- One logical section in the heading trail. -/
structure SectionEntry where
  level : ℕ
  provisional : String
  path : List String
deriving DecidableEq

structure AbsorbFrame where
  provisional : String
  parent : Option String
  ordinal : ℕ
  path : List UInt32
  heading_path : List String
  text : Raw
deriving DecidableEq

/-- The metadata of an ingestion that its nodes carry. -/
structure IngestHtmlInput where
  source_revision_uid : String
  canonical_url : String
  final_url : Option String

/-- What an adapter is built with: the input and the compiled selectors of the recipe. -/
structure Setup where
  input : IngestHtmlInput
  exclusions : List (String × Selector)
  notes : List Selector
  figures : List Selector

/-- A recipe that selects nothing. -/
def Setup.plain : Setup where
  input := ⟨"revision", "https://standard.example/", none⟩
  exclusions := []
  notes := []
  figures := []

structure Adapter where
  sections : List SectionEntry
  absorbers : List AbsorbFrame
  candidates : List Candidate
  diagnostics : List HtmlIngestDiagnostic
  ordinals : Option String → ℕ
  used_anchors : List String
  links : List (List UInt32 × String)
  header_rows : ℕ
  next_provisional : ℕ

def Adapter.new : Adapter where
  sections := []
  absorbers := []
  candidates := []
  diagnostics := []
  ordinals := fun _ => 0
  used_anchors := []
  links := []
  header_rows := 0
  next_provisional := 0

namespace Setup

variable (s : Setup)

/-- The first matching exclusion selector. -/
def matches_exclusion (el : Element) : Option String :=
  (s.exclusions.find? fun exclusion => exclusion.2 el).map Prod.fst

def matches_note (el : Element) : Bool := s.notes.any fun selector => selector el

def matches_figure_caption (el : Element) : Bool := s.figures.any fun selector => selector el

end Setup

/-! ## Operations -/

/-- The id of the `n`-th candidate. -/
def provisional_id (n : ℕ) : String := "cand-" ++ decimal n

namespace Adapter

variable (a : Adapter)

/-- The innermost open section. -/
def section_parent : Option String := a.sections.head?.map SectionEntry.provisional

/-- The innermost open section's heading path. -/
def section_path : List String := a.sections.head?.elim [] SectionEntry.path

/-- The next candidate-local identity. -/
def provisional : String × Adapter :=
  (provisional_id a.next_provisional, { a with next_provisional := a.next_provisional + 1 })

/-- The next sibling ordinal under a parent. -/
def next_ordinal (parent : Option String) : ℕ × Adapter :=
  (a.ordinals parent,
    { a with ordinals := Function.update a.ordinals parent (a.ordinals parent + 1) })

def diagnose (kind : HtmlIngestDiagnosticKind) (path : List UInt32) (detail : String)
    (el : Element) : Adapter :=
  { a with diagnostics := a.diagnostics ++ [⟨kind, path, detail, el.id⟩] }

/-- Record a pure-fragment internal link. -/
def record_link (el : Element) (path : List UInt32) : Adapter :=
  match (el.attr "href").bind ( strip_prefix "#") with
  | none => a
  | some fragment =>
    if fragment.isEmpty then a else { a with links := a.links ++ [(path, fragment)] }

/-- Push one candidate, enforcing the bounds. -/
def push_candidate (candidate : Candidate) : Except HtmlIngestError Adapter :=
  if str_len candidate.canonical_text > MAX_TEXT_BYTES then
    .error (.TextTooLarge (str_len candidate.canonical_text) MAX_TEXT_BYTES)
  else if a.candidates.length ≥ MAX_NODES then
    .error (.TooManyNodes (a.candidates.length + 1) MAX_NODES)
  else .ok { a with candidates := a.candidates ++ [candidate] }

end Adapter

/-- The content of one emission. -/
structure EmitContent where
  kind : SourceNodeKind
  label : Option String
  canonical_text : String
  fragment : Option String
  heading_path : List String
  sources : List ℕ

/-- The locator of one candidate. -/
def Setup.locator (s : Setup) (path : List UInt32) (fragment : Option String)
    (heading_path : List String) : SourceLocator :=
  .Html s.input.canonical_url s.input.final_url fragment heading_path path

/-- The candidate of one emission. -/
def Setup.candidate (s : Setup) (provisional : String) (parent : Option String) (ordinal : ℕ)
    (path : List UInt32) (content : EmitContent) : Candidate where
  provisional_id := provisional
  parent_id := parent
  kind := content.kind
  ordinal := UInt32.ofNat ordinal
  label := content.label
  canonical_text := content.canonical_text
  locator := s.locator path content.fragment content.heading_path
  sources := content.sources

/-- Emit one candidate: the single construction point. Returns its provisional id. -/
def emit (s : Setup) (parent : Option String) (path : List UInt32) (content : EmitContent)
    (a : Adapter) : Except HtmlIngestError (String × Adapter) := do
  let (ordinal, a) := a.next_ordinal parent
  let (provisional, a) := a.provisional
  let a ← a.push_candidate (s.candidate provisional parent ordinal path content)
  .ok (provisional, a)

/-- Emit a leaf under the innermost section. -/
def emit_leaf (s : Setup) (kind : SourceNodeKind) (label : Option String) (text : String)
    (sources : List ℕ) (path : List UInt32) (a : Adapter) : Except HtmlIngestError Adapter := do
  let (_, a) ← emit s a.section_parent path
    { kind := kind, label := label, canonical_text := text, fragment := none
      heading_path := a.section_path, sources := sources } a
  .ok a

/-- Emit the note of a closed frame, whose identity, parent and ordinal were assigned
at open. -/
def emit_closed_note (s : Setup) (frame : AbsorbFrame) (canonical_text : String) (a : Adapter) :
    Except HtmlIngestError Adapter :=
  a.push_candidate (s.candidate frame.provisional frame.parent frame.ordinal frame.path
    { kind := .Note, label := none, canonical_text := canonical_text, fragment := none
      heading_path := frame.heading_path, sources := frame.text.sources })

end Evidence.Corpus.Html
