/-
`corpus/ingest/pdf/project.rs` and `pdf.rs` -- the layout projection: the bounded bbox model
becomes candidate nodes under the committed rules.

The coordinates are compared through the class `Coordinates`, which says nothing of the
comparisons but that the one the blocks are sorted by is an order; `exact_coordinates` is an
instance. The parser's bounds on pages and blocks are part of the document.

The stack of open sections has its innermost entry first.
-/
import Evidence.Lib.Sorting
import Evidence.Corpus.Ingest.Assemble
import Evidence.Corpus.Ingest.Recipe

set_option autoImplicit false

open Std

namespace Evidence.Corpus.Pdf

open Sorting

def PDF_MEDIA_TYPE : String := "application/pdf"

/-! ## The bbox model -/

/-- The page and block bounds of the parser. -/
def MAX_PAGES : ℕ := 1024

def MAX_BLOCKS_PER_PAGE : ℕ := 1024

/-- xMin, yMin, xMax, yMax. -/
abbrev Bbox := Vector F64 4

def x_min (bbox : Bbox) : F64 := bbox.get ⟨0, Nat.lt_add_of_pos_right (Nat.succ_pos 3)⟩

def y_min (bbox : Bbox) : F64 := bbox.get ⟨1, Nat.lt_add_of_pos_right (Nat.succ_pos 2)⟩

def x_max (bbox : Bbox) : F64 := bbox.get ⟨2, Nat.lt_add_of_pos_right (Nat.succ_pos 1)⟩

def y_max (bbox : Bbox) : F64 := bbox.get ⟨3, Nat.lt_add_of_pos_right (Nat.succ_pos 0)⟩

structure BboxWord where
  bbox : Bbox
  text : String

structure BboxLine where
  bbox : Bbox
  words : List BboxWord

structure BboxBlock where
  bbox : Bbox
  lines : List BboxLine

structure BboxPage where
  blocks : List BboxBlock

/-- One parsed document. -/
structure BboxDocument where
  pages : List BboxPage
  pages_bounded : pages.length ≤ MAX_PAGES
  blocks_bounded : ∀ page ∈ pages, page.blocks.length ≤ MAX_BLOCKS_PER_PAGE

/-- How the projection compares coordinates. -/
class Coordinates where
  /-- `a <= b`. -/
  le : F64 → F64 → Bool
  /-- `a < b`. -/
  lt : F64 → F64 → Bool
  /-- The order of the bit patterns. -/
  cmp : F64 → F64 → Ordering
  [transCmp : TransCmp cmp]
  /-- `(a + b) / 2.0 >= split`. -/
  right_of : (split a b : F64) → Bool
  /-- `(a - b).abs() <= COLUMN_TOLERANCE`, which is two points. -/
  aligned : F64 → F64 → Bool

instance [Coordinates] : TransCmp Coordinates.cmp := Coordinates.transCmp

/-- A finite value in units of `2 ^ -1074`. -/
def units (x : F64) : Int :=
  let size := x.significand * 2 ^ (x.scale - 1)
  if x.is_sign_negative then -size else size

/-- The comparisons of finite values; sums and differences are compared before they are rounded. -/
@[reducible] def exact_coordinates : Coordinates where
  le a b := a.lt b || a.eq b
  lt := F64.lt
  cmp := compareOn F64.bits
  right_of split a b := 2 * units split ≤ units a + units b
  aligned a b := (units a - units b).natAbs ≤ 2 ^ 1075

/-! ## Diagnostics -/

inductive PdfExcludedBand where
  | Header
  | Footer
deriving DecidableEq

inductive PdfIngestDiagnosticKind where
  | ExcludedByRule (band : PdfExcludedBand)
  | UnclassifiableBlock
  | StructuralLoss (construct : String)
deriving DecidableEq

structure PdfIngestDiagnostic where
  kind : PdfIngestDiagnosticKind
  page : UInt32
  block : UInt32
  bbox : Bbox
  detail : String

/-- The derived order: variant, then payload. -/
def PdfIngestDiagnosticKind.rank : PdfIngestDiagnosticKind → ℕ
  | ExcludedByRule .Header => 0
  | ExcludedByRule .Footer => 1
  | UnclassifiableBlock => 2
  | StructuralLoss _ => 3

def PdfIngestDiagnosticKind.construct : PdfIngestDiagnosticKind → String
  | StructuralLoss construct => construct
  | _ => ""

/-- Diagnostics by page, block, kind and detail. -/
def diagnostic_cmp : PdfIngestDiagnostic → PdfIngestDiagnostic → Ordering :=
  compareLex (compareOn PdfIngestDiagnostic.page) (compareLex (compareOn PdfIngestDiagnostic.block)
    (compareLex (compareOn fun diagnostic => diagnostic.kind.rank)
      (compareLex (compareOn fun diagnostic => diagnostic.kind.construct)
        (compareOn PdfIngestDiagnostic.detail))))

/-! ## Text -/

/-- One line's text: its words joined with spaces, verbatim. -/
def line_text (line : BboxLine) : String := " ".intercalate (line.words.map BboxWord.text)

/-- One block's canonical text: lines joined with newlines, verbatim. -/
def block_text (lines : List BboxLine) : String := "\n".intercalate (lines.map line_text)

/-- The dotted-numbering depth of a token. The parser's bound on a word's bytes keeps
it far below `2 ^ 32`. -/
def numbering_depth (token : String) : Option ℕ :=
  if token.isEmpty then none
  else
    let components := token.toList.splitOn '.'
    if components.all fun component => !component.isEmpty && component.all Char.isDigit then
      some components.length
    else none

section Rules

variable [Coordinates] (rules : PdfLayoutRules)

def excluded_band (line : BboxLine) : Option PdfExcludedBand :=
  if Coordinates.le (y_max line.bbox) rules.header_bottom then some .Header
  else if Coordinates.le rules.footer_top (y_min line.bbox) then some .Footer
  else none

/-- The page's printed label: the trimmed rest of the first footer line with the configured
prefix. -/
def page_label (page : BboxPage) : Option String :=
  rules.page_label_prefix.bind fun label =>
    (page.blocks.flatMap BboxBlock.lines).findSome? fun line =>
      if Coordinates.lt (y_min line.bbox) rules.footer_top then none
      else
        match strip_prefix label (line_text line) with
        | none => none
        | some remainder =>
          if (trim remainder).isEmpty then none else some (String.ofList (trim remainder))

def column_band (block : BboxBlock) : ℕ :=
  match rules.column_split_x with
  | some split => if Coordinates.right_of split (x_min block.bbox) (x_max block.bbox) then 1 else 0
  | none => 0

/-- The order of the reading keys: column band, then vertical, then horizontal position. -/
def reading_cmp : BboxBlock → BboxBlock → Ordering :=
  compareLex (compareOn (column_band rules))
    (compareLex (fun a b => Coordinates.cmp (y_min a.bbox) (y_min b.bbox))
      fun a b => Coordinates.cmp (x_min a.bbox) (x_min b.bbox))

def aligned_pair : List BboxLine → Bool
  | [] => false
  | line :: rest =>
    (rest.any fun other =>
      2 ≤ line.words.countP fun word =>
        other.words.any fun candidate =>
          Coordinates.aligned (x_min word.bbox) (x_min candidate.bbox)) || aligned_pair rest

/-- A block is table-shaped when two lines of at least three words align on two of them. -/
def is_table_shaped (lines : List BboxLine) : Bool :=
  aligned_pair (lines.filter fun line => 3 ≤ line.words.length)

end Rules

/-! ## The state -/

/-- The id of the `n`-th candidate. -/
def provisional_id (n : ℕ) : String := "cand-" ++ decimal n

structure ProjectionState where
  candidates : List CandidateNode
  diagnostics : List PdfIngestDiagnostic
  /-- Open sections as depth and provisional id. -/
  sections : List (ℕ × String)
  /-- Next sibling ordinal per parent id; the empty text keys the root set. -/
  ordinals : String → UInt32

def ProjectionState.new : ProjectionState where
  candidates := []
  diagnostics := []
  sections := []
  ordinals := fun _ => 0

/-- Emit one candidate under `parent`, assigning its provisional id and sibling ordinal. -/
def emit (parent : Option String) (kind : SourceNodeKind) (label : Option String) (text : String)
    (locator : SourceLocator) (state : ProjectionState) : String × ProjectionState :=
  let provisional := provisional_id state.candidates.length
  let ordinal := state.ordinals (parent.getD "")
  (provisional,
    { state with
      candidates := state.candidates ++
        [{ provisional_id := provisional, parent_id := parent, kind := kind, ordinal := ordinal,
           label := label, canonical_text := text, locator := locator }]
      ordinals := Function.update state.ordinals (parent.getD "") (ordinal + 1) })

/-- The innermost open section's provisional id. -/
def ProjectionState.current_section (state : ProjectionState) : Option String :=
  state.sections.head?.map Prod.snd

def ProjectionState.diagnose (state : ProjectionState) (diagnostics : List PdfIngestDiagnostic) :
    ProjectionState :=
  { state with diagnostics := state.diagnostics ++ diagnostics }

/-! ## The projection -/

section Projection

variable [Coordinates] (rules : PdfLayoutRules)

def excluded_lines (page index : UInt32) (block : BboxBlock) : List PdfIngestDiagnostic :=
  block.lines.filterMap fun line =>
    (excluded_band rules line).map fun band =>
      { kind := .ExcludedByRule band, page := page, block := index, bbox := line.bbox
        detail := line_text line }

/-- Project one block: classify, diagnose, and emit. -/
def project_block (page index : UInt32) (printed_label : Option String) (block : BboxBlock)
    (state : ProjectionState) : ProjectionState :=
  let locator := fun bbox => SourceLocator.Pdf page printed_label bbox
  let state := state.diagnose (excluded_lines rules page index block)
  let retained := block.lines.filter fun line => (excluded_band rules line).isNone
  match retained with
  | [] =>
    if block.lines.isEmpty || block.lines.all fun line => line.words.isEmpty then
      state.diagnose [{ kind := .UnclassifiableBlock, page := page, block := index
                        bbox := block.bbox, detail := "the block carries no words" }]
    else state
  | line :: rest =>
    let first_word := (line.words.head?.map BboxWord.text).getD ""
    let text := block_text retained
    if (rules.note_prefixes.get first_word).isSome then
      (emit state.current_section .Note none text (locator block.bbox) state).2
    else if (rules.caption_prefixes.get first_word).isSome then
      (emit state.current_section .FigureCaption none text (locator block.bbox) state).2
    else
      let depth :=
        if rest.isEmpty then
          (numbering_depth first_word).filter fun depth => depth ≤ rules.max_heading_depth.toNat
        else none
      match depth with
      | some depth =>
        let state :=
          { state with sections := state.sections.dropWhile fun opened => depth ≤ opened.1 }
        let (id, state) :=
          emit state.current_section .Section (some first_word) text (locator line.bbox) state
        { state with sections := (depth, id) :: state.sections }
      | none =>
        let state :=
          if is_table_shaped retained then
            state.diagnose [{ kind := .StructuralLoss "table", page := page, block := index
                              bbox := block.bbox
                              detail := "column-aligned multi-line block; " ++
                                "no rule proves row/cell structure" }]
          else state
        (emit state.current_section .Paragraph none text (locator block.bbox) state).2

/-- Project the blocks of one page, in reading order. -/
def project_page (state : ProjectionState) (entry : BboxPage × ℕ) : ProjectionState :=
  let printed_label := page_label rules entry.1
  (sortBy (fun a b => reading_cmp rules a.1 b.1) entry.1.blocks.zipIdx).foldl
    (fun state block =>
      project_block rules (UInt32.ofNat entry.2 + 1) (UInt32.ofNat block.2) printed_label block.1
        state)
    state

def project (document : BboxDocument) : ProjectionState :=
  document.pages.zipIdx.foldl (project_page rules) ProjectionState.new

end Projection

/-! ## Assembly -/

structure PdfIngestion where
  nodes : List SourceNode
  diagnostics : List PdfIngestDiagnostic

def assemble [Sha256] (mint : ℕ → String) (source_revision_uid : String)
    (projection : ProjectionState) : Except SourceGraphError PdfIngestion := do
  let nodes ← Corpus.assemble mint source_revision_uid PDF_MEDIA_TYPE projection.candidates
  .ok { nodes := nodes, diagnostics := sortBy diagnostic_cmp projection.diagnostics }

end Evidence.Corpus.Pdf
