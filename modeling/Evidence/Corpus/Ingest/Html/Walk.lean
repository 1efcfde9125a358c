/-
`corpus/ingest/html/walk.rs` and `emit.rs` -- the walk over the DOM.

Two recursions over the tree. `collect_text` folds a subtree's text into a buffer and
leaves the state but for diagnostics and links. The walk takes the blocks of a container in
document order, emits their nodes, and collects their texts; it comes back to the blocks that
collecting left out where they are children of a list item, a definition or a table
cell. A run ends at the first bound that is exceeded.
-/
import Evidence.Corpus.Ingest.Html.Adapter

set_option autoImplicit false

namespace Evidence.Corpus.Html

variable [UnicodeTables] [StrDebug]

/-! ## Collecting text -/

/-- What collecting does with an element. -/
inductive InlineKind where
  | Dropped
  | Break
  | Link
  /-- A structural block, which projects as a node of its own. -/
  | Block
  | Paragraph
  | Transparent
  | Unsupported
deriving DecidableEq

/-- Structural blocks are folded in captions and stray runs only. -/
def inline_kind (fold_blocks : Bool) (name : String) : InlineKind :=
  if is_dropped name then .Dropped
  else if name = "br" ∨ name = "wbr" then .Break
  else if name = "a" then .Link
  else if !fold_blocks && NESTED_BLOCK_TAGS.contains name then .Block
  else if name = "p" then .Paragraph
  else if fold_blocks || is_inline name then .Transparent
  else .Unsupported

def dropped_detail (name : String) : String := "element <" ++ name ++ "> drops by the closed rule"

/-- Diagnose a drop by the closed rule, if it loses something. -/
def diagnose_dropped (el : Element) (children : List Dom) (path : List UInt32) (a : Adapter) :
    Adapter :=
  if carries_content children then
    a.diagnose (.DroppedByClosedRule el.name) path (dropped_detail el.name) el
  else a

def next_index : Dom → UInt32 → UInt32
  | .Element _ _, index => index + 1
  | .Text _ _, index => index
  | .Other, index => index

mutual

/-- Fold the inline content of a node's children into a buffer. -/
def collect_text (fold_blocks : Bool) (nodes : List Dom) (path : List UInt32) (index : UInt32)
    (state : Adapter × Raw) : Adapter × Raw :=
  match nodes with
  | [] => state
  | child :: rest =>
    collect_text fold_blocks rest path (next_index child index)
      (collect_node fold_blocks child (path ++ [index]) state)
termination_by structural nodes

def collect_node (fold_blocks : Bool) (child : Dom) (child_path : List UInt32)
    (state : Adapter × Raw) : Adapter × Raw :=
  match child with
  | .Text id text => (state.1, state.2.push_text id text)
  | .Other => state
  | .Element el children =>
    let (a, out) := state
    match inline_kind fold_blocks el.name with
    | .Dropped => (diagnose_dropped el children child_path a, out)
    | .Break => (a, out.push_newline)
    | .Link => collect_text fold_blocks children child_path 0 (a.record_link el child_path, out)
    | .Block => (a, out)
    | .Paragraph => collect_text fold_blocks children child_path 0 (a, out.break_line)
    | .Transparent => collect_text fold_blocks children child_path 0 (a, out)
    | .Unsupported =>
      collect_text fold_blocks children child_path 0
        (a.diagnose (.UnsupportedElement el.name) child_path
          ("element <" ++ el.name ++
            "> is not represented; its text is retained in the enclosing block") el, out)
termination_by structural child

end

/-- The text of a node's children. -/
def collect (fold_blocks : Bool) (children : List Dom) (path : List UInt32) (a : Adapter) :
    Adapter × Raw :=
  collect_text fold_blocks children path 0 (a, .empty)

/-! ## Leaves -/

/-- Fold a text into the open note, or emit it as a paragraph. A blank text projects
nothing. -/
def absorb_or_emit (s : Setup) (raw : Raw) (path : List UInt32) (a : Adapter) :
    Except HtmlIngestError Adapter :=
  if is_blank raw.text then .ok a
  else
    match a.absorbers with
    | absorber :: rest =>
      .ok { a with absorbers := { absorber with text := absorber.text.push_line raw } :: rest }
    | [] => emit_leaf s .Paragraph none (normalize_prose raw.text) raw.sources path a

/-- Flush the stray-text buffer. -/
def flush_stray (s : Setup) (stray : Raw) (path : List UInt32) (a : Adapter) :
    Except HtmlIngestError Adapter :=
  absorb_or_emit s stray path a

def paragraph (s : Setup) (children : List Dom) (path : List UInt32) (a : Adapter) :
    Except HtmlIngestError Adapter :=
  let (a, raw) := collect false children path a
  absorb_or_emit s raw path a

def code_block (s : Setup) (children : List Dom) (path : List UInt32) (a : Adapter) :
    Except HtmlIngestError Adapter :=
  let (a, raw) := collect false children path a
  emit_leaf s .CodeBlock none (normalize_code raw.text) raw.sources path a

def figure_caption (s : Setup) (children : List Dom) (path : List UInt32) (a : Adapter) :
    Except HtmlIngestError Adapter :=
  let (a, raw) := collect true children path a
  emit_leaf s .FigureCaption none (normalize_prose raw.text) raw.sources path a

/-- The node of a list item; its nested blocks follow. -/
def list_item_node (s : Setup) (children : List Dom) (path : List UInt32) (a : Adapter) :
    Except HtmlIngestError Adapter :=
  let (a, raw) := collect false children path a
  emit_leaf s .ListItem none (normalize_prose raw.text) raw.sources path a

/-- The node of a definition term or body; its nested blocks follow. A term's text is
its label. -/
def definition_node (s : Setup) (is_term : Bool) (children : List Dom) (path : List UInt32)
    (a : Adapter) : Except HtmlIngestError Adapter :=
  let (a, raw) := collect false children path a
  let canonical := normalize_prose raw.text
  let label := if is_term && !canonical.isEmpty then some canonical else none
  emit_leaf s (if is_term then .DefinitionTerm else .DefinitionBody) label canonical raw.sources
    path a

/-! ## Headings -/

/-- The fragment of a heading: its explicit id, or a slug that is not used yet. -/
def heading_fragment (el : Element) (label_text : String) (path : List UInt32) (a : Adapter) :
    String × Adapter :=
  match (el.attr "id").filter fun id => !is_blank id with
  | some id =>
    let claimed := { a with used_anchors := id :: a.used_anchors }
    if id ∈ a.used_anchors then
      (id, a.diagnose (.DuplicateAnchor id) path
        ("explicit id " ++ str_debug id ++ " is claimed more than once") el)
    else (id, claimed)
  | none =>
    let (fragment, used_anchors) := dedup_anchor a.used_anchors (slugify label_text)
    (fragment, { a with used_anchors := used_anchors })

def Adapter.close_sections (level : ℕ) (a : Adapter) : Adapter :=
  { a with sections := a.sections.dropWhile fun entry => level ≤ entry.level }

/-- A heading opens a section under the nearest lower-level one. -/
def heading (s : Setup) (el : Element) (level : ℕ) (children : List Dom) (path : List UInt32)
    (a : Adapter) : Except HtmlIngestError Adapter := do
  let (a, raw) := collect false children path (a.close_sections level)
  let label_text := normalize_prose raw.text
  let (fragment, a) := heading_fragment el label_text path a
  let label := if label_text.isEmpty then none else some label_text
  let heading_path := a.section_path ++ label.toList
  let (provisional, a) ← emit s a.section_parent path
    { kind := .Section, label := label, canonical_text := label.getD ""
      fragment := some fragment, heading_path := heading_path, sources := raw.sources } a
  .ok { a with sections := ⟨level, provisional, heading_path⟩ :: a.sections }

/-! ## Notes -/

/-- Open a note frame. Its identity and ordinal are assigned here, so that the blocks
in it order after it. -/
def open_note (path : List UInt32) (a : Adapter) : Adapter :=
  let parent := a.section_parent
  let heading_path := a.section_path
  let (provisional, a) := a.provisional
  let (ordinal, a) := a.next_ordinal parent
  { a with absorbers := ⟨provisional, parent, ordinal, path, heading_path, .empty⟩ :: a.absorbers }

/-- Close the innermost note frame, and emit its node. -/
def close_note (s : Setup) (a : Adapter) : Except HtmlIngestError Adapter :=
  match a.absorbers with
  | [] => .ok a
  | frame :: rest =>
    emit_closed_note s frame (normalize_prose frame.text.text) { a with absorbers := rest }

/-! ## Blocks -/

/-- What the walk does with an element. -/
inductive BlockKind where
  | Excluded (selector : String)
  | Dropped
  | Heading (level : ℕ)
  | Paragraph
  | Transparent
  | ListItem
  | Definition (is_term : Bool)
  | Table
  | CodeBlock
  | Note
  | FigureCaption
  | SkippedSubtree
  | Unsupported
deriving DecidableEq

/-- The native structural mapping of a tag. -/
def native_kind (name : String) : Option BlockKind :=
  match name with
  | "h1" => some (.Heading 1)
  | "h2" => some (.Heading 2)
  | "h3" => some (.Heading 3)
  | "h4" => some (.Heading 4)
  | "h5" => some (.Heading 5)
  | "h6" => some (.Heading 6)
  | "p" => some .Paragraph
  | "ul" | "ol" | "dl" | "figure" => some .Transparent
  | "li" => some .ListItem
  | "dt" => some (.Definition true)
  | "dd" => some (.Definition false)
  | "table" => some .Table
  | "pre" => some .CodeBlock
  | "blockquote" => some .Note
  | "figcaption" => some .FigureCaption
  | _ => none

/-- Exclusions prune first, then the closed-rule drop set, then the native mapping, then the
classification selectors, then the known containers. -/
def Setup.block_kind (s : Setup) (el : Element) : BlockKind :=
  match s.matches_exclusion el with
  | some selector => .Excluded selector
  | none =>
    if is_dropped el.name then .Dropped
    else
      match native_kind el.name with
      | some kind => kind
      | none =>
        if s.matches_note el then .Note
        else if s.matches_figure_caption el then .FigureCaption
        else if is_inline el.name || is_container el.name then .Transparent
        else if skips_subtree el.name then .SkippedSubtree
        else .Unsupported

/-- Is a child of a text-collecting container walked after its text was collected? -/
def Setup.is_nested_block (s : Setup) (el : Element) : Bool :=
  NESTED_BLOCK_TAGS.contains el.name || s.matches_note el || s.matches_figure_caption el

/-! ## Tables -/

/-- A `BTreeMap` from columns to the number of further rows that cover them. -/
abbrev Covered := Store (Prod.fst : ℕ × ℕ → ℕ)

/-- The HTML-spec maximum column span. -/
def MAX_COLSPAN : ℕ := 1000

/-- The HTML-spec maximum row span. -/
def MAX_ROWSPAN : ℕ := 65534

/-- `value.parse::<u32>()`. -/
def parse_u32 (value : String) : Option ℕ :=
  let digits := (value.toList.head?.elim value.toList fun c =>
    if c = '+' then value.toList.tail else value.toList)
  if digits.isEmpty || !digits.all Char.isDigit then none
  else
    let n := digits.foldl (fun n c => n * 10 + (c.toNat - '0'.toNat)) 0
    if n < 2 ^ 32 then some n else none

/-- A cell's span attribute: a positive integer clamped to `max`, or 1. -/
def span (el : Element) (name : String) (max : ℕ) : ℕ :=
  min ((((el.attr name).bind parse_u32).filter fun n => 1 ≤ n).getD 1) max

/-- How a table takes its children. -/
inductive RowGroup where
  | Group (is_header : Bool)
  | Row
  | Foreign
deriving DecidableEq

def row_group (name : String) : RowGroup :=
  if name = "thead" then .Group true
  else if name = "tbody" ∨ name = "tfoot" then .Group false
  else if name = "tr" then .Row
  else .Foreign

/-- Diagnose a non-row child of a table or a row group. -/
def diagnose_table_child (el : Element) (children : List Dom) (path : List UInt32) (a : Adapter) :
    Adapter :=
  if is_dropped el.name then diagnose_dropped el children path a
  else
    a.diagnose (.UnsupportedElement el.name) path
      ("element <" ++ el.name ++ "> is not represented in the table projection") el

def collect_group (is_header : Bool) : List Dom → List UInt32 → UInt32 → Adapter →
    Adapter × List (List Dom × List UInt32 × Bool)
  | [], _, _, a => (a, [])
  | .Element el children :: rest, path, index, a =>
    if el.name = "tr" then
      let (a, rows) := collect_group is_header rest path (index + 1) a
      (a, (children, path ++ [index], is_header) :: rows)
    else
      collect_group is_header rest path (index + 1)
        (diagnose_table_child el children (path ++ [index]) a)
  | .Text _ _ :: rest, path, index, a => collect_group is_header rest path index a
  | .Other :: rest, path, index, a => collect_group is_header rest path index a

/-- A table's rows in document order, each with its path and whether it is a header row, and
the diagnostics of the other children. -/
def collect_rows : List Dom → List UInt32 → UInt32 → Adapter →
    Adapter × List (List Dom × List UInt32 × Bool)
  | [], _, _, a => (a, [])
  | .Element el children :: rest, path, index, a =>
    match row_group el.name with
    | .Group is_header =>
      let (a, group) := collect_group is_header children (path ++ [index]) 0 a
      let (a, rows) := collect_rows rest path (index + 1) a
      (a, group ++ rows)
    | .Row =>
      let (a, rows) := collect_rows rest path (index + 1) a
      (a, (children, path ++ [index], false) :: rows)
    | .Foreign =>
      collect_rows rest path (index + 1) (diagnose_table_child el children (path ++ [index]) a)
  | .Text _ _ :: rest, path, index, a => collect_rows rest path index a
  | .Other :: rest, path, index, a => collect_rows rest path index a

def table_node (s : Setup) (path : List UInt32) (a : Adapter) :
    Except HtmlIngestError (String × Adapter) :=
  emit s a.section_parent path
    { kind := .Table, label := none, canonical_text := "", fragment := none
      heading_path := a.section_path, sources := [] } a

def row_node (s : Setup) (table : String) (row_path : List UInt32) (is_header : Bool)
    (a : Adapter) : Except HtmlIngestError (String × Adapter) :=
  let a := if is_header then { a with header_rows := a.header_rows + 1 } else a
  let label := if is_header then some ("header " ++ decimal a.header_rows) else none
  emit s (some table) row_path
    { kind := .TableRow, label := label, canonical_text := "", fragment := none
      heading_path := a.section_path, sources := [] } a

/-- Emit one cell node under a row. -/
def emit_cell (s : Setup) (row_id : String) (canonical_text : String) (sources : List ℕ)
    (path : List UInt32) (a : Adapter) : Except HtmlIngestError Adapter := do
  let (_, a) ← emit s (some row_id) path
    { kind := .TableCell, label := none, canonical_text := canonical_text, fragment := none
      heading_path := a.section_path, sources := sources } a
  .ok a

def emit_blank_cells (s : Setup) (row_id : String) (path : List UInt32) : ℕ → Adapter →
    Except HtmlIngestError Adapter
  | 0, a => .ok a
  | n + 1, a => do emit_blank_cells s row_id path n (← emit_cell s row_id "" [] path a)

/-- How far a row has come: its column, the columns earlier rows cover, those the next rows find
covered, and those its own cells cover. -/
structure RowState where
  col : ℕ
  carry : Covered
  pending : Covered
  new_pending : List (ℕ × ℕ)

def RowState.start (pending : Covered) : RowState := ⟨0, pending, Store.empty, []⟩

def covered_run : ℕ → List (ℕ × ℕ) → List (ℕ × ℕ)
  | _, [] => []
  | col, entry :: rest => if entry.1 = col then entry :: covered_run (col + 1) rest else []

/-- A covered column stays pending while it covers further rows. -/
def keep_pending (pending : Covered) (entry : ℕ × ℕ) : Covered :=
  if entry.2 > 1 then pending.put (entry.1, entry.2 - 1) else pending

/-- One placeholder for a covered column. -/
def pass_covered (s : Setup) (row_id : String) (row_path : List UInt32)
    (state : RowState × Adapter) (entry : ℕ × ℕ) : Except HtmlIngestError (RowState × Adapter) := do
  let (row, a) := state
  let a ← emit_cell s row_id "" [] row_path a
  .ok ({ row with
    col := row.col + 1
    carry := row.carry.remove entry.1
    pending := keep_pending row.pending entry }, a)

/-- The columns of `carry.range(col..)`. -/
def RowState.ahead (row : RowState) : List (ℕ × ℕ) :=
  row.carry.values.filter fun entry => row.col ≤ entry.1

/-- Emit a placeholder for each covered column the next cell has to pass. -/
def pass_columns (s : Setup) (row_id : String) (row_path : List UInt32) (row : RowState)
    (a : Adapter) : Except HtmlIngestError (RowState × Adapter) :=
  (covered_run row.col row.ahead).foldlM (pass_covered s row_id row_path) (row, a)

/-- The columns a cell covers in the rows below it. -/
def spanned (col colspan rowspan : ℕ) : List (ℕ × ℕ) :=
  if rowspan > 1 then (List.range' col colspan).map fun covered => (covered, rowspan - 1) else []

/-- The nodes of one cell: the origin and its continuations. Its nested blocks follow. -/
def cell_nodes (s : Setup) (row_id : String) (row_path : List UInt32) (el : Element)
    (children : List Dom) (cell_path : List UInt32) (row : RowState) (a : Adapter) :
    Except HtmlIngestError (RowState × Adapter) := do
  let (row, a) ← pass_columns s row_id row_path row a
  let colspan := span el "colspan" MAX_COLSPAN
  let rowspan := span el "rowspan" MAX_ROWSPAN
  let (a, raw) := collect false children cell_path a
  let a ← emit_cell s row_id (normalize_prose raw.text) raw.sources cell_path a
  let a ← emit_blank_cells s row_id cell_path (colspan - 1) a
  .ok ({ row with
    col := row.col + colspan
    new_pending := row.new_pending ++ spanned row.col colspan rowspan }, a)

/-- The end of a row: a placeholder for each covered column that is left. -/
def finish_row (s : Setup) (row_id : String) (row_path : List UInt32) (row : RowState)
    (a : Adapter) : Except HtmlIngestError (Covered × Adapter) := do
  let (pending, a) ← row.ahead.foldlM
    (fun (state : Covered × Adapter) entry => do
      let a ← emit_cell s row_id "" [] row_path state.2
      .ok (keep_pending state.1 entry, a)) (row.pending, a)
  .ok (row.new_pending.foldl Store.put pending, a)

/-! ## The walk -/

def is_cell (el : Element) : Bool := el.name == "th" || el.name == "td"

mutual

/-- Walk a container's children in document order; texts and inline elements gather in
the stray buffer. -/
def walk_children (s : Setup) (nodes : List Dom) (path : List UInt32) (index : UInt32)
    (stray : Raw) (a : Adapter) : Except HtmlIngestError Adapter :=
  match nodes with
  | [] => flush_stray s stray path a
  | .Text id text :: rest => walk_children s rest path index (stray.push_text id text) a
  | .Other :: rest => walk_children s rest path index stray a
  | .Element el children :: rest =>
    if is_inline el.name then
      let (a, stray) := collect_text true children (path ++ [index]) 0 (a, stray)
      walk_children s rest path (index + 1) stray a
    else do
      let a ← flush_stray s stray path a
      let a ← walk_element s (.Element el children) (path ++ [index]) a
      walk_children s rest path (index + 1) .empty a
termination_by structural nodes

/-- Dispatch one block element. -/
def walk_element (s : Setup) (node : Dom) (path : List UInt32) (a : Adapter) :
    Except HtmlIngestError Adapter :=
  match node with
  | .Text _ _ => .ok a
  | .Other => .ok a
  | .Element el children =>
    match s.block_kind el with
    | .Excluded selector =>
      .ok (a.diagnose (.ExcludedByRecipe selector) path
        ("element <" ++ el.name ++ "> subtree excluded by recipe selector " ++
          str_debug selector) el)
    | .Dropped => .ok (diagnose_dropped el children path a)
    | .Heading level => heading s el level children path a
    | .Paragraph => paragraph s children path a
    | .Transparent => walk_children s children path 0 .empty a
    | .ListItem => do
      let a ← list_item_node s children path a
      walk_nested_blocks s children path 0 a
    | .Definition is_term => do
      let a ← definition_node s is_term children path a
      walk_nested_blocks s children path 0 a
    | .Table => do
      let (table, a) ← table_node s path a
      let (a, _) := collect_rows children path 0 a
      let (_, a) ← table_rows s table children path 0 Store.empty a
      .ok a
    | .CodeBlock => code_block s children path a
    | .Note => do
      let a ← walk_children s children path 0 .empty (open_note path a)
      close_note s a
    | .FigureCaption => figure_caption s children path a
    | .SkippedSubtree =>
      .ok (a.diagnose (.UnsupportedElement el.name) path
        ("element <" ++ el.name ++ "> is not represented; its subtree is skipped") el)
    | .Unsupported =>
      walk_children s children path 0 .empty
        (a.diagnose (.UnsupportedElement el.name) path
          ("element <" ++ el.name ++ "> is not represented; its children are retained") el)
termination_by structural node

/-- Walk the block children of a container whose text was collected. -/
def walk_nested_blocks (s : Setup) (nodes : List Dom) (path : List UInt32) (index : UInt32)
    (a : Adapter) : Except HtmlIngestError Adapter :=
  match nodes with
  | [] => .ok a
  | .Text _ _ :: rest => walk_nested_blocks s rest path index a
  | .Other :: rest => walk_nested_blocks s rest path index a
  | .Element el children :: rest => do
    let a ← if s.is_nested_block el then walk_element s (.Element el children) (path ++ [index]) a
      else .ok a
    walk_nested_blocks s rest path (index + 1) a
termination_by structural nodes

/-- Project the rows among a table's children, and those of its row groups. -/
def table_rows (s : Setup) (table : String) (nodes : List Dom) (path : List UInt32)
    (index : UInt32) (pending : Covered) (a : Adapter) :
    Except HtmlIngestError (Covered × Adapter) :=
  match nodes with
  | [] => .ok (pending, a)
  | .Text _ _ :: rest => table_rows s table rest path index pending a
  | .Other :: rest => table_rows s table rest path index pending a
  | .Element el children :: rest => do
    let (pending, a) ←
      match row_group el.name with
      | .Group is_header =>
        table_group s table is_header (.Element el children) (path ++ [index]) pending a
      | .Row => table_row s table false (.Element el children) (path ++ [index]) pending a
      | .Foreign => .ok (pending, a)
    table_rows s table rest path (index + 1) pending a
termination_by structural nodes

/-- Project the rows of a row group. -/
def table_group (s : Setup) (table : String) (is_header : Bool) (group : Dom)
    (path : List UInt32) (pending : Covered) (a : Adapter) :
    Except HtmlIngestError (Covered × Adapter) :=
  match group with
  | .Text _ _ => .ok (pending, a)
  | .Other => .ok (pending, a)
  | .Element _ children => group_rows s table is_header children path 0 pending a
termination_by structural group

/-- Project the rows among a row group's children. -/
def group_rows (s : Setup) (table : String) (is_header : Bool) (nodes : List Dom)
    (path : List UInt32) (index : UInt32) (pending : Covered) (a : Adapter) :
    Except HtmlIngestError (Covered × Adapter) :=
  match nodes with
  | [] => .ok (pending, a)
  | .Text _ _ :: rest => group_rows s table is_header rest path index pending a
  | .Other :: rest => group_rows s table is_header rest path index pending a
  | .Element el children :: rest => do
    let (pending, a) ←
      if el.name = "tr" then
        table_row s table is_header (.Element el children) (path ++ [index]) pending a
      else .ok (pending, a)
    group_rows s table is_header rest path (index + 1) pending a
termination_by structural nodes

/-- Project one row. Returns what the next row finds pending. -/
def table_row (s : Setup) (table : String) (is_header : Bool) (row : Dom)
    (row_path : List UInt32) (pending : Covered) (a : Adapter) :
    Except HtmlIngestError (Covered × Adapter) :=
  match row with
  | .Text _ _ => .ok (pending, a)
  | .Other => .ok (pending, a)
  | .Element _ children => do
    let (row_id, a) ← row_node s table row_path is_header a
    row_cells s row_id row_path children 0 (.start pending) a
termination_by structural row

/-- Project the cells among a row's children; `index` counts the cells before. -/
def row_cells (s : Setup) (row_id : String) (row_path : List UInt32) (nodes : List Dom)
    (index : UInt32) (row : RowState) (a : Adapter) :
    Except HtmlIngestError (Covered × Adapter) :=
  match nodes with
  | [] => finish_row s row_id row_path row a
  | .Text _ _ :: rest => row_cells s row_id row_path rest index row a
  | .Other :: rest => row_cells s row_id row_path rest index row a
  | .Element el children :: rest =>
    if is_cell el then do
      let (row, a) ← row_cell s row_id row_path (.Element el children) (row_path ++ [index]) row a
      row_cells s row_id row_path rest (index + 1) row a
    else row_cells s row_id row_path rest index row a
termination_by structural nodes

/-- Project one cell, then walk its nested blocks. -/
def row_cell (s : Setup) (row_id : String) (row_path : List UInt32) (cell : Dom)
    (cell_path : List UInt32) (row : RowState) (a : Adapter) :
    Except HtmlIngestError (RowState × Adapter) :=
  match cell with
  | .Text _ _ => .ok (row, a)
  | .Other => .ok (row, a)
  | .Element el children => do
    let (row, a) ← cell_nodes s row_id row_path el children cell_path row a
    let a ← walk_nested_blocks s children cell_path 0 a
    .ok (row, a)
termination_by structural cell

end

end Evidence.Corpus.Html
