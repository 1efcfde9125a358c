/-
`corpus/ingest/pdf/bbox/walk.rs` -- the walk over the extractor's XHTML.

Six loops, one inside the other, look at the element children: `html`, `head` or `body`, `doc`,
`page`, `flow`, `block`, `line`, `word`. Each element that is entered is counted, and the counts,
the attributes and the numbers of pages, blocks, lines and words are bounded. The walk succeeds
exactly on the trees of this shape within the bounds, and what it builds is read off the
tree level by level (`build_document_iff`).

Coordinates are `f64` values; how one is parsed from an attribute is the class `F64Parse`, about
which nothing is assumed. `Node::text` of the parser library is the class `XmlText`, with its
rule for elements.
-/
import Evidence.Corpus.Ingest.Pdf.Project
import Evidence.Lib.Quota
import Evidence.Lines

set_option autoImplicit false

namespace Evidence.Corpus.Pdf

open Check Quota

/-! ## The tree -/

/-- A node of the parsed document. -/
inductive XmlNode where
  | Element (name : String) (attributes : List (String × String)) (children : List XmlNode)
  | Text (text : String)
  | Comment (text : String)

namespace XmlNode

def is_element : XmlNode → Bool
  | Element .. => true
  | _ => false

def tag_name : XmlNode → String
  | Element name _ _ => name
  | _ => ""

def attributes : XmlNode → List (String × String)
  | Element _ attributes _ => attributes
  | _ => []

/-- `node.attribute(name)`. -/
def attribute_value (node : XmlNode) (name : String) : Option String :=
  (node.attributes.find? fun entry => entry.1 == name).map Prod.snd

def children : XmlNode → List XmlNode
  | Element _ _ children => children
  | _ => []

/-- `node.children().filter(is_element)`. -/
def elements (node : XmlNode) : List XmlNode := node.children.filter is_element

def first_text : List XmlNode → Option String
  | Text text :: _ => some text
  | _ => none

end XmlNode

/-- `Node::text`: the text of an element is that of its first child, if that is a text. -/
class XmlText where
  text : XmlNode → Option String
  text_element : ∀ (name : String) (attributes : List (String × String))
    (children : List XmlNode), text (.Element name attributes children) =
      XmlNode.first_text children

/-- `str::parse::<f64>`, where it succeeds. -/
class F64Parse where
  parse : String → Option F64

/-! ## Bounds and errors -/

def MAX_DEPTH : ℕ := 10
def MAX_ELEMENTS : ℕ := 65536
def MAX_ATTRIBUTES_PER_ELEMENT : ℕ := 8
def MAX_LINES_PER_BLOCK : ℕ := 1024
def MAX_WORDS_PER_LINE : ℕ := 256

/-- One million. -/
def MAX_COORDINATE : F64 := ⟨0x412E848000000000⟩

/-- The failures of the walk. -/
inductive BboxParseError where
  | BoundExceeded (what : String) (actual limit page : ℕ) (path : String)
  | UnknownElement (element : String) (page : ℕ) (path : String)
  | MissingDimensions (page : ℕ)
  | InvalidCoordinate (element : String) (page : ℕ) (path detail : String)
  | EmptyDocument
deriving DecidableEq

/-- A page with its dimensions. -/
structure SizedPage extends BboxPage where
  width : F64
  height : F64

structure ParsedDocument where
  pages : List SizedPage

/-! ## The walk -/

/-- `ParseState::enter`: count one element, at its depth, the document node counted. -/
def enter (elements : ℕ) (node : XmlNode) (depth : ℕ) (path : String) (page : ℕ) :
    Except BboxParseError ℕ :=
  let elements := elements + 1
  if elements > MAX_ELEMENTS then
    .error (.BoundExceeded "elements" elements MAX_ELEMENTS page path)
  else if depth > MAX_DEPTH then .error (.BoundExceeded "depth" depth MAX_DEPTH page path)
  else if node.attributes.length > MAX_ATTRIBUTES_PER_ELEMENT then
    .error (.BoundExceeded "attributes" node.attributes.length MAX_ATTRIBUTES_PER_ELEMENT page path)
  else .ok elements

def unknown (node : XmlNode) (path : String) (page : ℕ) : BboxParseError :=
  .UnknownElement node.tag_name page path

def expect_element (node : XmlNode) (name path : String) (page : ℕ) :
    Except BboxParseError Unit :=
  failIf (node.tag_name ≠ name) (unknown node path page)

/-- Room for one more. -/
def expect_room (what : String) (count limit page : ℕ) (path : String) :
    Except BboxParseError Unit :=
  failIf (count ≥ limit) (.BoundExceeded what (count + 1) limit page path)

section Walk

variable [F64Parse]

/-- A dimension that a page may have. -/
def is_dimension (value : F64) : Bool :=
  value.is_finite && F64.zero.lt value && !MAX_COORDINATE.lt value

def dimension (node : XmlNode) (attr : String) (page : ℕ) : Except BboxParseError F64 :=
  match ((node.attribute_value attr).bind F64Parse.parse).filter is_dimension with
  | none => .error (.MissingDimensions page)
  | some value => .ok value

/-- One coordinate of a box. -/
def coordinate (invalid : String → BboxParseError) (node : XmlNode) (attr : String) :
    Except BboxParseError F64 :=
  match (node.attribute_value attr).bind F64Parse.parse with
  | none => .error (invalid (attr ++ " is missing or not a number"))
  | some value =>
    if !value.is_finite then .error (invalid (attr ++ " is not finite"))
    else if value.lt F64.zero then .error (invalid (attr ++ " is negative"))
    else if MAX_COORDINATE.lt value then
      .error (invalid (attr ++ " exceeds the magnitude bound"))
    else .ok value

def coordinates (node : XmlNode) (element path : String) (page : ℕ) (width height : F64) :
    Except BboxParseError Bbox := do
  let invalid := fun detail => BboxParseError.InvalidCoordinate element page path detail
  let x_min ← coordinate invalid node "xMin"
  let y_min ← coordinate invalid node "yMin"
  let x_max ← coordinate invalid node "xMax"
  let y_max ← coordinate invalid node "yMax"
  failIf (x_max.lt x_min || y_max.lt y_min) (invalid "the corners are reversed on an axis")
  failIf (width.lt x_max || height.lt y_max) (invalid "the box lies outside the page extent")
  .ok #v[x_min, y_min, x_max, y_max]

variable [XmlText] (page : ℕ) (width height : F64)

/-- One word of a line, on what was counted and collected so far. -/
def build_word (line_path : String) (state : ℕ × List BboxWord) (node : XmlNode) :
    Except BboxParseError (ℕ × List BboxWord) := do
  let path := line_path ++ "/word"
  let elements ← enter state.1 node 9 path page
  expect_element node "word" path page
  match node.elements with
  | child :: _ =>
    let child_path := path ++ "/" ++ child.tag_name
    let _ ← enter elements child 10 child_path page
    .error (unknown child child_path page)
  | [] =>
    expect_room "words" state.2.length MAX_WORDS_PER_LINE page path
    let bbox ← coordinates node "word" path page width height
    .ok (elements, state.2 ++ [{ bbox := bbox, text := (XmlText.text node).getD "" }])

def build_line (block_path : String) (state : ℕ × List BboxLine) (node : XmlNode) :
    Except BboxParseError (ℕ × List BboxLine) := do
  let path := block_path ++ "/line"
  let elements ← enter state.1 node 8 path page
  expect_element node "line" path page
  expect_room "lines" state.2.length MAX_LINES_PER_BLOCK page path
  let bbox ← coordinates node "line" path page width height
  let (elements, words) ← node.elements.foldlM (build_word page width height path) (elements, [])
  .ok (elements, state.2 ++ [{ bbox := bbox, words := words }])

def build_block (flow_path : String) (state : ℕ × List BboxBlock) (node : XmlNode) :
    Except BboxParseError (ℕ × List BboxBlock) := do
  let path := flow_path ++ "/block"
  let elements ← enter state.1 node 7 path page
  expect_element node "block" path page
  expect_room "blocks" state.2.length MAX_BLOCKS_PER_PAGE page path
  let bbox ← coordinates node "block" path page width height
  let (elements, lines) ← node.elements.foldlM (build_line page width height path) (elements, [])
  .ok (elements, state.2 ++ [{ bbox := bbox, lines := lines }])

/-- One flow of a page. -/
def build_blocks (page_path : String) (state : ℕ × List BboxBlock) (node : XmlNode) :
    Except BboxParseError (ℕ × List BboxBlock) := do
  let path := page_path ++ "/flow"
  let elements ← enter state.1 node 6 path page
  expect_element node "flow" path page
  node.elements.foldlM (build_block page width height path) (elements, state.2)

end Walk

section Document

variable [F64Parse] [XmlText]

/-- One page of a document. -/
def build_page (doc_path : String) (state : ℕ × List SizedPage) (node : XmlNode) :
    Except BboxParseError (ℕ × List SizedPage) := do
  let page_index := state.2.length + 1
  let path := doc_path ++ "/page[" ++ decimal page_index ++ "]"
  let elements ← enter state.1 node 5 path page_index
  expect_element node "page" path page_index
  expect_room "pages" state.2.length MAX_PAGES page_index path
  let width ← dimension node "width" page_index
  let height ← dimension node "height" page_index
  let (elements, blocks) ←
    node.elements.foldlM (build_blocks page_index width height path) (elements, [])
  .ok (elements, state.2 ++ [{ blocks := blocks, width := width, height := height }])

/-- One child of the body. -/
def build_pages (body_path : String) (state : ℕ × List SizedPage) (node : XmlNode) :
    Except BboxParseError (ℕ × List SizedPage) := do
  let path := body_path ++ "/" ++ node.tag_name
  let elements ← enter state.1 node 4 path 0
  expect_element node "doc" path 0
  node.elements.foldlM (build_page path) (elements, state.2)

/-- One child of the root. -/
def build_part (state : ℕ × List SizedPage) (node : XmlNode) :
    Except BboxParseError (ℕ × List SizedPage) := do
  let path := "html/" ++ node.tag_name
  let elements ← enter state.1 node 3 path 0
  if node.tag_name = "head" then
    failIf (node.elements ≠ []) (unknown node path 0)
    .ok (elements, state.2)
  else if node.tag_name = "body" then
    node.elements.foldlM (build_pages path) (elements, state.2)
  else .error (unknown node path 0)

def build_document (root : XmlNode) : Except BboxParseError ParsedDocument := do
  expect_element root "html" "html" 0
  let elements ← enter 0 root 2 "html" 0
  let (_, pages) ← root.elements.foldlM build_part (elements, [])
  failIf pages.isEmpty .EmptyDocument
  .ok { pages := pages }

end Document

/-! ## What the walk accepts, level by level -/

def FewAttributes (node : XmlNode) : Prop := node.attributes.length ≤ MAX_ATTRIBUTES_PER_ELEMENT

theorem enter_ok_iff {elements elements' depth page : ℕ} {node : XmlNode} {path : String} :
    enter elements node depth path page = .ok elements' ↔
      elements + 1 ≤ MAX_ELEMENTS ∧ depth ≤ MAX_DEPTH ∧ FewAttributes node ∧
        elements' = elements + 1 := by
  unfold enter FewAttributes
  simp only
  split_ifs with helements hdepth hattributes
  · simp only [false_iff, not_and]
    omega
  · simp only [false_iff, not_and]
    omega
  · simp only [false_iff, not_and]
    omega
  · rw [Except.ok.injEq]
    constructor
    · intro h
      omega
    · intro h
      exact h.2.2.2.symm

theorem expect_element_ok_iff {node : XmlNode} {name path : String} {page : ℕ} {u : Unit} :
    expect_element node name path page = .ok u ↔ node.tag_name = name := by
  rw [expect_element, failIf_ok_iff, not_not]

theorem expect_room_ok_iff {what path : String} {count limit page : ℕ} {u : Unit} :
    expect_room what count limit page path = .ok u ↔ count + 1 ≤ limit := by
  rw [expect_room, failIf_ok_iff]
  omega

section Accepted

variable [F64Parse]

def number (node : XmlNode) (attr : String) : Option F64 :=
  (node.attribute_value attr).bind F64Parse.parse

def IsCoordinate (value : F64) : Prop :=
  value.is_finite = true ∧ value.lt F64.zero = false ∧ MAX_COORDINATE.lt value = false

/-- The box in the attributes of an element. -/
def box_of (node : XmlNode) : Option Bbox :=
  (number node "xMin").bind fun x_min => (number node "yMin").bind fun y_min =>
    (number node "xMax").bind fun x_max => (number node "yMax").map fun y_max =>
      #v[x_min, y_min, x_max, y_max]

omit [F64Parse] in
/-- **A box of a page**: of coordinates, ordered on both axes, and inside the page. -/
structure InPage (width height : F64) (bbox : Bbox) : Prop where
  coordinates : ∀ value ∈ [x_min bbox, y_min bbox, x_max bbox, y_max bbox], IsCoordinate value
  ordered : (x_max bbox).lt (x_min bbox) = false ∧ (y_max bbox).lt (y_min bbox) = false
  inside : width.lt (x_max bbox) = false ∧ height.lt (y_max bbox) = false

/-- The element has a box of its page. -/
def Boxed (width height : F64) (node : XmlNode) : Prop :=
  ∃ bbox, box_of node = some bbox ∧ InPage width height bbox

theorem coordinate_ok_iff {invalid : String → BboxParseError} {node : XmlNode} {attr : String}
    {value : F64} :
    coordinate invalid node attr = .ok value ↔ number node attr = some value ∧
      IsCoordinate value := by
  unfold coordinate
  change (match number node attr with | none => _ | some value => _) = _ ↔ _
  cases hnumber : number node attr with
  | none => simp only [reduceCtorEq, false_and]
  | some found =>
    rw [Option.some.injEq]
    simp only [IsCoordinate]
    split_ifs with hfinite hnegative hlarge
    · rw [Bool.not_eq_true'] at hfinite
      simp only [false_iff, not_and]
      rintro rfl hfinite'
      rw [hfinite] at hfinite'
      cases hfinite'
    · simp only [false_iff, not_and]
      rintro rfl - hzero
      rw [hnegative] at hzero
      cases hzero
    · simp only [false_iff, not_and]
      rintro rfl - - hsmall
      rw [hlarge] at hsmall
      cases hsmall
    · rw [Except.ok.injEq]
      refine ⟨?_, fun h => h.1⟩
      rintro rfl
      rw [Bool.not_eq_true', Bool.not_eq_false] at hfinite
      rw [Bool.not_eq_true] at hnegative hlarge
      exact ⟨rfl, hfinite, hnegative, hlarge⟩

/-- **The box of an element is read when it is one of its page.** -/
theorem coordinates_ok_iff {node : XmlNode} {element path : String} {page : ℕ}
    {width height : F64} {bbox : Bbox} :
    coordinates node element path page width height = .ok bbox ↔
      box_of node = some bbox ∧ InPage width height bbox := by
  unfold coordinates box_of
  simp only [bind_ok_iff, coordinate_ok_iff, Except.ok.injEq, Option.bind_eq_some_iff,
    Option.map_eq_some_iff, Bool.or_eq_true]
  constructor
  · rintro ⟨x0, ⟨hx0, gx0⟩, y0, ⟨hy0, gy0⟩, x1, ⟨hx1, gx1⟩, y1, ⟨hy1, gy1⟩, ⟨⟩, hordered, ⟨⟩,
      hinside, rfl⟩
    refine ⟨⟨x0, hx0, y0, hy0, x1, hx1, y1, hy1, rfl⟩, ?_, ?_, ?_⟩
    · simp only [List.forall_mem_cons]
      exact ⟨gx0, gy0, gx1, gy1, fun v hv => absurd hv List.not_mem_nil⟩
    · have hnot := failIf_ok_iff.mp hordered
      rwa [not_or, Bool.not_eq_true, Bool.not_eq_true] at hnot
    · have hnot := failIf_ok_iff.mp hinside
      rwa [not_or, Bool.not_eq_true, Bool.not_eq_true] at hnot
  · rintro ⟨⟨x0, hx0, y0, hy0, x1, hx1, y1, hy1, rfl⟩, hall, hordered, hinside⟩
    simp only [List.forall_mem_cons] at hall
    obtain ⟨gx0, gy0, gx1, gy1, -⟩ := hall
    refine ⟨x0, ⟨hx0, gx0⟩, y0, ⟨hy0, gy0⟩, x1, ⟨hx1, gx1⟩, y1, ⟨hy1, gy1⟩, (), ?_, (), ?_, rfl⟩
    · rw [failIf_ok_iff, not_or, Bool.not_eq_true, Bool.not_eq_true]
      exact hordered
    · rw [failIf_ok_iff, not_or, Bool.not_eq_true, Bool.not_eq_true]
      exact hinside

variable [XmlText] {page : ℕ} {width height : F64}

/-! ### Words -/

structure GoodWord (width height : F64) (node : XmlNode) : Prop where
  attributes : FewAttributes node
  name : node.tag_name = "word"
  leaf : node.elements = []
  boxed : Boxed width height node

/-- The word of an element. -/
def word_of (node : XmlNode) : List BboxWord :=
  (box_of node).toList.map fun bbox => { bbox := bbox, text := (XmlText.text node).getD "" }

/-- The elements that are counted at a word. -/
def word_cost (_ : XmlNode) : ℕ := 1

theorem word_of_eq {node : XmlNode} {bbox : Bbox} (h : box_of node = some bbox) :
    word_of node = [{ bbox := bbox, text := (XmlText.text node).getD "" }] := by
  rw [word_of, h, Option.toList_some, List.map_singleton]

/-- **One word.** -/
theorem build_word_meets (path : String) :
    Meets MAX_ELEMENTS MAX_WORDS_PER_LINE (build_word page width height path) word_cost
      (GoodWord width height) word_of := by
  intro spent out node t _ _
  unfold build_word
  simp only [bind_ok_iff, enter_ok_iff, expect_element_ok_iff]
  constructor
  · rintro ⟨elements, ⟨hcost, -, hfew, rfl⟩, -, hname, hrest⟩
    split at hrest
    · next child others hchildren =>
      obtain ⟨-, -, hfalse⟩ := bind_ok_iff.mp hrest
      cases hfalse
    · next hchildren =>
      obtain ⟨_, hroom, hbox⟩ := bind_ok_iff.mp hrest
      obtain ⟨bbox, hbbox, hdone⟩ := bind_ok_iff.mp hbox
      rw [expect_room_ok_iff] at hroom
      rw [coordinates_ok_iff] at hbbox
      rw [Except.ok.injEq] at hdone
      rw [word_of_eq hbbox.1]
      exact ⟨hcost, ⟨hfew, hname, hchildren, bbox, hbbox⟩, hroom, hdone.symm⟩
  · rintro ⟨hcost, hgood, hroom, rfl⟩
    obtain ⟨bbox, hbbox, hinside⟩ := hgood.boxed
    rw [word_of_eq hbbox] at hroom ⊢
    refine ⟨spent + 1, ⟨hcost, by decide, hgood.attributes, rfl⟩, (), hgood.name, ?_⟩
    rw [hgood.leaf]
    refine bind_ok_iff.mpr ⟨(), expect_room_ok_iff.mpr hroom, ?_⟩
    exact bind_ok_iff.mpr ⟨bbox, coordinates_ok_iff.mpr ⟨hbbox, hinside⟩, rfl⟩

/-! ### Lines -/

structure GoodLine (width height : F64) (node : XmlNode) : Prop where
  attributes : FewAttributes node
  name : node.tag_name = "line"
  boxed : Boxed width height node
  words : ∀ word ∈ node.elements, GoodWord width height word
  few : (node.elements.flatMap word_of).length ≤ MAX_WORDS_PER_LINE

/-- The line of an element. -/
def line_of (node : XmlNode) : List BboxLine :=
  (box_of node).toList.map fun bbox => { bbox := bbox, words := node.elements.flatMap word_of }

/-- The elements that are counted at a line. -/
def line_cost (node : XmlNode) : ℕ := 1 + (node.elements.map word_cost).sum

theorem line_of_eq {node : XmlNode} {bbox : Bbox} (h : box_of node = some bbox) :
    line_of node = [{ bbox := bbox, words := node.elements.flatMap word_of }] := by
  rw [line_of, h, Option.toList_some, List.map_singleton]

/-- **One line.** -/
theorem build_line_meets (path : String) :
    Meets MAX_ELEMENTS MAX_LINES_PER_BLOCK (build_line page width height path) line_cost
      (GoodLine width height) line_of := by
  intro spent out node t _ _
  unfold build_line
  simp only [bind_ok_iff, enter_ok_iff, expect_element_ok_iff, expect_room_ok_iff,
    coordinates_ok_iff, Except.ok.injEq]
  constructor
  · rintro ⟨elements, ⟨hcost, -, hfew, rfl⟩, -, hname, -, hroom, bbox, hbbox, result, hwords, rfl⟩
    obtain ⟨hcosts, hgood, hcount, rfl⟩ :=
      (foldlM_collect_iff (build_word_meets _) _ hcost).mp hwords
    rw [line_of_eq hbbox.1]
    exact ⟨hcosts, ⟨hfew, hname, ⟨bbox, hbbox⟩, hgood, hcount⟩, hroom, rfl⟩
  · rintro ⟨hcost, hgood, hroom, rfl⟩
    obtain ⟨bbox, hbbox, hinside⟩ := hgood.boxed
    rw [line_of_eq hbbox] at hroom ⊢
    rw [line_cost] at hcost ⊢
    have hone : spent + 1 ≤ MAX_ELEMENTS := by omega
    exact ⟨spent + 1, ⟨hone, by decide, hgood.attributes, rfl⟩, (), hgood.name, (), hroom,
      bbox, ⟨hbbox, hinside⟩, _, (foldlM_collect_iff (build_word_meets _) _ hone).mpr
        ⟨hcost, hgood.words, hgood.few, rfl⟩, rfl⟩

/-! ### Blocks and flows -/

structure GoodBlock (width height : F64) (node : XmlNode) : Prop where
  attributes : FewAttributes node
  name : node.tag_name = "block"
  boxed : Boxed width height node
  lines : ∀ line ∈ node.elements, GoodLine width height line
  few : (node.elements.flatMap line_of).length ≤ MAX_LINES_PER_BLOCK

/-- The block of an element. -/
def block_of (node : XmlNode) : List BboxBlock :=
  (box_of node).toList.map fun bbox => { bbox := bbox, lines := node.elements.flatMap line_of }

/-- The elements that are counted at a block. -/
def block_cost (node : XmlNode) : ℕ := 1 + (node.elements.map line_cost).sum

theorem block_of_eq {node : XmlNode} {bbox : Bbox} (h : box_of node = some bbox) :
    block_of node = [{ bbox := bbox, lines := node.elements.flatMap line_of }] := by
  rw [block_of, h, Option.toList_some, List.map_singleton]

/-- **One block.** -/
theorem build_block_meets (path : String) :
    Meets MAX_ELEMENTS MAX_BLOCKS_PER_PAGE (build_block page width height path) block_cost
      (GoodBlock width height) block_of := by
  intro spent out node t _ _
  unfold build_block
  simp only [bind_ok_iff, enter_ok_iff, expect_element_ok_iff, expect_room_ok_iff,
    coordinates_ok_iff, Except.ok.injEq]
  constructor
  · rintro ⟨elements, ⟨hcost, -, hfew, rfl⟩, -, hname, -, hroom, bbox, hbbox, result, hlines, rfl⟩
    obtain ⟨hcosts, hgood, hcount, rfl⟩ :=
      (foldlM_collect_iff (build_line_meets _) _ hcost).mp hlines
    rw [block_of_eq hbbox.1]
    exact ⟨hcosts, ⟨hfew, hname, ⟨bbox, hbbox⟩, hgood, hcount⟩, hroom, rfl⟩
  · rintro ⟨hcost, hgood, hroom, rfl⟩
    obtain ⟨bbox, hbbox, hinside⟩ := hgood.boxed
    rw [block_of_eq hbbox] at hroom ⊢
    rw [block_cost] at hcost ⊢
    have hone : spent + 1 ≤ MAX_ELEMENTS := by omega
    exact ⟨spent + 1, ⟨hone, by decide, hgood.attributes, rfl⟩, (), hgood.name, (), hroom,
      bbox, ⟨hbbox, hinside⟩, _, (foldlM_collect_iff (build_line_meets _) _ hone).mpr
        ⟨hcost, hgood.lines, hgood.few, rfl⟩, rfl⟩

structure GoodFlow (width height : F64) (node : XmlNode) : Prop where
  attributes : FewAttributes node
  name : node.tag_name = "flow"
  blocks : ∀ block ∈ node.elements, GoodBlock width height block

def flow_blocks (node : XmlNode) : List BboxBlock := node.elements.flatMap block_of

/-- The elements that are counted at a flow. -/
def flow_cost (node : XmlNode) : ℕ := 1 + (node.elements.map block_cost).sum

/-- **One flow.** -/
theorem build_blocks_meets (path : String) :
    Meets MAX_ELEMENTS MAX_BLOCKS_PER_PAGE (build_blocks page width height path) flow_cost
      (GoodFlow width height) flow_blocks := by
  intro spent out node t _ hout
  unfold build_blocks
  simp only [bind_ok_iff, enter_ok_iff, expect_element_ok_iff]
  constructor
  · rintro ⟨elements, ⟨hcost, -, hfew, rfl⟩, -, hname, hblocks⟩
    obtain ⟨hcosts, hgood, hcount, rfl⟩ :=
      (foldlM_paid_iff (build_block_meets _) _ hcost hout).mp hblocks
    exact ⟨hcosts, ⟨hfew, hname, hgood⟩, hcount, rfl⟩
  · rintro ⟨hcost, hgood, hcount, rfl⟩
    rw [flow_cost] at hcost ⊢
    have hone : spent + 1 ≤ MAX_ELEMENTS := by omega
    exact ⟨spent + 1, ⟨hone, by decide, hgood.attributes, rfl⟩, (), hgood.name,
      (foldlM_paid_iff (build_block_meets _) _ hone hout).mpr
        ⟨hcost, hgood.blocks, hcount, rfl⟩⟩

/-! ### Pages and documents -/

/-- A dimension that is accepted. -/
def dimension_of (node : XmlNode) (attr : String) : Option F64 :=
  (number node attr).filter is_dimension

omit [XmlText] in
theorem dimension_ok_iff {node : XmlNode} {attr : String} {value : F64} :
    dimension node attr page = .ok value ↔ dimension_of node attr = some value := by
  unfold dimension
  change (match dimension_of node attr with | none => _ | some value => _) = _ ↔ _
  cases hdimension : dimension_of node attr with
  | none => simp only [reduceCtorEq]
  | some found => simp only [Except.ok.injEq, Option.some.injEq]

structure GoodPage (node : XmlNode) : Prop where
  attributes : FewAttributes node
  name : node.tag_name = "page"
  sized : ∃ width height, dimension_of node "width" = some width ∧
    dimension_of node "height" = some height ∧ ∀ flow ∈ node.elements, GoodFlow width height flow
  few : (node.elements.flatMap flow_blocks).length ≤ MAX_BLOCKS_PER_PAGE

/-- The page of an element. -/
def page_of (node : XmlNode) : List SizedPage :=
  (dimension_of node "width").toList.flatMap fun width =>
    (dimension_of node "height").toList.map fun height =>
      { blocks := node.elements.flatMap flow_blocks, width := width, height := height }

/-- The elements that are counted at a page. -/
def page_cost (node : XmlNode) : ℕ := 1 + (node.elements.map flow_cost).sum

theorem page_of_eq {node : XmlNode} {width height : F64}
    (hwidth : dimension_of node "width" = some width)
    (hheight : dimension_of node "height" = some height) :
    page_of node =
      [{ blocks := node.elements.flatMap flow_blocks, width := width, height := height }] := by
  simp only [page_of, hwidth, hheight, Option.toList_some, List.flatMap_singleton,
    List.map_singleton]

/-- **One page.** -/
theorem build_page_meets (path : String) :
    Meets MAX_ELEMENTS MAX_PAGES (build_page path) page_cost GoodPage page_of := by
  intro spent out node t _ _
  unfold build_page
  simp only [bind_ok_iff, enter_ok_iff, expect_element_ok_iff, expect_room_ok_iff,
    dimension_ok_iff, Except.ok.injEq]
  constructor
  · rintro ⟨elements, ⟨hcost, -, hfew, rfl⟩, -, hname, -, hroom, width, hwidth, height, hheight,
      result, hblocks, rfl⟩
    obtain ⟨hcosts, hgood, hcount, rfl⟩ :=
      (foldlM_collect_iff (build_blocks_meets _) _ hcost).mp hblocks
    rw [page_of_eq hwidth hheight]
    exact ⟨hcosts, ⟨hfew, hname, ⟨width, height, hwidth, hheight, hgood⟩, hcount⟩, hroom, rfl⟩
  · rintro ⟨hcost, hgood, hroom, rfl⟩
    obtain ⟨width, height, hwidth, hheight, hflows⟩ := hgood.sized
    rw [page_of_eq hwidth hheight] at hroom ⊢
    rw [page_cost] at hcost ⊢
    have hone : spent + 1 ≤ MAX_ELEMENTS := by omega
    exact ⟨spent + 1, ⟨hone, by decide, hgood.attributes, rfl⟩, (), hgood.name, (), hroom,
      width, hwidth, height, hheight, _, (foldlM_collect_iff (build_blocks_meets _) _ hone).mpr
        ⟨hcost, hflows, hgood.few, rfl⟩, rfl⟩

structure GoodDoc (node : XmlNode) : Prop where
  attributes : FewAttributes node
  name : node.tag_name = "doc"
  pages : ∀ page ∈ node.elements, GoodPage page

def doc_pages (node : XmlNode) : List SizedPage := node.elements.flatMap page_of

/-- The elements that are counted at a doc element. -/
def doc_cost (node : XmlNode) : ℕ := 1 + (node.elements.map page_cost).sum

/-- **One doc element.** -/
theorem build_pages_meets (path : String) :
    Meets MAX_ELEMENTS MAX_PAGES (build_pages path) doc_cost GoodDoc doc_pages := by
  intro spent out node t _ hout
  unfold build_pages
  simp only [bind_ok_iff, enter_ok_iff, expect_element_ok_iff]
  constructor
  · rintro ⟨elements, ⟨hcost, -, hfew, rfl⟩, -, hname, hpages⟩
    obtain ⟨hcosts, hgood, hcount, rfl⟩ :=
      (foldlM_paid_iff (build_page_meets _) _ hcost hout).mp hpages
    exact ⟨hcosts, ⟨hfew, hname, hgood⟩, hcount, rfl⟩
  · rintro ⟨hcost, hgood, hcount, rfl⟩
    rw [doc_cost] at hcost ⊢
    have hone : spent + 1 ≤ MAX_ELEMENTS := by omega
    exact ⟨spent + 1, ⟨hone, by decide, hgood.attributes, rfl⟩, (), hgood.name,
      (foldlM_paid_iff (build_page_meets _) _ hone hout).mpr
        ⟨hcost, hgood.pages, hcount, rfl⟩⟩

structure GoodPart (node : XmlNode) : Prop where
  attributes : FewAttributes node
  shape : (node.tag_name = "head" ∧ node.elements = []) ∨
    (node.tag_name = "body" ∧ ∀ doc ∈ node.elements, GoodDoc doc)

/-- The doc elements of a part: those of a body. -/
def part_docs (node : XmlNode) : List XmlNode :=
  if node.tag_name = "body" then node.elements else []

def part_pages (node : XmlNode) : List SizedPage := (part_docs node).flatMap doc_pages

/-- The elements that are counted at a part. -/
def part_cost (node : XmlNode) : ℕ := 1 + ((part_docs node).map doc_cost).sum

/-- **One part.** -/
theorem build_part_meets :
    Meets MAX_ELEMENTS MAX_PAGES build_part part_cost GoodPart part_pages := by
  intro spent out node t _ hout
  have hnames : ¬ "body" = "head" := by decide
  have hnames' : ¬ "head" = "body" := by decide
  unfold build_part
  simp only [bind_ok_iff, enter_ok_iff]
  constructor
  · rintro ⟨elements, ⟨hcost, -, hfew, rfl⟩, hrest⟩
    rw [part_cost, part_pages, part_docs]
    split_ifs at hrest with hhead hbody
    · obtain ⟨_, hempty, hdone⟩ := bind_ok_iff.mp hrest
      have hnil := not_not.mp (failIf_ok_iff.mp hempty)
      rw [Except.ok.injEq] at hdone
      rw [hhead, if_neg hnames', List.map_nil, List.sum_nil, List.flatMap_nil, List.append_nil]
      exact ⟨hcost, ⟨hfew, .inl ⟨hhead, hnil⟩⟩, hout, hdone.symm⟩
    · obtain ⟨hcosts, hgood, hcount, rfl⟩ :=
        (foldlM_paid_iff (build_pages_meets _) _ hcost hout).mp hrest
      rw [if_pos hbody]
      exact ⟨hcosts, ⟨hfew, .inr ⟨hbody, hgood⟩⟩, hcount, rfl⟩
  · rintro ⟨hcost, ⟨hfew, hshape⟩, hcount, rfl⟩
    rw [part_cost] at hcost ⊢
    refine ⟨spent + 1, ⟨by omega, by decide, hfew, rfl⟩, ?_⟩
    rw [part_pages, part_docs] at hcount ⊢
    rw [part_docs] at hcost
    rcases hshape with ⟨hhead, hnil⟩ | ⟨hbody, hgood⟩
    · simp only [hhead, hnames', if_true, if_false, List.map_nil, List.sum_nil, List.flatMap_nil,
        List.append_nil]
      exact bind_ok_iff.mpr ⟨(), failIf_ok_iff.mpr (not_not.mpr hnil), rfl⟩
    · rw [if_pos hbody] at hcost hcount ⊢
      rw [hbody, if_neg hnames, if_pos rfl]
      exact (foldlM_paid_iff (build_pages_meets _) _ (by omega) hout).mpr
        ⟨hcost, hgood, hcount, rfl⟩

structure Accepted (root : XmlNode) : Prop where
  attributes : FewAttributes root
  name : root.tag_name = "html"
  parts : ∀ part ∈ root.elements, GoodPart part
  elements : 1 + (root.elements.map part_cost).sum ≤ MAX_ELEMENTS
  pages : (root.elements.flatMap part_pages).length ≤ MAX_PAGES
  some_page : root.elements.flatMap part_pages ≠ []

/-- **What the walk builds**: it accepts the trees of the documented shape within the bounds,
and the pages are those of the parts. -/
theorem build_document_iff {root : XmlNode} {document : ParsedDocument} :
    build_document root = .ok document ↔
      Accepted root ∧ document = { pages := root.elements.flatMap part_pages } := by
  unfold build_document
  simp only [bind_ok_iff, enter_ok_iff, expect_element_ok_iff, Except.ok.injEq]
  constructor
  · rintro ⟨-, hname, elements, ⟨hcost, -, hfew, rfl⟩, result, hparts, _, hsome, rfl⟩
    obtain ⟨hcosts, hgood, hcount, rfl⟩ :=
      (foldlM_iff build_part_meets _ hcost (Nat.zero_le _)).mp hparts
    rw [List.length_nil, Nat.zero_add] at hcount
    rw [List.nil_append] at hsome ⊢
    have hne := failIf_ok_iff.mp hsome
    rw [List.isEmpty_iff] at hne
    exact ⟨⟨hfew, hname, hgood, by omega, hcount, hne⟩, rfl⟩
  · rintro ⟨haccepted, rfl⟩
    have helements := haccepted.elements
    refine ⟨(), haccepted.name, 0 + 1, ⟨by omega, by decide, haccepted.attributes, rfl⟩, _,
      (foldlM_iff build_part_meets _ (by omega) (Nat.zero_le _)).mpr
        ⟨by omega, haccepted.parts, ?_, rfl⟩, (), ?_, ?_⟩
    · rw [List.length_nil, Nat.zero_add]
      exact haccepted.pages
    · rw [List.nil_append, failIf_ok_iff, List.isEmpty_iff]
      exact haccepted.some_page
    · rw [List.nil_append]

theorem page_of_bounded {node : XmlNode} (h : GoodPage node) :
    ∀ page ∈ page_of node, page.blocks.length ≤ MAX_BLOCKS_PER_PAGE := by
  obtain ⟨width, height, hwidth, hheight, -⟩ := h.sized
  rw [page_of_eq hwidth hheight, List.forall_mem_singleton]
  exact h.few

/-- **What the walk builds is within the bounds of the projection.** -/
theorem build_document_bounded {root : XmlNode} {document : ParsedDocument}
    (h : build_document root = .ok document) :
    document.pages.length ≤ MAX_PAGES ∧
      ∀ page ∈ document.pages, page.blocks.length ≤ MAX_BLOCKS_PER_PAGE := by
  obtain ⟨haccepted, rfl⟩ := build_document_iff.mp h
  refine ⟨haccepted.pages, fun page hpage => ?_⟩
  obtain ⟨part, hpart, hin⟩ := List.mem_flatMap.mp hpage
  obtain ⟨doc, hdoc, hin⟩ := List.mem_flatMap.mp hin
  obtain ⟨node, hnode, hin⟩ := List.mem_flatMap.mp hin
  rw [part_docs] at hdoc
  split_ifs at hdoc with hbody
  · rcases (haccepted.parts part hpart).shape with ⟨hhead, -⟩ | ⟨-, hdocs⟩
    · rw [hhead] at hbody
      exact absurd hbody (by decide)
    · exact page_of_bounded ((hdocs doc hdoc).pages node hnode) page hin
  · exact absurd hdoc List.not_mem_nil

/-- The document that the projection takes. -/
def ParsedDocument.bbox_document {root : XmlNode} {document : ParsedDocument}
    (h : build_document root = .ok document) : BboxDocument where
  pages := document.pages.map SizedPage.toBboxPage
  pages_bounded := by
    rw [List.length_map]
    exact (build_document_bounded h).1
  blocks_bounded := by
    intro page hpage
    obtain ⟨sized, hsized, rfl⟩ := List.mem_map.mp hpage
    exact (build_document_bounded h).2 sized hsized

end Accepted

end Evidence.Corpus.Pdf
