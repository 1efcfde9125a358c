/-
`corpus/ingest/pdf/bbox/walk.rs` -- what the walk keeps of the text.

The loops look at the element children alone, and a word's text is what `Node::text` gives: the
text of its first child. So a text beside an element is passed over wherever it stands, and
what follows a comment in a word is cut off. Pages, blocks, lines and words themselves are kept
in document order, one for each element; the text is kept exactly where each word has its
text in its first child and there is none but blanks beside the elements (`keeps_text_iff`).
-/
import Evidence.Corpus.Ingest.Pdf.BboxWalk

set_option autoImplicit false

namespace Evidence.Corpus.Pdf

/-! ## The text of a tree -/

mutual

/-- The texts of a tree, in document order. -/
def XmlNode.texts : XmlNode → List String
  | .Element _ _ children => texts_of children
  | .Text text => [text]
  | .Comment _ => []

def texts_of : List XmlNode → List String
  | [] => []
  | node :: rest => node.texts ++ texts_of rest

end

mutual

def XmlNode.stray : XmlNode → List String
  | .Element name _ children => if name = "word" then [] else stray_of children
  | .Text text => [text]
  | .Comment _ => []

/-- The texts of several trees that are in no word. -/
def stray_of : List XmlNode → List String
  | [] => []
  | node :: rest => node.stray ++ stray_of rest

end

/-- The complete text of an element. -/
def XmlNode.content (node : XmlNode) : List Char := node.texts.flatMap String.toList

/-- A text of whitespace alone. -/
def IsBlank (text : String) : Prop := ∀ c ∈ text.toList, is_whitespace c = true

/-- No text but blanks stands below the body and in no word. -/
def NoStray (root : XmlNode) : Prop :=
  ∀ part ∈ root.elements, part.tag_name = "body" → ∀ text ∈ part.stray, IsBlank text

/-! ## The documented shape -/

structure Level (name : String) (own below : XmlNode → Prop) (node : XmlNode) : Prop where
  name : node.tag_name = name
  own : own node
  below : ∀ child ∈ node.elements, below child

section Shape

variable [F64Parse]

def WordShape (width height : F64) : XmlNode → Prop :=
  Level "word" (Boxed width height) fun _ => False

def LineShape (width height : F64) : XmlNode → Prop :=
  Level "line" (Boxed width height) (WordShape width height)

def BlockShape (width height : F64) : XmlNode → Prop :=
  Level "block" (Boxed width height) (LineShape width height)

def FlowShape (width height : F64) : XmlNode → Prop :=
  Level "flow" (fun _ => True) (BlockShape width height)

/-- A page: boxes are inside its own dimensions. -/
def PageShape (node : XmlNode) : Prop :=
  ∃ width height, dimension_of node "width" = some width ∧
    dimension_of node "height" = some height ∧
    Level "page" (fun _ => True) (FlowShape width height) node

def DocShape : XmlNode → Prop := Level "doc" (fun _ => True) PageShape

/-- **The shape** html / (head | body) / doc / page / flow / block / line / word. -/
def HtmlShape : XmlNode → Prop :=
  Level "html" (fun _ => True) fun part =>
    Level "head" (fun _ => True) (fun _ => False) part ∨
      Level "body" (fun _ => True) DocShape part

theorem Accepted.shape [XmlText] {root : XmlNode} (h : Accepted root) : HtmlShape root := by
  have hline : ∀ {width height : F64} {node : XmlNode}, GoodLine width height node →
      LineShape width height node := by
    intro width height node hgood
    refine ⟨hgood.name, hgood.boxed, fun word hword => ?_⟩
    obtain ⟨-, hname, hleaf, hboxed⟩ := hgood.words word hword
    refine ⟨hname, hboxed, fun child hchild => ?_⟩
    rw [hleaf] at hchild
    exact List.not_mem_nil hchild
  have hflow : ∀ {width height : F64} {node : XmlNode}, GoodFlow width height node →
      FlowShape width height node := by
    intro width height node hgood
    refine ⟨hgood.name, trivial, fun block hblock => ?_⟩
    have hgood := hgood.blocks block hblock
    exact ⟨hgood.name, hgood.boxed, fun line hin => hline (hgood.lines line hin)⟩
  have hpage : ∀ {node : XmlNode}, GoodPage node → PageShape node := by
    intro node hgood
    obtain ⟨width, height, hwidth, hheight, hflows⟩ := hgood.sized
    exact ⟨width, height, hwidth, hheight, hgood.name, trivial, fun flow hin =>
      hflow (hflows flow hin)⟩
  refine ⟨h.name, trivial, fun part hpart => ?_⟩
  rcases (h.parts part hpart).shape with ⟨hname, hnil⟩ | ⟨hname, hdocs⟩
  · refine .inl ⟨hname, trivial, fun child hchild => ?_⟩
    rw [hnil] at hchild
    exact List.not_mem_nil hchild
  · refine .inr ⟨hname, trivial, fun doc hdoc => ?_⟩
    have hgood := hdocs doc hdoc
    exact ⟨hgood.name, trivial, fun page hin => hpage (hgood.pages page hin)⟩

/-! ## What is shown of the tree -/

/-- A word shows its element: its box and its complete text. -/
def WordShown (node : XmlNode) (word : BboxWord) : Prop :=
  box_of node = some word.bbox ∧ word.text.toList = node.content

/-- A line shows its element, and its words show the element's. -/
def LineShown (node : XmlNode) (line : BboxLine) : Prop :=
  box_of node = some line.bbox ∧ List.Forall₂ WordShown node.elements line.words

def BlockShown (node : XmlNode) (block : BboxBlock) : Prop :=
  box_of node = some block.bbox ∧ List.Forall₂ LineShown node.elements block.lines

/-- A page shows its element, and its blocks show those of all flows. -/
def PageShown (node : XmlNode) (page : SizedPage) : Prop :=
  (dimension_of node "width" = some page.width ∧ dimension_of node "height" = some page.height) ∧
    List.Forall₂ BlockShown (node.elements.flatMap XmlNode.elements) page.blocks

end Shape

/-- The page elements of a tree, in document order. -/
def page_elements (root : XmlNode) : List XmlNode :=
  (root.elements.flatMap part_docs).flatMap XmlNode.elements

/-- The word elements of a page, in document order. -/
def word_elements (page : XmlNode) : List XmlNode :=
  (((page.elements.flatMap XmlNode.elements).flatMap XmlNode.elements).flatMap XmlNode.elements)

/-- **The text is kept**: what is accepted has the shape, its pages, blocks, lines and words are
shown in document order with their complete texts, and there is no other text. -/
def KeepsText [F64Parse] [XmlText] (root : XmlNode) : Prop :=
  ∀ document, build_document root = .ok document →
    HtmlShape root ∧ List.Forall₂ PageShown (page_elements root) document.pages ∧ NoStray root

/-- A word has its text in its first child. -/
def TextInFront (node : XmlNode) : Prop :=
  node.content = ((XmlNode.first_text node.children).getD "").toList

/-! ## Where the text is kept -/

section Kept

variable [F64Parse] [XmlText] {width height : F64}

theorem word_shown_iff {node : XmlNode} (h : GoodWord width height node) :
    (∃ word, word_of node = [word]) ∧
      ((∀ word ∈ word_of node, WordShown node word) ↔ TextInFront node) := by
  obtain ⟨bbox, hbox, -⟩ := h.boxed
  have htext : XmlText.text node = XmlNode.first_text node.children := by
    cases node with
    | Element name attributes children => exact XmlText.text_element name attributes children
    | Text text =>
      have hempty : "" = "word" := h.name
      exact absurd hempty (by decide)
    | Comment text =>
      have hempty : "" = "word" := h.name
      exact absurd hempty (by decide)
  rw [word_of_eq hbox, List.forall_mem_singleton, htext]
  refine ⟨⟨_, rfl⟩, ?_⟩
  rw [WordShown, TextInFront]
  exact ⟨fun hshown => hshown.2.symm, fun hfront => ⟨hbox, hfront.symm⟩⟩

theorem line_shown_iff {node : XmlNode} (h : GoodLine width height node) :
    (∃ line, line_of node = [line]) ∧
      ((∀ line ∈ line_of node, LineShown node line) ↔
        ∀ word ∈ node.elements, TextInFront word) := by
  obtain ⟨bbox, hbox, -⟩ := h.boxed
  rw [line_of_eq hbox, List.forall_mem_singleton]
  refine ⟨⟨_, rfl⟩, ?_⟩
  rw [LineShown, Lists.forall₂_flatMap_iff fun word hword => (word_shown_iff (h.words word hword)).1]
  constructor
  · intro hshown word hword
    exact (word_shown_iff (h.words word hword)).2.mp (hshown.2 word hword)
  · intro hfront
    exact ⟨hbox, fun word hword =>
      (word_shown_iff (h.words word hword)).2.mpr (hfront word hword)⟩

theorem block_shown_iff {node : XmlNode} (h : GoodBlock width height node) :
    (∃ block, block_of node = [block]) ∧
      ((∀ block ∈ block_of node, BlockShown node block) ↔
        ∀ line ∈ node.elements, ∀ word ∈ line.elements, TextInFront word) := by
  obtain ⟨bbox, hbox, -⟩ := h.boxed
  rw [block_of_eq hbox, List.forall_mem_singleton]
  refine ⟨⟨_, rfl⟩, ?_⟩
  rw [BlockShown, Lists.forall₂_flatMap_iff fun line hline => (line_shown_iff (h.lines line hline)).1]
  constructor
  · intro hshown line hline
    exact (line_shown_iff (h.lines line hline)).2.mp (hshown.2 line hline)
  · intro hfront
    exact ⟨hbox, fun line hline =>
      (line_shown_iff (h.lines line hline)).2.mpr (hfront line hline)⟩

theorem page_shown_iff {node : XmlNode} (h : GoodPage node) :
    (∃ page, page_of node = [page]) ∧
      ((∀ page ∈ page_of node, PageShown node page) ↔
        ∀ word ∈ word_elements node, TextInFront word) := by
  obtain ⟨width, height, hwidth, hheight, hflows⟩ := h.sized
  have hblocks : ∀ block ∈ node.elements.flatMap XmlNode.elements,
      GoodBlock width height block := by
    intro block hblock
    obtain ⟨flow, hflow, hin⟩ := List.mem_flatMap.mp hblock
    exact (hflows flow hflow).blocks block hin
  have hjoined : node.elements.flatMap flow_blocks =
      (node.elements.flatMap XmlNode.elements).flatMap block_of := by
    rw [List.flatMap_assoc]
    rfl
  rw [page_of_eq hwidth hheight, List.forall_mem_singleton]
  refine ⟨⟨_, rfl⟩, ?_⟩
  simp only [PageShown, hjoined, word_elements, List.forall_mem_flatMap (p := TextInFront)]
  rw [Lists.forall₂_flatMap_iff fun block hblock => (block_shown_iff (hblocks block hblock)).1]
  constructor
  · intro hshown line hline
    obtain ⟨block, hblock, hin⟩ := List.mem_flatMap.mp hline
    exact (block_shown_iff (hblocks block hblock)).2.mp (hshown.2 block hblock) line hin
  · intro hfront
    refine ⟨⟨hwidth, hheight⟩, fun block hblock => ?_⟩
    exact (block_shown_iff (hblocks block hblock)).2.mpr fun line hline =>
      hfront line (List.mem_flatMap.mpr ⟨block, hblock, hline⟩)

end Kept

/-- **When the text is kept**: when the tree is refused, and otherwise when every word has its text
in its first child and no text but blanks stands beside the elements. -/
theorem keeps_text_iff [F64Parse] [XmlText] (root : XmlNode) :
    KeepsText root ↔ ¬ Accepted root ∨
      ((∀ page ∈ page_elements root, ∀ word ∈ word_elements page, TextInFront word) ∧
        NoStray root) := by
  by_cases haccepted : Accepted root
  swap
  · refine iff_of_true (fun document hdocument => ?_) (.inl haccepted)
    exact absurd (build_document_iff.mp hdocument).1 haccepted
  have hpages : ∀ page ∈ page_elements root, GoodPage page := by
    intro page hpage
    obtain ⟨doc, hdoc, hin⟩ := List.mem_flatMap.mp hpage
    obtain ⟨part, hpart, hdoc⟩ := List.mem_flatMap.mp hdoc
    rw [part_docs] at hdoc
    split_ifs at hdoc with hbody
    · rcases (haccepted.parts part hpart).shape with ⟨hhead, -⟩ | ⟨-, hdocs⟩
      · rw [hhead] at hbody
        exact absurd hbody (by decide)
      · exact (hdocs doc hdoc).pages page hin
    · exact absurd hdoc List.not_mem_nil
  have hjoined : root.elements.flatMap part_pages = (page_elements root).flatMap page_of := by
    rw [page_elements, List.flatMap_assoc, List.flatMap_assoc]
    rfl
  have hshown : List.Forall₂ PageShown (page_elements root)
      (root.elements.flatMap part_pages) ↔
        ∀ page ∈ page_elements root, ∀ word ∈ word_elements page, TextInFront word := by
    rw [hjoined, Lists.forall₂_flatMap_iff fun page hpage => (page_shown_iff (hpages page hpage)).1]
    exact forall₂_congr fun page hpage => (page_shown_iff (hpages page hpage)).2
  rw [← hshown]
  constructor
  · intro hkeeps
    obtain ⟨-, hall, hstray⟩ := hkeeps _ (build_document_iff.mpr ⟨haccepted, rfl⟩)
    exact .inr ⟨hall, hstray⟩
  · intro hcase document hdocument
    obtain ⟨-, rfl⟩ := build_document_iff.mp hdocument
    obtain ⟨hall, hstray⟩ := hcase.resolve_left (not_not.mpr haccepted)
    exact ⟨haccepted.shape, hall, hstray⟩

/-! ## A comment in a word, and a text beside it -/

section Witness

/-- The numbers of the sample. -/
local instance sample_numbers : F64Parse where
  parse text :=
    if text = "0" then some ⟨0⟩
    else if text = "10" then some ⟨0x4024000000000000⟩
    else if text = "100" then some ⟨0x4059000000000000⟩
    else none

/-- The text of an element is that of its first child. -/
local instance first_texts : XmlText where
  text node := XmlNode.first_text node.children
  text_element _ _ _ := rfl

def boxed_element (name : String) (children : List XmlNode) : XmlNode :=
  .Element name [("xMin", "0"), ("yMin", "0"), ("xMax", "10"), ("yMax", "10")] children

/-- A page with one line: a text beside its word, and a word with a comment inside. -/
def commented_tree : XmlNode :=
  .Element "html" [] [.Element "head" [] [],
    .Element "body" [] [.Element "doc" [] [
      .Element "page" [("width", "100"), ("height", "100")] [.Element "flow" [] [
        boxed_element "block" [boxed_element "line" [.Text "lost",
          boxed_element "word" [.Text "foo", .Comment "c", .Text "bar"]]]]]]]]

def word_texts (document : ParsedDocument) : List String :=
  document.pages.flatMap fun page => page.blocks.flatMap fun block =>
    block.lines.flatMap fun line => line.words.map BboxWord.text

/-- **Text is left out**: what follows the comment, and what stands beside the word. -/
theorem build_document_loses_text :
    (∃ document, build_document commented_tree = .ok document ∧
      word_texts document = ["foo"]) ∧ ¬ KeepsText commented_tree := by
  have htexts : (build_document commented_tree).toOption.map word_texts = some ["foo"] := by
    decide +kernel
  obtain ⟨document, hdocument, hwords⟩ := Option.map_eq_some_iff.mp htexts
  have hok : build_document commented_tree = .ok document := by
    cases hresult : build_document commented_tree with
    | error error =>
      rw [hresult] at hdocument
      cases hdocument
    | ok found =>
      rw [hresult] at hdocument
      exact congrArg Except.ok (Option.some.inj hdocument)
  refine ⟨⟨document, hok, hwords⟩, fun hkeeps => ?_⟩
  obtain ⟨-, -, hstray⟩ := hkeeps document hok
  have hblank := hstray _ (List.mem_cons_of_mem _ List.mem_cons_self) rfl "lost"
    (by decide +kernel)
  exact absurd (hblank 'l' (by decide)) (by decide)

end Witness

end Evidence.Corpus.Pdf
