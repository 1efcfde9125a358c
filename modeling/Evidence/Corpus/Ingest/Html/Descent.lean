/-
How text comes down to the walk: the **contexts** an element's children are taken in.

Each loop of the ingester over a list of children is a context: it takes the texts among
them or passes them over, and it brings the children of an element into other contexts,
into none, or into two at once where a loop that collects is followed by one that walks
(`Setup.enter`). Which contexts a text meets depends on nothing but the elements above it;
so does how often it is taken (`Setup.takings`), and whether an element on its way is
announced in a diagnostic.

The sums and the announcements over a whole tree are taken apart along the tree, as the
loops take it apart (`taken_element`, `announced_element`).
-/
import Mathlib.Algebra.BigOperators.Group.List.Basic
import Mathlib.Algebra.Ring.Nat
import Evidence.Corpus.Ingest.Html.Walk

set_option autoImplicit false

namespace Evidence.Corpus.Html

/-! ## Contexts -/

inductive Context where
  /-- `walk_children`. -/
  | Block
  /-- `collect_text`. -/
  | Inline (fold_blocks : Bool)
  /-- `walk_nested_blocks`. -/
  | Nested
  /-- `collect_rows` on a table, and on a row group. -/
  | Listing
  | GroupListing
  /-- The rows of a table, and of a row group. -/
  | Rows
  | GroupRows
  /-- The cells of a row. -/
  | Cells
deriving DecidableEq

/-- Does the loop take the texts among the children? -/
def Context.takes : Context → Bool
  | .Block | .Inline _ => true
  | _ => false

namespace Setup

variable (s : Setup)

/-- The contexts that `walk_element` brings an element's children into. -/
def dispatched (el : Element) : List Context :=
  match s.block_kind el with
  | .Excluded _ | .Dropped | .SkippedSubtree => []
  | .Heading _ | .Paragraph | .CodeBlock => [.Inline false]
  | .FigureCaption => [.Inline true]
  | .Transparent | .Note | .Unsupported => [.Block]
  | .ListItem | .Definition _ => [.Inline false, .Nested]
  | .Table => [.Listing, .Rows]

/-- Does `walk_element` announce the element in a diagnostic? -/
def dispatch_announces (el : Element) (children : List Dom) : Bool :=
  match s.block_kind el with
  | .Excluded _ | .SkippedSubtree | .Unsupported => true
  | .Dropped => carries_content children
  | _ => false

/-- The contexts that `collect_text` brings an element's children into. -/
def folded (fold_blocks : Bool) (el : Element) : List Context :=
  match inline_kind fold_blocks el.name with
  | .Dropped | .Break | .Block => []
  | .Link | .Paragraph | .Transparent | .Unsupported => [.Inline fold_blocks]

/-- Does `collect_text` announce the element? -/
def fold_announces (fold_blocks : Bool) (el : Element) (children : List Dom) : Bool :=
  match inline_kind fold_blocks el.name with
  | .Dropped => carries_content children
  | .Unsupported => true
  | _ => false

/-- Does a table announce a child that is no row of it? -/
def foreign_announces (el : Element) (children : List Dom) : Bool :=
  if is_dropped el.name then carries_content children else true

/-- **The contexts a loop brings an element's children into.** -/
def enter : Context → Element → List Context
  | .Block, el => if is_inline el.name then [.Inline true] else s.dispatched el
  | .Inline fold_blocks, el => folded fold_blocks el
  | .Nested, el => if s.is_nested_block el then s.dispatched el else []
  | .Listing, el =>
    match row_group el.name with
    | .Group _ => [.GroupListing]
    | .Row | .Foreign => []
  | .GroupListing, _ => []
  | .Rows, el =>
    match row_group el.name with
    | .Group _ => [.GroupRows]
    | .Row => [.Cells]
    | .Foreign => []
  | .GroupRows, el => if el.name = "tr" then [.Cells] else []
  | .Cells, el => if is_cell el then [.Inline false, .Nested] else []

/-- **The elements a loop announces.** -/
def announces : Context → Element → List Dom → Bool
  | .Block, el, children => !is_inline el.name && s.dispatch_announces el children
  | .Inline fold_blocks, el, children => fold_announces fold_blocks el children
  | .Nested, el, children => s.is_nested_block el && s.dispatch_announces el children
  | .Listing, el, children =>
    match row_group el.name with
    | .Group _ | .Row => false
    | .Foreign => foreign_announces el children
  | .GroupListing, el, children => if el.name = "tr" then false else foreign_announces el children
  | .Rows, _, _ | .GroupRows, _, _ | .Cells, _, _ => false

def reached (c : Context) : List Element → List Context
  | [] => [c]
  | el :: chain => (s.enter c el).flatMap fun d => reached d chain

/-- How often a text at the end of a chain is taken. -/
def takings (c : Context) (chain : List Element) : ℕ := (s.reached c chain).countP Context.takes

end Setup

/-! ## Sites -/

/-- A text, and the elements above it, outermost first. -/
structure TextSite where
  chain : List Element
  id : ℕ
  text : String

structure ElementSite where
  chain : List Element
  el : Element
  children : List Dom

def TextSite.under (el : Element) (t : TextSite) : TextSite := { t with chain := el :: t.chain }

def ElementSite.under (el : Element) (t : ElementSite) : ElementSite :=
  { t with chain := el :: t.chain }

mutual

def texts (nodes : List Dom) : List TextSite :=
  match nodes with
  | [] => []
  | child :: rest => texts_of child ++ texts rest
termination_by structural nodes

/-- The texts of a node. -/
def texts_of (child : Dom) : List TextSite :=
  match child with
  | .Text id text => [⟨[], id, text⟩]
  | .Other => []
  | .Element el children => (texts children).map (.under el)
termination_by structural child

end

mutual

def elements (nodes : List Dom) : List ElementSite :=
  match nodes with
  | [] => []
  | child :: rest => elements_of child ++ elements rest
termination_by structural nodes

/-- The elements of a node. -/
def elements_of (child : Dom) : List ElementSite :=
  match child with
  | .Text _ _ => []
  | .Other => []
  | .Element el children => ⟨[], el, children⟩ :: (elements children).map (.under el)
termination_by structural child

end

/-! ## Takings -/

namespace Setup

variable (s : Setup)

/-- How often a list of nodes has the texts of an id taken. -/
def taken (c : Context) (nodes : List Dom) (id : ℕ) : ℕ :=
  ((texts nodes).map fun t => if t.id = id then s.takings c t.chain else 0).sum

variable {s} {c : Context} {id : ℕ}

theorem takings_cons (el : Element) (chain : List Element) :
    s.takings c (el :: chain) = ((s.enter c el).map fun d => s.takings d chain).sum := by
  rw [takings, reached, List.countP_flatMap]
  rfl

@[simp] theorem taken_nil : s.taken c [] id = 0 := rfl

@[simp] theorem taken_text (n : ℕ) (text : String) (rest : List Dom) :
    s.taken c (.Text n text :: rest) id =
      (if n = id ∧ c.takes then 1 else 0) + s.taken c rest id := by
  have hchain : s.takings c [] = if c.takes then 1 else 0 := by
    rw [takings, reached, List.countP_singleton]
  rw [taken, texts, texts_of, List.singleton_append, List.map_cons, List.sum_cons, hchain]
  by_cases hid : n = id
  · rw [if_pos hid]
    simp only [hid, true_and]
    rfl
  · rw [if_neg hid, if_neg fun h => hid h.1]
    rfl

@[simp] theorem taken_other (rest : List Dom) : s.taken c (.Other :: rest) id = s.taken c rest id :=
  rfl

/-- **An element's texts are taken in the contexts its children are brought into.** -/
theorem taken_element (el : Element) (children rest : List Dom) :
    s.taken c (.Element el children :: rest) id =
      ((s.enter c el).map fun d => s.taken d children id).sum + s.taken c rest id := by
  have hsum (contexts : List Context) (sites : List TextSite) :
      (sites.map fun t => if t.id = id then (contexts.map fun d => s.takings d t.chain).sum
        else 0).sum =
      (contexts.map fun d =>
        (sites.map fun t => if t.id = id then s.takings d t.chain else 0).sum).sum := by
    induction contexts with
    | nil => simp
    | cons d contexts ih =>
      rw [List.map_cons, List.sum_cons, ← ih, ← List.sum_map_add]
      refine congrArg List.sum (List.map_congr_left fun t _ => ?_)
      by_cases hid : t.id = id
      · simp only [hid, if_true, List.map_cons, List.sum_cons]
      · simp only [hid, if_false]
  rw [taken, texts, texts_of, List.map_append, List.sum_append, List.map_map]
  refine congrArg₂ _ ?_ rfl
  rw [show (fun d => s.taken d children id) = fun d => ((texts children).map fun t =>
    if t.id = id then s.takings d t.chain else 0).sum from rfl, ← hsum]
  refine congrArg List.sum (List.map_congr_left fun t _ => ?_)
  rw [Function.comp_apply, TextSite.under, takings_cons]

/-- **Where texts have ids of their own**, a text's id is taken as often as the text. -/
theorem taken_of_mem {nodes : List Dom} {t : TextSite}
    (hids : ((texts nodes).map TextSite.id).Nodup) (ht : t ∈ texts nodes) :
    s.taken c nodes t.id = s.takings c t.chain := by
  rw [taken]
  generalize texts nodes = sites at hids ht
  induction sites with
  | nil => exact absurd ht List.not_mem_nil
  | cons u sites ih =>
    rw [List.map_cons, List.nodup_cons] at hids
    rw [List.map_cons, List.sum_cons]
    rcases List.mem_cons.mp ht with rfl | hrest
    · rw [if_pos rfl, List.sum_eq_zero, Nat.add_zero]
      intro n hn
      obtain ⟨u, hu, rfl⟩ := List.mem_map.mp hn
      refine if_neg fun hid => hids.1 ?_
      rw [← hid]
      exact List.mem_map_of_mem hu
    · rw [if_neg, Nat.zero_add, ih hids.2 hrest]
      intro hid
      rw [hid] at hids
      exact hids.1 (List.mem_map_of_mem hrest)

/-! ## Announcements -/

variable (s)

/-- An element of an id is announced on the way down a list of nodes. -/
def Announced (c : Context) (nodes : List Dom) (id : ℕ) : Prop :=
  ∃ site ∈ elements nodes, site.el.id = id ∧
    ∃ d ∈ s.reached c site.chain, s.announces d site.el site.children = true

variable {s}

theorem not_announced_nil : ¬ s.Announced c [] id := by
  rintro ⟨site, hsite, -⟩
  exact List.not_mem_nil hsite

/-- **An element is announced by its own loop, or on the way down its children.** -/
theorem announced_element (el : Element) (children rest : List Dom) :
    s.Announced c (.Element el children :: rest) id ↔
      ((el.id = id ∧ s.announces c el children = true) ∨
        ∃ d ∈ s.enter c el, s.Announced d children id) ∨ s.Announced c rest id := by
  rw [Announced, elements, elements_of]
  simp only [List.cons_append, List.mem_cons, List.mem_append, List.mem_map]
  constructor
  · rintro ⟨site, rfl | ⟨inner, hinner, rfl⟩ | hsite, hid, d, hd, hannounces⟩
    · rw [reached, List.mem_singleton] at hd
      rw [hd] at hannounces
      exact .inl (.inl ⟨hid, hannounces⟩)
    · rw [ElementSite.under, reached, List.mem_flatMap] at hd
      obtain ⟨e, he, hd⟩ := hd
      exact .inl (.inr ⟨e, he, inner, hinner, hid, d, hd, hannounces⟩)
    · exact .inr ⟨site, hsite, hid, d, hd, hannounces⟩
  · rintro ((⟨hid, hannounces⟩ | ⟨e, he, inner, hinner, hid, d, hd, hannounces⟩) |
      ⟨site, hsite, hid, d, hd, hannounces⟩)
    · exact ⟨⟨[], el, children⟩, .inl rfl, hid, c, List.mem_singleton.mpr rfl, hannounces⟩
    · refine ⟨inner.under el, .inr (.inl ⟨inner, hinner, rfl⟩), hid, d, ?_, hannounces⟩
      rw [ElementSite.under, reached, List.mem_flatMap]
      exact ⟨e, he, hd⟩
    · exact ⟨site, .inr (.inr hsite), hid, d, hd, hannounces⟩

end Setup

end Evidence.Corpus.Html
