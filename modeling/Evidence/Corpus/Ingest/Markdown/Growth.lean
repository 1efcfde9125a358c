/-
What the Markdown adapter keeps true while it walks a well-nested stream of events.

A node takes its position among its siblings when its frame is opened (a paragraph that no
frame absorbs, when it is closed), and is emitted when the frame is closed: a `Slot` is a position
taken, in an open frame or in a candidate. The repeated definition of a footnote takes a
position and gives up the node. `Grown` says how the slots lie: under each parent they carry
the numbers of those who stayed, and every parent is a section, a table or a row with a
slot of its own.
-/
import Evidence.Corpus.Ingest.Assemble
import Evidence.Corpus.Ingest.Markdown.Adapter
import Evidence.Lib.Tickets

set_option autoImplicit false

namespace Evidence.Corpus.Markdown

open Check Tickets

/-! ## Well-nested streams -/

/-- The kind of frame that a tag pushes; inline tags push none. -/
def Tag.frame_kind : Tag → Option FrameKind
  | Heading _ => some .Section
  | Paragraph => some .Paragraph
  | BlockQuote => some .Note
  | CodeBlock => some .CodeBlock
  | List | HtmlBlock => some .Transparent
  | Item => some .ListItem
  | FootnoteDefinition _ => some .FootnoteNote
  | Table => some .Table
  | TableHead | TableRow => some .TableRow
  | TableCell => some .TableCell
  | Emphasis | Strong | Strikethrough | Superscript | Subscript | Link | Image _ | DefinitionList
  | DefinitionListTitle | DefinitionListDefinition | MetadataBlock => none

/-- The tags that are open, innermost first, and where they began. -/
abbrev Open := List (Tag × ℕ)

/-- The tags that are open behind an event: an end closes the innermost tag, and does not lie
before its start. -/
def follow (opened : Open) (entry : Event × ByteRange) : Option Open :=
  match entry.1 with
  | .Start tag => some ((tag, entry.2.1) :: opened)
  | .End tag_end =>
    match opened with
    | [] => none
    | (tag, start) :: outer =>
      if tag.to_end = tag_end ∧ start ≤ entry.2.2 then some outer else none
  | .Text _ | .Code _ | .InlineMath _ | .DisplayMath _ | .Html | .InlineHtml | .FootnoteReference
  | .SoftBreak | .HardBreak | .Rule | .TaskListMarker => some opened

theorem follow_end_iff {opened opened' : Open} {tag_end : TagEnd} {range : ByteRange} :
    follow opened (.End tag_end, range) = some opened' ↔
      ∃ tag start, opened = (tag, start) :: opened' ∧ tag.to_end = tag_end ∧ start ≤ range.2 := by
  constructor
  · intro h
    cases opened with
    | nil => cases h
    | cons entry outer =>
      obtain ⟨hends, houter⟩ := Option.ite_none_right_eq_some.mp h
      exact ⟨entry.1, entry.2, by rw [Option.some.inj houter], hends⟩
  · rintro ⟨tag, start, rfl, hends⟩
    exact Option.ite_none_right_eq_some.mpr ⟨hends, rfl⟩

/-- **A well-nested stream** closes what it opens. -/
def WellNested (events : List (Event × ByteRange)) : Prop :=
  events.foldlM follow [] = some []

/-- A byte range is ordered, in bounds and aligned to UTF-8 boundaries. -/
def Aligned (text : String) (range : ByteRange) : Prop :=
  range.1 ≤ range.2 ∧ range.2 ≤ str_len text ∧ is_char_boundary text range.1 = true ∧
    is_char_boundary text range.2 = true

/-! ## Positions -/

/-- The position that an event takes: the parent it is taken under, and whether a node comes of
it. A repeated definition of a footnote takes one, and no node comes of it. -/
def claim (a : Adapter) : Event → Option (Option String × Bool)
  | .Start (.Heading level) => some ((a.close_sections level.as_usize).section_parent, true)
  | .Start (.FootnoteDefinition name) => some (a.section_parent, !decide (name ∈ a.footnote_ids))
  | .Start tag =>
    match tag.frame_kind with
    | some .Note | some .CodeBlock | some .ListItem | some .Table => some (a.section_parent, true)
    | some .TableRow => some (a.frame_parent .Table, true)
    | some .TableCell => some (a.frame_parent .TableRow, true)
    | some .Section | some .Paragraph | some .FootnoteNote | some .Transparent | none => none
  | .End .Paragraph =>
    if a.frames.tail.any fun frame => frame.kind.absorbs_paragraph then none
    else some (a.section_parent, true)
  | _ => none

/-- Who stayed of those who took a position under a parent, in order. -/
def under (parent : Option String) (given : List (Option String × Bool)) : List Bool :=
  (given.filter fun entry => entry.1 == parent).map Prod.snd

theorem under_snoc (parent : Option String) (given : List (Option String × Bool))
    (entry : Option String × Bool) :
    under parent (given ++ [entry]) =
      under parent given ++ if entry.1 = parent then [entry.2] else [] := by
  rw [under, List.filter_append, List.map_append, under]
  by_cases h : entry.1 = parent
  · simp only [h, if_true, List.filter_cons, beq_self_eq_true, List.filter_nil, List.map_cons,
      List.map_nil]
  · simp only [h, if_false, List.filter_cons, beq_eq_false_iff_ne.mpr h, Bool.false_eq_true,
      List.filter_nil, List.map_nil]

/-! ## Slots -/

/-- What an open frame, and a candidate, has of a node's place. -/
structure Slot where
  id : String
  parent : Option String
  kind : SourceNodeKind
  ordinal : UInt32

def candidate_slot (c : CandidateNode) : Slot := ⟨c.provisional_id, c.parent_id, c.kind, c.ordinal⟩

/-- The kind of the node that comes of a frame which takes its position when it is opened. -/
def FrameKind.node_kind : FrameKind → Option SourceNodeKind
  | Section => some .Section
  | ListItem => some .ListItem
  | Table => some .Table
  | TableRow => some .TableRow
  | TableCell => some .TableCell
  | CodeBlock => some .CodeBlock
  | Note | FootnoteNote => some .Note
  | Paragraph | Transparent => none

def Frame.slot (frame : Frame) : Option Slot :=
  if frame.skip then none
  else frame.kind.node_kind.map fun kind => ⟨frame.provisional, frame.parent, kind, frame.ordinal⟩

namespace Adapter

variable (a : Adapter)

def slots : List Slot := a.candidates.map candidate_slot ++ a.frames.filterMap Frame.slot

/-- The ids that have been given out and are in use. -/
def names : List String :=
  a.candidates.map CandidateNode.provisional_id ++ a.frames.map Frame.provisional

/-- A slot that may be the parent of another one, and is older if it is not a paragraph's. -/
def Above (slot : Slot) (id : String) : Prop :=
  ∃ holder ∈ a.slots, holder.id = id ∧ holder.kind.may_parent slot.kind = true ∧
    (slot.kind = .Paragraph ∨
      ∃ k n, id = provisional_id k ∧ slot.id = provisional_id n ∧ k < n)

/-- The ids in use are different, and older than the next one. -/
structure Named : Prop where
  distinct : a.names.Nodup
  older : ∀ name ∈ a.names, ∃ n < a.next_provisional, name = provisional_id n

end Adapter

def MARKDOWN_MEDIA_TYPE : String := "text/markdown"

/-- **What every state of a walk keeps**, of the positions given out so far. -/
structure Grown (given : List (Option String × Bool)) (a : Adapter) : Prop where
  named : a.Named
  numbered : ∀ parent, ((a.slots.filter fun slot => slot.parent == parent).map Slot.ordinal).Perm
    ((kept (under parent given)).map UInt32.ofNat)
  counted : ∀ parent, a.ordinals parent = UInt32.ofNat (under parent given).length
  below : ∀ slot ∈ a.slots, ∀ id, slot.parent = some id → a.Above slot id
  opened : ∀ entry ∈ a.sections, ∃ holder ∈ a.slots, holder.id = entry.provisional ∧
    holder.kind = .Section
  located : ∀ c ∈ a.candidates, c.locator.expected_media_type = MARKDOWN_MEDIA_TYPE

structure Stacked (text : String) (opened : Open) (a : Adapter) : Prop where
  frames : a.frames.map (fun frame => (frame.kind, frame.start)) =
    opened.filterMap fun entry => entry.1.frame_kind.map fun kind => (kind, entry.2)
  aligned : ∀ frame ∈ a.frames, is_char_boundary text frame.start = true
  skips : ∀ frame ∈ a.frames, frame.skip = true → frame.kind = .FootnoteNote

theorem Grown.new : Grown [] .new where
  named := ⟨List.nodup_nil, fun _ h => absurd h List.not_mem_nil⟩
  numbered := fun _ => .nil
  counted := fun _ => rfl
  below := fun _ h => absurd h List.not_mem_nil
  opened := fun _ h => absurd h List.not_mem_nil
  located := fun _ h => absurd h List.not_mem_nil

theorem Stacked.new (text : String) : Stacked text [] .new :=
  ⟨rfl, fun _ h => absurd h List.not_mem_nil, fun _ h => absurd h List.not_mem_nil⟩

/-! ## Steps -/

section Steps

variable {text : String} {opened : Open} {given : List (Option String × Bool)} {a b : Adapter}

/-- The candidates have different ids. -/
theorem provisional_id_inj {m n : ℕ} : provisional_id m = provisional_id n ↔ m = n := by
  rw [provisional_id, provisional_id, String.append_right_inj, decimal_inj]

/-- Ids that go out of use do no harm. -/
theorem Adapter.Named.fewer (h : a.Named) (hnames : b.names.Subperm a.names)
    (hnext : a.next_provisional ≤ b.next_provisional) : b.Named := by
  obtain ⟨kept, hperm, hsublist⟩ := hnames
  refine ⟨hperm.nodup_iff.mp (hsublist.nodup h.distinct), fun name hname => ?_⟩
  obtain ⟨n, hn, hid⟩ := h.older name (hsublist.subset (hperm.mem_iff.mpr hname))
  exact ⟨n, hn.trans_le hnext, hid⟩

theorem Adapter.Named.next (h : a.Named)
    (hnames : b.names.Perm (provisional_id a.next_provisional :: a.names))
    (hnext : b.next_provisional = a.next_provisional + 1) : b.Named := by
  constructor
  · rw [hnames.nodup_iff, List.nodup_cons]
    refine ⟨fun hold => ?_, h.distinct⟩
    obtain ⟨n, hn, hid⟩ := h.older _ hold
    rw [provisional_id_inj] at hid
    omega
  · intro name hname
    rcases List.mem_cons.mp (hnames.mem_iff.mp hname) with rfl | hold
    · exact ⟨a.next_provisional, by omega, rfl⟩
    · obtain ⟨n, hn, hid⟩ := h.older name hold
      exact ⟨n, by omega, hid⟩

theorem Adapter.Above.later {slot : Slot} {id : String} (h : a.Above slot id)
    (hslots : a.slots ⊆ b.slots) : b.Above slot id := by
  obtain ⟨holder, hholder, habove⟩ := h
  exact ⟨holder, hslots hholder, habove⟩

/-- The ids of slots are in use. -/
theorem Adapter.slot_id_mem {slot : Slot} (hslot : slot ∈ a.slots) : slot.id ∈ a.names := by
  rw [Adapter.slots, List.mem_append] at hslot
  rw [Adapter.names, List.mem_append]
  rcases hslot with hcandidate | hframe
  · obtain ⟨c, hc, rfl⟩ := List.mem_map.mp hcandidate
    exact .inl (List.mem_map_of_mem hc)
  · obtain ⟨frame, hframe, hslot⟩ := List.mem_filterMap.mp hframe
    refine .inr (List.mem_map.mpr ⟨frame, hframe, ?_⟩)
    rw [Frame.slot] at hslot
    split at hslot
    · cases hslot
    · obtain ⟨kind, -, rfl⟩ := Option.map_eq_some_iff.mp hslot
      rfl

theorem Grown.slot_older (h : Grown given a) {slot : Slot} (hslot : slot ∈ a.slots) :
    ∃ k < a.next_provisional, slot.id = provisional_id k :=
  h.named.older _ (Adapter.slot_id_mem hslot)

/-- **A step that takes no position.** -/
theorem Grown.keep (h : Grown given a) (hslots : b.slots.Perm a.slots) (hnamed : b.Named)
    (hordinals : b.ordinals = a.ordinals)
    (hopened : ∀ entry ∈ b.sections, entry ∈ a.sections ∨ ∃ holder ∈ b.slots,
      holder.id = entry.provisional ∧ holder.kind = .Section)
    (hlocated : ∀ c ∈ b.candidates, c ∈ a.candidates ∨
      c.locator.expected_media_type = MARKDOWN_MEDIA_TYPE) : Grown given b where
  named := hnamed
  numbered parent := ((hslots.filter _).map _).trans (h.numbered parent)
  counted parent := by rw [hordinals, h.counted]
  below slot hslot id hid :=
    (h.below slot (hslots.mem_iff.mp hslot) id hid).later hslots.symm.subset
  opened entry hentry := by
    rcases hopened entry hentry with hold | hnew
    · obtain ⟨holder, hholder, hsection⟩ := h.opened entry hold
      exact ⟨holder, hslots.mem_iff.mpr hholder, hsection⟩
    · exact hnew
  located c hc := (hlocated c hc).elim (h.located c) id

/-- The counters behind a position that is taken. -/
theorem Grown.counted_next (h : Grown given a) {parent : Option String} {stayed : Bool}
    (hordinals : b.ordinals = Function.update a.ordinals parent (a.ordinals parent + 1))
    (other : Option String) :
    b.ordinals other = UInt32.ofNat (under other (given ++ [(parent, stayed)])).length := by
  rw [hordinals, under_snoc]
  by_cases hparent : parent = other
  · rw [hparent, Function.update_self, h.counted, if_pos rfl, List.length_append,
      List.length_singleton, UInt32.ofNat_add]
    rfl
  · rw [Function.update_of_ne (fun heq => hparent heq.symm), h.counted, if_neg hparent,
      List.append_nil]

/-- **A position that is taken, with a slot.** -/
theorem Grown.claim (h : Grown given a) {slot : Slot} (hslots : b.slots.Perm (slot :: a.slots))
    (hnamed : b.Named) (hordinal : slot.ordinal = a.ordinals slot.parent)
    (hordinals : b.ordinals =
      Function.update a.ordinals slot.parent (a.ordinals slot.parent + 1))
    (hparent : ∀ id, slot.parent = some id → a.Above slot id)
    (hopened : ∀ entry ∈ b.sections, entry ∈ a.sections)
    (hlocated : ∀ c ∈ b.candidates, c ∈ a.candidates ∨
      c.locator.expected_media_type = MARKDOWN_MEDIA_TYPE) :
    Grown (given ++ [(slot.parent, true)]) b where
  named := hnamed
  numbered parent := by
    refine ((hslots.filter _).map _).trans ?_
    rw [under_snoc, List.filter_cons]
    by_cases hsame : slot.parent = parent
    · simp only [hsame, beq_self_eq_true, if_true, List.map_cons]
      rw [kept_snoc, if_pos rfl, List.map_append, List.map_singleton, hordinal, hsame, h.counted]
      exact ((h.numbered parent).cons _).trans (List.perm_append_singleton _ _).symm
    · simp only [hsame, beq_eq_false_iff_ne.mpr hsame, Bool.false_eq_true, if_false,
        List.append_nil]
      exact h.numbered parent
  counted := h.counted_next hordinals
  below other hother id hid := by
    have hsub : a.slots ⊆ b.slots := fun s hs => hslots.mem_iff.mpr (List.mem_cons_of_mem _ hs)
    rcases List.mem_cons.mp (hslots.mem_iff.mp hother) with rfl | hold
    · exact (hparent id hid).later hsub
    · exact (h.below other hold id hid).later hsub
  opened entry hentry := by
    obtain ⟨holder, hholder, hsection⟩ := h.opened entry (hopened entry hentry)
    exact ⟨holder, hslots.mem_iff.mpr (List.mem_cons_of_mem _ hholder), hsection⟩
  located c hc := (hlocated c hc).elim (h.located c) id

/-- **A position that is taken, and given up.** -/
theorem Grown.give_up (h : Grown given a) {parent : Option String}
    (hslots : b.slots = a.slots) (hnamed : b.Named)
    (hordinals : b.ordinals = Function.update a.ordinals parent (a.ordinals parent + 1))
    (hopened : b.sections = a.sections) (hlocated : b.candidates = a.candidates) :
    Grown (given ++ [(parent, false)]) b where
  named := hnamed
  numbered other := by
    rw [hslots, under_snoc]
    by_cases hsame : parent = other
    · rw [if_pos hsame, kept_snoc, if_neg Bool.false_ne_true, List.append_nil]
      exact h.numbered other
    · rw [if_neg hsame, List.append_nil]
      exact h.numbered other
  counted := h.counted_next hordinals
  below slot hslot id hid := by
    rw [hslots] at hslot
    exact (h.below slot hslot id hid).later (hslots ▸ List.Subset.refl _)
  opened entry hentry := by
    rw [hslots]
    exact h.opened entry (hopened ▸ hentry)
  located c hc := h.located c (hlocated ▸ hc)

/-! ## Opening a block -/

theorem Stacked.push (h : Stacked text opened a) {tag : Tag} {kind : FrameKind} {start : ℕ}
    {frame : Frame} (hkind : tag.frame_kind = some kind) (hframes : b.frames = frame :: a.frames)
    (hframe : frame.kind = kind ∧ frame.start = start)
    (haligned : is_char_boundary text start = true)
    (hskip : frame.skip = true → frame.kind = .FootnoteNote) :
    Stacked text ((tag, start) :: opened) b := by
  refine ⟨?_, ?_, ?_⟩
  · rw [hframes, List.map_cons, h.frames, hframe.1, hframe.2, List.filterMap_cons_some]
    rw [hkind, Option.map_some]
  · intro other hother
    rcases List.mem_cons.mp (hframes ▸ hother) with rfl | hold
    · rw [hframe.2]
      exact haligned
    · exact h.aligned other hold
  · intro other hother
    rcases List.mem_cons.mp (hframes ▸ hother) with rfl | hold
    · exact hskip
    · exact h.skips other hold

theorem Stacked.same (h : Stacked text opened a)
    (hframes : b.frames.map (fun frame => (frame.kind, frame.start, frame.skip)) =
      a.frames.map fun frame => (frame.kind, frame.start, frame.skip)) :
    Stacked text opened b := by
  have hmem : ∀ frame ∈ b.frames, ∃ old ∈ a.frames,
      old.kind = frame.kind ∧ old.start = frame.start ∧ old.skip = frame.skip := by
    intro frame hframe
    have hview : (frame.kind, frame.start, frame.skip) ∈
        a.frames.map fun frame => (frame.kind, frame.start, frame.skip) := by
      rw [← hframes]
      exact List.mem_map_of_mem hframe
    obtain ⟨old, hold, heq⟩ := List.mem_map.mp hview
    rw [Prod.mk.injEq, Prod.mk.injEq] at heq
    exact ⟨old, hold, heq⟩
  refine ⟨?_, ?_, ?_⟩
  · have hviews := congrArg (List.map fun view => (view.1, view.2.1)) hframes
    rw [List.map_map, List.map_map] at hviews
    exact hviews.trans h.frames
  · intro frame hframe
    obtain ⟨old, hold, -, hstart, -⟩ := hmem frame hframe
    rw [← hstart]
    exact h.aligned old hold
  · intro frame hframe hskip
    obtain ⟨old, hold, hkind, -, hold_skip⟩ := hmem frame hframe
    rw [← hkind]
    exact h.skips old hold (hold_skip.trans hskip)

theorem Grown.above_section (h : Grown given a) {slot : Slot}
    (hslot : slot.id = provisional_id a.next_provisional ∨ slot.kind = .Paragraph) :
    ∀ id, a.section_parent = some id → a.Above slot id := by
  intro id hid
  obtain ⟨entry, hentry, rfl⟩ := Option.map_eq_some_iff.mp hid
  obtain ⟨holder, hholder, hname, hkind⟩ := h.opened entry (List.mem_of_mem_head? hentry)
  refine ⟨holder, hholder, hname, by rw [hkind]; rfl, ?_⟩
  rcases hslot with hslot | hparagraph
  · obtain ⟨k, hk, hold⟩ := h.slot_older hholder
    exact .inr ⟨k, a.next_provisional, hname ▸ hold, hslot, hk⟩
  · exact .inl hparagraph

theorem Adapter.found_slot {frame : Frame} {kind : FrameKind} {node_kind : SourceNodeKind}
    (hkind : kind.node_kind = some node_kind) (hnote : kind ≠ .FootnoteNote)
    (hskips : ∀ frame ∈ a.frames, frame.skip = true → frame.kind = .FootnoteNote)
    (hfind : a.frames.find? (fun frame => frame.kind == kind) = some frame) :
    frame ∈ a.frames ∧
      (⟨frame.provisional, frame.parent, node_kind, frame.ordinal⟩ : Slot) ∈ a.slots := by
  have hframe := List.mem_of_find?_eq_some hfind
  have hframe_kind : frame.kind = kind :=
    beq_iff_eq.mp (List.find?_some (p := fun frame : Frame => frame.kind == kind) hfind)
  have hskip : ¬ frame.skip = true := fun hskip =>
    hnote (hframe_kind ▸ hskips frame hframe hskip)
  have hholder : frame.slot =
      some ⟨frame.provisional, frame.parent, node_kind, frame.ordinal⟩ := by
    rw [Frame.slot, if_neg hskip, hframe_kind, hkind, Option.map_some]
  exact ⟨hframe, List.mem_append_right (a.candidates.map candidate_slot)
    (List.mem_filterMap.mpr ⟨frame, hframe, hholder⟩)⟩

theorem Grown.above_frame (h : Grown given a) (hstacked : Stacked text opened a)
    {kind : FrameKind} {node_kind : SourceNodeKind} (hkind : kind.node_kind = some node_kind)
    (hnote : kind ≠ .FootnoteNote) {slot : Slot}
    (hslot : slot.id = provisional_id a.next_provisional)
    (hmay : node_kind.may_parent slot.kind = true) :
    ∀ id, a.frame_parent kind = some id → a.Above slot id := by
  intro id hid
  cases hfind : a.frames.find? fun frame => frame.kind == kind with
  | none =>
    rw [Adapter.frame_parent, hfind, Option.map_none, Option.none_or] at hid
    exact h.above_section (.inl hslot) id hid
  | some frame =>
    rw [Adapter.frame_parent, hfind, Option.map_some, Option.some_or, Option.some.injEq] at hid
    obtain ⟨-, hmem⟩ := Adapter.found_slot hkind hnote hstacked.skips hfind
    obtain ⟨k, hk, hold⟩ := h.slot_older hmem
    exact ⟨_, hmem, hid, hmay, .inr ⟨k, a.next_provisional, hid ▸ hold, hslot, hk⟩⟩

theorem Adapter.Named.push (h : a.Named) {frame : Frame}
    (hid : frame.provisional = provisional_id a.next_provisional)
    (hframes : b.frames = frame :: a.frames) (hcandidates : b.candidates = a.candidates)
    (hnext : b.next_provisional = a.next_provisional + 1) : b.Named := by
  refine h.next ?_ hnext
  rw [Adapter.names, hframes, hcandidates, List.map_cons, hid, Adapter.names]
  exact List.perm_middle

theorem Adapter.slots_push {frame : Frame} (hframes : b.frames = frame :: a.frames)
    (hcandidates : b.candidates = a.candidates) :
    b.slots.Perm (frame.slot.toList ++ a.slots) := by
  rw [Adapter.slots, hframes, hcandidates, Adapter.slots]
  cases hslot : frame.slot with
  | none =>
    rw [List.filterMap_cons_none hslot]
    exact List.Perm.refl _
  | some slot =>
    rw [List.filterMap_cons_some hslot]
    exact List.perm_middle

/-- **Opening a node takes a position**, which the repeated definition of a footnote gives up. -/
theorem Grown.open_node (h : Grown given a) {kind : FrameKind} {node_kind : SourceNodeKind}
    (hkind : kind.node_kind = some node_kind) {parent : Option String} {frame : Frame}
    (hframes : b.frames = frame :: a.frames)
    (hid : frame.provisional = provisional_id a.next_provisional)
    (hframe : frame.kind = kind ∧ frame.parent = parent ∧ frame.ordinal = a.ordinals parent)
    (hcandidates : b.candidates = a.candidates) (hsections : b.sections = a.sections)
    (hordinals : b.ordinals = Function.update a.ordinals parent (a.ordinals parent + 1))
    (hnext : b.next_provisional = a.next_provisional + 1)
    (hparent : ∀ slot : Slot, slot.id = provisional_id a.next_provisional →
      slot.kind = node_kind → ∀ id, parent = some id → a.Above slot id) :
    Grown (given ++ [(parent, !frame.skip)]) b := by
  have hnamed := h.named.push hid hframes hcandidates hnext
  have hslots := Adapter.slots_push hframes hcandidates
  cases hskip : frame.skip with
  | true =>
    have hnone : frame.slot = none := by rw [Frame.slot, hskip, if_pos rfl]
    refine h.give_up ?_ hnamed hordinals hsections hcandidates
    rw [Adapter.slots, hframes, hcandidates, List.filterMap_cons_none hnone, Adapter.slots]
  | false =>
    have hslot : frame.slot = some ⟨frame.provisional, parent, node_kind, a.ordinals parent⟩ := by
      rw [Frame.slot, hskip, if_neg Bool.false_ne_true, hframe.1, hframe.2.1, hframe.2.2, hkind,
        Option.map_some]
    rw [hslot] at hslots
    exact h.claim hslots hnamed rfl hordinals (hparent _ hid rfl)
      (fun entry hentry => hsections ▸ hentry) fun c hc => .inl (hcandidates ▸ hc)

/-- **Opening a bare frame** takes an id only. -/
theorem Grown.open_bare (h : Grown given a) {kind : FrameKind} (hkind : kind.node_kind = none)
    (start : ℕ) : Grown given (a.push_bare_frame kind start) := by
  have hnone : (Frame.bare kind (provisional_id a.next_provisional) start).slot = none := by
    rw [Frame.slot, Frame.bare, hkind, Option.map_none]
    rfl
  refine h.keep ?_ (h.named.push rfl rfl rfl rfl) rfl (fun entry hentry => .inl hentry)
    fun c hc => .inl hc
  have hslots := Adapter.slots_push (a := a) (b := a.push_bare_frame kind start) rfl rfl
  rw [hnone] at hslots
  exact hslots

theorem Stacked.inline (h : Stacked text opened a) {tag : Tag} (hkind : tag.frame_kind = none)
    (start : ℕ) : Stacked text ((tag, start) :: opened) a := by
  refine ⟨?_, h.aligned, h.skips⟩
  rw [h.frames, List.filterMap_cons_none]
  rw [hkind, Option.map_none]

theorem Grown.close_sections (h : Grown given a) (level : ℕ) :
    Grown given (a.close_sections level) :=
  h.keep (List.Perm.refl _) ⟨h.named.distinct, h.named.older⟩ rfl
    (fun _ hentry => .inl ((List.dropWhile_sublist _).subset hentry)) fun _ hc => .inl hc

/-- A diagnostic takes no position. -/
theorem Grown.diagnose (h : Grown given a) (kind : IngestDiagnosticKind) (range : ByteRange)
    (detail : String) : Grown given (a.diagnose kind range detail) :=
  h.keep (List.Perm.refl _) ⟨h.named.distinct, h.named.older⟩ rfl (fun _ hentry => .inl hentry)
    fun _ hc => .inl hc

variable [StrDebug]

/-- **The start of a tag.** -/
theorem Grown.start (h : Grown given a) (hstacked : Stacked text opened a) {tag : Tag}
    {range : ByteRange} (haligned : is_char_boundary text range.1 = true) :
    Grown (given ++ (Markdown.claim a (.Start tag)).toList) (a.opened tag range) ∧
      Stacked text ((tag, range.1) :: opened) (a.opened tag range) := by
  have hskip (frame : Frame) (hframe : frame.skip = false) :
      frame.skip = true → frame.kind = .FootnoteNote := fun heq => by
    rw [hframe] at heq
    cases heq
  -- the tags whose nodes stand under the enclosing section
  have hplain (kind : FrameKind) (node_kind : SourceNodeKind)
      (hkind : kind.node_kind = some node_kind) (htag : tag.frame_kind = some kind) :
      Grown (given ++ [(a.section_parent, true)])
          (a.push_node_frame kind a.section_parent range.1 id) ∧
        Stacked text ((tag, range.1) :: opened)
          (a.push_node_frame kind a.section_parent range.1 id) :=
    ⟨h.open_node (b := a.push_node_frame kind a.section_parent range.1 id) hkind rfl rfl
        ⟨rfl, rfl, rfl⟩ rfl rfl rfl rfl fun slot hid _ => h.above_section (.inl hid),
      hstacked.push htag rfl ⟨rfl, rfl⟩ haligned (hskip _ rfl)⟩
  -- rows and cells, whose nodes stand under an open frame
  have hinner (kind outer : FrameKind) (node_kind outer_kind : SourceNodeKind)
      (hkind : kind.node_kind = some node_kind) (houter : outer.node_kind = some outer_kind)
      (hnote : outer ≠ .FootnoteNote) (hmay : outer_kind.may_parent node_kind = true)
      (htag : tag.frame_kind = some kind) :
      Grown (given ++ [(a.frame_parent outer, true)])
          (a.push_node_frame kind (a.frame_parent outer) range.1 id) ∧
        Stacked text ((tag, range.1) :: opened)
          (a.push_node_frame kind (a.frame_parent outer) range.1 id) :=
    ⟨h.open_node (b := a.push_node_frame kind (a.frame_parent outer) range.1 id) hkind rfl rfl
        ⟨rfl, rfl, rfl⟩ rfl rfl rfl rfl fun slot hid hslot =>
          h.above_frame hstacked houter hnote hid (by rw [hslot]; exact hmay),
      hstacked.push htag rfl ⟨rfl, rfl⟩ haligned (hskip _ rfl)⟩
  have hbare (kind : FrameKind) (hkind : kind.node_kind = none)
      (htag : tag.frame_kind = some kind) :
      Grown (given ++ []) (a.push_bare_frame kind range.1) ∧
        Stacked text ((tag, range.1) :: opened) (a.push_bare_frame kind range.1) := by
    rw [List.append_nil]
    exact ⟨h.open_bare hkind range.1, hstacked.push htag rfl ⟨rfl, rfl⟩ haligned (hskip _ rfl)⟩
  have hinline (htag : tag.frame_kind = none) :
      Grown (given ++ []) a ∧ Stacked text ((tag, range.1) :: opened) a := by
    rw [List.append_nil]
    exact ⟨h, hstacked.inline htag range.1⟩
  cases tag with
  | Heading level =>
    have hclosed := h.close_sections level.as_usize
    have hkind : FrameKind.node_kind .Section = some .Section := rfl
    refine ⟨hclosed.open_node (b := a.opened (.Heading level) range) hkind rfl rfl ⟨rfl, rfl, rfl⟩
      rfl rfl rfl rfl fun slot hid _ => hclosed.above_section (.inl hid), ?_⟩
    exact hstacked.push rfl rfl ⟨rfl, rfl⟩ haligned (hskip _ rfl)
  | FootnoteDefinition name =>
    have hkind : FrameKind.node_kind .FootnoteNote = some .Note := rfl
    have hnote := h.open_node (b := a.opened (.FootnoteDefinition name) range) hkind rfl rfl
      ⟨rfl, rfl, rfl⟩ rfl rfl rfl rfl fun slot hid _ => h.above_section (.inl hid)
    exact ⟨hnote, hstacked.push rfl rfl ⟨rfl, rfl⟩ haligned fun _ => rfl⟩
  | Paragraph => exact hbare .Paragraph rfl rfl
  | List => exact hbare .Transparent rfl rfl
  | HtmlBlock => exact hbare .Transparent rfl rfl
  | BlockQuote => exact hplain .Note .Note rfl rfl
  | CodeBlock => exact hplain .CodeBlock .CodeBlock rfl rfl
  | Item => exact hplain .ListItem .ListItem rfl rfl
  | Table => exact hplain .Table .Table rfl rfl
  | TableHead => exact hinner .TableRow .Table .TableRow .Table rfl rfl (by decide) rfl rfl
  | TableRow => exact hinner .TableRow .Table .TableRow .Table rfl rfl (by decide) rfl rfl
  | TableCell =>
    exact hinner .TableCell .TableRow .TableCell .TableRow rfl rfl (by decide) rfl rfl
  | Image dest_url =>
    obtain ⟨hgrown, hinline⟩ := hinline rfl
    exact ⟨hgrown.diagnose _ _ _, hinline.frames, hinline.aligned, hinline.skips⟩
  | Emphasis | Strong | Strikethrough | Superscript | Subscript | Link | DefinitionList
  | DefinitionListTitle | DefinitionListDefinition | MetadataBlock => exact hinline rfl

end Steps

end Evidence.Corpus.Markdown
