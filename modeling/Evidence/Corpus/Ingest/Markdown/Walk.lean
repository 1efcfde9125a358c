/-
The end of a tag in the Markdown adapter, and whole walks.

An end pops the frame of its tag. The node of the frame is emitted with the place that the frame
has held since it was opened, so that a slot becomes a candidate and no position is taken; a
paragraph is folded into a frame around it, or takes its position here. With the starts
this gives the step of the walk, and by induction on the events what a whole walk keeps.
-/
import Evidence.Corpus.Ingest.Markdown.Growth

set_option autoImplicit false

namespace Evidence.Corpus.Markdown

open Check Tickets

section Closing

variable {text : String} {opened : Open} {given : List (Option String × Bool)} {a b : Adapter}

/-! ## Texts -/

/-- What a frame is but for its text. -/
def Frame.core (frame : Frame) : Frame := { frame with text := "" }

/-- Absorbing changes texts only. -/
theorem absorb_core {t : String} {frames frames' : List Frame}
    (h : absorb t frames = some frames') : frames'.map Frame.core = frames.map Frame.core := by
  induction frames generalizing frames' with
  | nil => cases h
  | cons frame frames ih =>
    rw [absorb] at h
    split at h
    · cases h
      rfl
    · obtain ⟨rest, hrest, rfl⟩ := Option.map_eq_some_iff.mp h
      rw [List.map_cons, List.map_cons, ih hrest]

theorem absorb_eq_none_iff {t : String} {frames : List Frame} :
    absorb t frames = none ↔ (frames.any fun frame => frame.kind.absorbs_paragraph) = false := by
  induction frames with
  | nil => exact iff_of_true rfl rfl
  | cons frame frames ih =>
    rw [absorb, List.any_cons]
    by_cases habsorbs : frame.kind.absorbs_paragraph = true
    · rw [if_pos habsorbs, habsorbs, Bool.true_or]
      exact iff_of_false (Option.some_ne_none _) Bool.false_ne_true.symm
    · rw [if_neg habsorbs, Option.map_eq_none_iff, ih, Bool.eq_false_of_not_eq_true habsorbs,
        Bool.false_or]

theorem map_of_core {α : Type} {view : Frame → α} (hview : ∀ frame, view frame.core = view frame)
    {frames frames' : List Frame} (h : frames'.map Frame.core = frames.map Frame.core) :
    frames'.map view = frames.map view := by
  have hviews := congrArg (List.map view) h
  rw [List.map_map, List.map_map] at hviews
  rw [show view = view ∘ Frame.core from funext fun frame => (hview frame).symm]
  exact hviews

/-- The text does not take part in the slots. -/
theorem slots_of_core {frames frames' : List Frame}
    (h : frames'.map Frame.core = frames.map Frame.core) :
    frames'.filterMap Frame.slot = frames.filterMap Frame.slot := by
  have hslots := congrArg (List.filterMap Frame.slot) h
  rw [List.filterMap_map, List.filterMap_map] at hslots
  exact hslots

/-- Pushing a text changes a text. -/
theorem push_str_core (t : String) :
    (a.push_str t).frames.map Frame.core = a.frames.map Frame.core := by
  rw [Adapter.push_str]
  split
  · rfl
  · next hframes => rw [hframes]; rfl

/-! ## Closing a block -/

theorem Stacked.top {tag : Tag} {kind : FrameKind} {start : ℕ}
    (h : Stacked text ((tag, start) :: opened) a) (hkind : tag.frame_kind = some kind) :
    ∃ frame rest, a.frames = frame :: rest ∧ frame.kind = kind ∧ frame.start = start ∧
      is_char_boundary text start = true ∧ (kind ≠ .FootnoteNote → frame.skip = false) ∧
      ∀ b : Adapter, b.frames = rest → Stacked text opened b := by
  have hframes := h.frames
  rw [List.filterMap_cons_some (b := (kind, start)) (by rw [hkind, Option.map_some]),
    List.map_eq_cons_iff] at hframes
  obtain ⟨frame, rest, hframes, hview, hrest⟩ := hframes
  have hmem : frame ∈ a.frames := by
    rw [hframes]
    exact List.mem_cons_self
  obtain ⟨hframe_kind, hframe_start⟩ := Prod.mk.inj hview
  refine ⟨frame, rest, hframes, hframe_kind, hframe_start, hframe_start ▸ h.aligned frame hmem, ?_,
    fun b hb => ⟨hb ▸ hrest, ?_, ?_⟩⟩
  · intro hnote
    rw [← Bool.not_eq_true]
    intro hskip
    exact hnote (hframe_kind ▸ h.skips frame hmem hskip)
  · intro other hother
    exact h.aligned other (hframes ▸ List.mem_cons_of_mem _ (hb ▸ hother))
  · intro other hother
    exact h.skips other (hframes ▸ List.mem_cons_of_mem _ (hb ▸ hother))

def Setup.node (s : Setup) (frame : Frame) (content : NodeContent) (stop : ℕ) : CandidateNode where
  provisional_id := frame.provisional
  parent_id := frame.parent
  kind := content.kind
  ordinal := frame.ordinal
  label := content.label
  canonical_text := content.canonical_text
  locator := .Markdown s.path s.git_blob content.anchor content.heading_path
    (UInt64.ofNat frame.start, UInt64.ofNat stop)

variable {s : Setup} {frame : Frame} {rest : List Frame} {content : NodeContent} {stop : ℕ}

theorem emit_ok (hrange : Aligned text (frame.start, stop)) :
    emit s text frame content stop a =
      .ok { a with candidates := a.candidates ++ [s.node frame content stop] } := by
  have hrange : frame.start ≤ stop ∧ stop ≤ str_len text ∧
      is_char_boundary text frame.start = true ∧ is_char_boundary text stop = true := hrange
  rw [emit, checked_byte_range, if_pos hrange]
  rfl

/-- **A slot becomes a candidate**: no position is taken. -/
theorem Grown.emit_slot (h : Grown given a) (hframes : a.frames = frame :: rest)
    (hslot : frame.slot = some (candidate_slot (s.node frame content stop)))
    (hrest : b.frames = rest)
    (hcandidates : b.candidates = a.candidates ++ [s.node frame content stop])
    (hordinals : b.ordinals = a.ordinals) (hnext : b.next_provisional = a.next_provisional)
    (hsections : ∀ entry ∈ b.sections, entry ∈ a.sections ∨
      entry.provisional = frame.provisional ∧ content.kind = .Section) : Grown given b := by
  have hslots : b.slots.Perm a.slots := by
    rw [Adapter.slots, hrest, hcandidates, Adapter.slots, hframes, List.filterMap_cons_some hslot,
      List.map_append, List.map_singleton, List.append_assoc, List.singleton_append]
  refine h.keep hslots (h.named.fewer (List.Perm.subperm ?_) hnext.ge) hordinals ?_ ?_
  · rw [Adapter.names, hrest, hcandidates, Adapter.names, hframes, List.map_append,
      List.map_singleton, List.append_assoc, List.singleton_append, List.map_cons]
    exact List.Perm.refl _
  · intro entry hentry
    rcases hsections entry hentry with hold | ⟨hname, hkind⟩
    · exact .inl hold
    · refine .inr ⟨candidate_slot (s.node frame content stop), ?_, hname.symm, hkind⟩
      rw [Adapter.slots, hcandidates, List.map_append]
      exact List.mem_append_left _ (List.mem_append_right _ (List.mem_singleton.mpr rfl))
  · intro c hc
    rw [hcandidates, List.mem_append, List.mem_singleton] at hc
    rcases hc with hold | rfl
    · exact .inl hold
    · exact .inr rfl

/-- A frame without a slot is popped, and texts may change. -/
theorem Grown.pop (h : Grown given a) (hframes : a.frames = frame :: rest)
    (hslot : frame.slot = none) (hrest : b.frames.map Frame.core = rest.map Frame.core)
    (hcandidates : b.candidates = a.candidates) (hordinals : b.ordinals = a.ordinals)
    (hnext : b.next_provisional = a.next_provisional) (hsections : b.sections = a.sections) :
    Grown given b := by
  refine h.keep (List.Perm.of_eq ?_) (h.named.fewer (List.Sublist.subperm ?_) hnext.ge) hordinals
    (fun entry hentry => .inl (hsections ▸ hentry)) fun c hc => .inl (hcandidates ▸ hc)
  · rw [Adapter.slots, hcandidates, slots_of_core hrest, Adapter.slots, hframes,
      List.filterMap_cons_none hslot]
  · rw [Adapter.names, hcandidates, map_of_core (fun _ => rfl) hrest, Adapter.names, hframes,
      List.map_cons]
    exact List.Sublist.append_left (List.sublist_cons_self _ _) _

/-- **A paragraph that is emitted takes a position.** -/
theorem Grown.emit_paragraph (h : Grown given a) (hframes : a.frames = frame :: rest)
    (hslot : frame.slot = none) (hrest : b.frames = rest) (hkind : content.kind = .Paragraph)
    (hcandidates : b.candidates = a.candidates ++
      [s.node { frame with parent := a.section_parent, ordinal := a.ordinals a.section_parent }
        content stop])
    (hordinals : b.ordinals = Function.update a.ordinals a.section_parent
      (a.ordinals a.section_parent + 1))
    (hnext : b.next_provisional = a.next_provisional) (hsections : b.sections = a.sections) :
    Grown (given ++ [(a.section_parent, true)]) b := by
  have hslots : b.slots.Perm (candidate_slot (s.node { frame with
      parent := a.section_parent, ordinal := a.ordinals a.section_parent } content stop) ::
        a.slots) := by
    rw [Adapter.slots, hrest, hcandidates, Adapter.slots, hframes, List.filterMap_cons_none hslot,
      List.map_append, List.map_singleton, List.append_assoc, List.singleton_append]
    exact List.perm_middle
  refine h.claim hslots (h.named.fewer (List.Perm.subperm ?_) hnext.ge) rfl hordinals
    (h.above_section (.inr hkind)) (fun entry hentry => hsections ▸ hentry) ?_
  · rw [Adapter.names, hrest, hcandidates, Adapter.names, hframes, List.map_append,
      List.map_singleton, List.append_assoc, List.singleton_append, List.map_cons]
    exact List.Perm.refl _
  · intro c hc
    rw [hcandidates, List.mem_append, List.mem_singleton] at hc
    rcases hc with hold | rfl
    · exact .inl hold
    · exact .inr rfl

variable [UnicodeTables]

/-- The end of a paragraph: a text that no frame takes becomes a node of its own. -/
theorem Grown.close_paragraph (s : Setup) (h : Grown given a) (hframes : a.frames = frame :: rest)
    (hslot : frame.slot = none) {range : ByteRange}
    (hrange : Aligned text (frame.start, range.2)) :
    ∃ b, close_paragraph s text frame range { a with frames := rest } = .ok b ∧
      Grown (given ++ (Markdown.claim a (.End .Paragraph)).toList) b ∧
      b.frames.map Frame.core = rest.map Frame.core := by
  have hclaim : Markdown.claim a (.End .Paragraph) =
      if rest.any fun frame => frame.kind.absorbs_paragraph then none
      else some (a.section_parent, true) := by
    rw [Markdown.claim, hframes, List.tail_cons]
  rw [Markdown.close_paragraph]
  cases habsorb : absorb frame.text rest with
  | none =>
    have hnone := absorb_eq_none_iff.mp habsorb
    rw [hclaim, hnone, if_neg Bool.false_ne_true]
    have hplaced : Aligned text (Frame.start { frame with
        parent := a.section_parent, ordinal := a.ordinals a.section_parent }, range.2) := hrange
    refine ⟨_, emit_ok hplaced, ?_, rfl⟩
    exact h.emit_paragraph hframes hslot rfl rfl rfl rfl rfl rfl
  | some frames =>
    have hany : (rest.any fun frame => frame.kind.absorbs_paragraph) = true := by
      rw [← Bool.not_eq_false, ← absorb_eq_none_iff (t := frame.text), habsorb]
      exact Option.some_ne_none _
    rw [hclaim, hany, if_pos rfl, Option.toList_none, List.append_nil]
    have hcore := absorb_core habsorb
    refine ⟨_, rfl, h.pop hframes hslot hcore rfl rfl rfl rfl, hcore⟩

variable [StrDebug]

theorem process_heading_quiet (raw : String) (range : ByteRange) (a : Adapter) :
    ∃ used_anchors diagnostics, (process_heading raw range a).2.2 =
      { a with used_anchors := used_anchors, diagnostics := diagnostics } := by
  rw [process_heading]
  split
  · exact ⟨_, _, rfl⟩
  · next id _ =>
    by_cases hused : id ∈ a.used_anchors
    · exact ⟨a.used_anchors, _, by rw [if_pos hused]; rfl⟩
    · exact ⟨id :: a.used_anchors, a.diagnostics, by rw [if_neg hused]⟩
  · exact ⟨_, _, rfl⟩

theorem close_of_top {tag_end : TagEnd} (hblock : tag_end.is_block = true) {range : ByteRange}
    (hframes : a.frames = frame :: rest) :
    a.close s text tag_end range =
      close_frame s text tag_end range frame { a with frames := rest } := by
  rw [Adapter.close, if_pos hblock, hframes]

/-- The end of a heading. -/
theorem Grown.close_section (s : Setup) (h : Grown given a) (hframes : a.frames = frame :: rest)
    (hslot : frame.slot = some ⟨frame.provisional, frame.parent, .Section, frame.ordinal⟩)
    {range : ByteRange} (hrange : Aligned text (frame.start, range.2)) :
    ∃ b, close_section s text frame range { a with frames := rest } = .ok b ∧ Grown given b ∧
      b.frames = rest := by
  obtain ⟨used_anchors, diagnostics, hquiet⟩ :=
    process_heading_quiet frame.text range { a with frames := rest }
  rw [Markdown.close_section]
  generalize process_heading frame.text range { a with frames := rest } = result at hquiet ⊢
  obtain ⟨label_text, anchor, c⟩ := result
  have hquiet : c = { a with
      frames := rest, used_anchors := used_anchors, diagnostics := diagnostics } := hquiet
  simp only [bind, Except.bind, emit_ok hrange]
  refine ⟨_, rfl, ?_, by rw [hquiet]⟩
  rw [hquiet]
  refine h.emit_slot hframes ?_ rfl rfl rfl rfl fun entry hentry => ?_
  · exact hslot
  rcases List.mem_cons.mp hentry with rfl | hold
  · exact .inr ⟨rfl, rfl⟩
  · exact .inl hold

/-- The end of a footnote definition: a repeated one has no slot. -/
theorem Grown.close_footnote (s : Setup) (h : Grown given a) (hframes : a.frames = frame :: rest)
    (hkind : frame.kind = .FootnoteNote) {range : ByteRange}
    (hrange : Aligned text (frame.start, range.2)) :
    ∃ b, close_footnote s text frame range { a with frames := rest } = .ok b ∧ Grown given b ∧
      b.frames = rest := by
  rw [Markdown.close_footnote]
  by_cases hskip : frame.skip = true
  · rw [if_pos hskip]
    refine ⟨_, rfl, h.pop hframes ?_ rfl rfl rfl rfl rfl, rfl⟩
    rw [Frame.slot, if_pos hskip]
  · rw [if_neg hskip, emit_simple, emit_ok hrange]
    refine ⟨_, rfl, h.emit_slot hframes ?_ rfl rfl rfl rfl fun entry hentry => .inl hentry, rfl⟩
    rw [Frame.slot, if_neg hskip, hkind]
    rfl

/-- **What the end of a tag does**: a heading, a footnote definition and a paragraph have rules of
their own; any other frame becomes one node, or none; an inline tag has no frame. -/
inductive EndShape (s : Setup) (text : String) : Tag → Prop where
  | heading (level : HeadingLevel) : EndShape s text (.Heading level)
  | footnote (name : String) : EndShape s text (.FootnoteDefinition name)
  | paragraph : EndShape s text .Paragraph
  | simple {tag : Tag} (kind : FrameKind) (node_kind : SourceNodeKind)
      (canonical_text : Frame → String) (htag : tag.frame_kind = some kind)
      (hkind : kind.node_kind = some node_kind) (hsection : node_kind ≠ .Section)
      (hnote : kind ≠ .FootnoteNote) (hblock : tag.to_end.is_block = true)
      (hclose : ∀ range frame b, close_frame s text tag.to_end range frame b =
        emit_simple s text frame node_kind none (canonical_text frame) range.2 b)
      (hclaim : ∀ a : Adapter, Markdown.claim a (.End tag.to_end) = none) : EndShape s text tag
  | bare {tag : Tag} (htag : tag.frame_kind = some .Transparent)
      (hblock : tag.to_end.is_block = true)
      (hclose : ∀ range frame b, close_frame s text tag.to_end range frame b = .ok b)
      (hclaim : ∀ a : Adapter, Markdown.claim a (.End tag.to_end) = none) : EndShape s text tag
  | inline {tag : Tag} (htag : tag.frame_kind = none) (hblock : tag.to_end.is_block = false)
      (hclaim : ∀ a : Adapter, Markdown.claim a (.End tag.to_end) = none) : EndShape s text tag

theorem end_shape (s : Setup) (text : String) (tag : Tag) : EndShape s text tag := by
  cases tag with
  | Heading level => exact .heading level
  | FootnoteDefinition name => exact .footnote name
  | Paragraph => exact .paragraph
  | List => exact .bare rfl rfl (fun _ _ _ => rfl) fun _ => rfl
  | HtmlBlock => exact .bare rfl rfl (fun _ _ _ => rfl) fun _ => rfl
  | BlockQuote =>
    exact .simple .Note .Note (fun frame => normalize_prose (strip_alert_marker frame.text))
      rfl rfl (by decide) (by decide) rfl (fun _ _ _ => rfl) fun _ => rfl
  | CodeBlock =>
    exact .simple .CodeBlock .CodeBlock (fun frame => normalize_code frame.text)
      rfl rfl (by decide) (by decide) rfl (fun _ _ _ => rfl) fun _ => rfl
  | Item =>
    exact .simple .ListItem .ListItem (fun frame => normalize_prose frame.text)
      rfl rfl (by decide) (by decide) rfl (fun _ _ _ => rfl) fun _ => rfl
  | Table =>
    exact .simple .Table .Table (fun _ => "")
      rfl rfl (by decide) (by decide) rfl (fun _ _ _ => rfl) fun _ => rfl
  | TableHead | TableRow =>
    exact .simple .TableRow .TableRow (fun _ => "")
      rfl rfl (by decide) (by decide) rfl (fun _ _ _ => rfl) fun _ => rfl
  | TableCell =>
    exact .simple .TableCell .TableCell (fun frame => normalize_prose frame.text)
      rfl rfl (by decide) (by decide) rfl (fun _ _ _ => rfl) fun _ => rfl
  | Emphasis | Strong | Strikethrough | Superscript | Subscript | Link | Image dest_url
  | DefinitionList | DefinitionListTitle | DefinitionListDefinition | MetadataBlock =>
    exact .inline rfl rfl fun _ => rfl

/-- **The end of a tag.** -/
theorem Grown.close_tag (s : Setup) (h : Grown given a) {tag : Tag} {start : ℕ}
    (hstacked : Stacked text ((tag, start) :: opened) a) {range : ByteRange}
    (hstart : start ≤ range.2) (haligned : Aligned text range) :
    ∃ b, a.close s text tag.to_end range = .ok b ∧
      Grown (given ++ (Markdown.claim a (.End tag.to_end)).toList) b ∧ Stacked text opened b := by
  have hrange (frame : Frame) (hframe_start : frame.start = start)
      (hboundary : is_char_boundary text start = true) :
      Aligned text (frame.start, range.2) := by
    rw [hframe_start]
    exact ⟨hstart, haligned.2.1, hboundary, haligned.2.2.2⟩
  cases end_shape s text tag with
  | heading level =>
    obtain ⟨frame, rest, hframes, hframe_kind, hframe_start, hboundary, hskip, hrest⟩ :=
      hstacked.top rfl
    have hslot : frame.slot = some ⟨frame.provisional, frame.parent, .Section, frame.ordinal⟩ := by
      rw [Frame.slot, hskip (by decide), if_neg Bool.false_ne_true, hframe_kind]
      rfl
    obtain ⟨b, hclose, hgrown, hb⟩ :=
      h.close_section s hframes hslot (hrange frame hframe_start hboundary)
    refine ⟨b, (close_of_top rfl hframes).trans hclose, ?_, hrest b hb⟩
    exact (List.append_nil given).symm ▸ hgrown
  | footnote name =>
    obtain ⟨frame, rest, hframes, hframe_kind, hframe_start, hboundary, -, hrest⟩ :=
      hstacked.top rfl
    obtain ⟨b, hclose, hgrown, hb⟩ :=
      h.close_footnote s hframes hframe_kind (hrange frame hframe_start hboundary)
    refine ⟨b, (close_of_top rfl hframes).trans hclose, ?_, hrest b hb⟩
    exact (List.append_nil given).symm ▸ hgrown
  | paragraph =>
    obtain ⟨frame, rest, hframes, hframe_kind, hframe_start, hboundary, hskip, hrest⟩ :=
      hstacked.top rfl
    have hslot : frame.slot = none := by
      rw [Frame.slot, hskip (by decide), if_neg Bool.false_ne_true, hframe_kind]
      rfl
    obtain ⟨b, hclose, hgrown, hb⟩ :=
      h.close_paragraph s hframes hslot (hrange frame hframe_start hboundary)
    refine ⟨b, (close_of_top rfl hframes).trans hclose, hgrown, ?_⟩
    have hpopped := hrest { a with frames := rest } rfl
    exact hpopped.same (map_of_core (fun _ => rfl) hb)
  | simple kind node_kind canonical_text htag hkind hsection hnote hblock hclose hclaim =>
    -- the frame has a slot, which the node takes; no position is claimed
    obtain ⟨frame, rest, hframes, hframe_kind, hframe_start, hboundary, hskip, hrest⟩ :=
      hstacked.top htag
    have haligned := hrange frame hframe_start hboundary
    refine ⟨_, (close_of_top hblock hframes).trans ((hclose _ _ _).trans (emit_ok haligned)), ?_,
      hrest _ rfl⟩
    rw [hclaim, Option.toList_none, List.append_nil]
    refine h.emit_slot hframes ?_ rfl rfl rfl rfl fun entry hentry => .inl hentry
    rw [Frame.slot, hskip hnote, if_neg Bool.false_ne_true, hframe_kind, hkind, Option.map_some]
    rfl
  | bare htag hblock hclose hclaim =>
    obtain ⟨frame, rest, hframes, hframe_kind, -, -, hskip, hrest⟩ := hstacked.top htag
    refine ⟨_, (close_of_top hblock hframes).trans (hclose _ _ _), ?_, hrest _ rfl⟩
    rw [hclaim, Option.toList_none, List.append_nil]
    refine h.pop hframes ?_ rfl rfl rfl rfl rfl
    rw [Frame.slot, hskip (by decide), if_neg Bool.false_ne_true, hframe_kind]
    rfl
  | inline htag hblock hclaim =>
    refine ⟨a, ?_, ?_, ?_, hstacked.aligned, hstacked.skips⟩
    · rw [Adapter.close, hblock, if_neg Bool.false_ne_true]
    · rw [hclaim, Option.toList_none, List.append_nil]
      exact h
    · rw [hstacked.frames, List.filterMap_cons_none]
      rw [htag, Option.map_none]

/-! ## Whole walks -/

omit [UnicodeTables] [StrDebug] in
/-- An event that changes texts only takes no position. -/
theorem Grown.push_str (h : Grown given a) (t : String) : Grown given (a.push_str t) := by
  have hcore := push_str_core (a := a) t
  have hsame : a.push_str t = { a with frames := (a.push_str t).frames } := by
    rw [Adapter.push_str]
    split <;> rfl
  rw [hsame]
  refine h.keep (List.Perm.of_eq ?_) ⟨?_, ?_⟩ rfl (fun _ hentry => .inl hentry) fun _ hc => .inl hc
  · exact congrArg (a.candidates.map candidate_slot ++ ·) (slots_of_core hcore)
  all_goals
    have hids : (a.push_str t).frames.map Frame.provisional = a.frames.map Frame.provisional :=
      map_of_core (fun _ => rfl) hcore
    rw [Adapter.names]
    simp only [hids]
  · exact h.named.distinct
  · exact h.named.older

/-- **One event of a well-nested stream.** -/
theorem Grown.step (s : Setup) (h : Grown given a) (hstacked : Stacked text opened a)
    {entry : Event × ByteRange} {opened' : Open} (hfollow : follow opened entry = some opened')
    (haligned : Aligned text entry.2) :
    ∃ b, a.event s text entry.1 entry.2 = .ok b ∧
      Grown (given ++ (Markdown.claim a entry.1).toList) b ∧ Stacked text opened' b := by
  obtain ⟨event, range⟩ := entry
  have hgiven : given ++ [] = given := List.append_nil given
  have hpush (t : String) (hsame : opened = opened') :
      Grown (given ++ []) (a.push_str t) ∧ Stacked text opened' (a.push_str t) := by
    rw [hgiven, ← hsame]
    exact ⟨h.push_str t, hstacked.same (map_of_core (fun _ => rfl) (push_str_core t))⟩
  have hdiagnose (kind : IngestDiagnosticKind) (detail : String) (hsame : opened = opened') :
      Grown (given ++ []) (a.diagnose kind range detail) ∧
        Stacked text opened' (a.diagnose kind range detail) := by
    rw [hgiven, ← hsame]
    exact ⟨h.diagnose kind range detail, hstacked.frames, hstacked.aligned, hstacked.skips⟩
  cases event with
  | Start tag =>
    rw [← Option.some.inj hfollow]
    exact ⟨_, rfl, h.start hstacked haligned.2.2.1⟩
  | End tag_end =>
    obtain ⟨tag, start, rfl, rfl, hstart⟩ := follow_end_iff.mp hfollow
    exact h.close_tag s hstacked hstart haligned
  | Text t | Code t | InlineMath t | DisplayMath t =>
    exact ⟨_, rfl, hpush t (Option.some.inj hfollow)⟩
  | SoftBreak | HardBreak => exact ⟨_, rfl, hpush "\n" (Option.some.inj hfollow)⟩
  | FootnoteReference | TaskListMarker =>
    refine ⟨a, rfl, ?_⟩
    rw [← Option.some.inj hfollow]
    exact ⟨hgiven.symm ▸ h, hstacked⟩
  | Html | InlineHtml | Rule => exact ⟨_, rfl, hdiagnose _ _ (Option.some.inj hfollow)⟩

/-- The positions that a walk takes, in order. -/
def claims (s : Setup) (text : String) (a : Adapter) :
    List (Event × ByteRange) → List (Option String × Bool)
  | [] => []
  | entry :: events =>
    (claim a entry.1).toList ++
      match a.event s text entry.1 entry.2 with
      | .ok b => claims s text b events
      | .error _ => []

/-- **A walk over a well-nested stream with aligned offsets does not fail**, and keeps what
every step keeps. -/
theorem Grown.run (s : Setup) {events : List (Event × ByteRange)} (h : Grown given a)
    (hstacked : Stacked text opened a) {opened' : Open}
    (hfollow : events.foldlM follow opened = some opened')
    (haligned : ∀ entry ∈ events, Aligned text entry.2) :
    ∃ b, walk s text events a = .ok b ∧ Grown (given ++ claims s text a events) b ∧
      Stacked text opened' b := by
  induction events generalizing given a opened with
  | nil =>
    rw [List.foldlM_nil] at hfollow
    cases hfollow
    rw [claims, List.append_nil]
    exact ⟨a, rfl, h, hstacked⟩
  | cons entry events ih =>
    rw [List.foldlM_cons] at hfollow
    obtain ⟨between, hfirst, hrest⟩ := Option.bind_eq_some_iff.mp hfollow
    obtain ⟨b, hevent, hgrown, hb⟩ := h.step s hstacked hfirst (haligned entry List.mem_cons_self)
    obtain ⟨c, hwalk, hgrown, hc⟩ :=
      ih hgrown hb hrest fun other hother => haligned other (List.mem_cons_of_mem _ hother)
    refine ⟨c, ?_, ?_, hc⟩
    · rw [walk, List.foldlM_cons, hevent]
      exact hwalk
    · rw [claims, hevent, ← List.append_assoc]
      exact hgrown

end Closing

end Evidence.Corpus.Markdown
