/-
The heading paths of the Markdown adapter, against the sections above its nodes.

A frame's parent is decided when its block starts, and the heading path of its node is read off
the section stack when the block ends. `Adapter.home` is the path at the place where a block
is put; for a row and a cell that is the place of the table. A stream is steady if the open
section has the same path again whenever a block ends that a node comes of (`SteadyFrom`).

`Housed` follows the homes of all nodes along a walk, so that each end of a block settles whether
its node's path is that of its home.
-/
import Evidence.Corpus.Ingest.HeadingPath
import Evidence.Corpus.Ingest.Markdown.Walk

set_option autoImplicit false

namespace Evidence.Corpus.Markdown

open Check

/-! ## Homes -/

namespace Adapter

variable (a : Adapter)

/-- The home of the innermost open frame of a kind, or else the path of the enclosing section. -/
def home_under (homes : List (List String)) (kind : FrameKind) : List String :=
  (((a.frames.zip homes).find? fun entry => entry.1.kind == kind).map Prod.snd).getD
    a.section_path

/-- The path at the place where the node of a tag is put; `homes` are those of the open frames. -/
def home (homes : List (List String)) (tag : Tag) : List String :=
  match tag with
  | .Heading level => (a.close_sections level.as_usize).section_path
  | tag =>
    match tag.frame_kind with
    | some .TableRow => a.home_under homes .Table
    | some .TableCell => a.home_under homes .TableRow
    | _ => a.section_path

/-- The homes of the frames that are open behind an event. -/
def next_homes (homes : List (List String)) (event : Event) : List (List String) :=
  match event with
  | .Start tag => if tag.frame_kind.isSome then a.home homes tag :: homes else homes
  | .End tag_end => if tag_end.is_block then homes.tail else homes
  | _ => homes

/-- The event does not end a block away from its place: if a node comes of the block, the open
section has the path that it had at the place of the block. -/
def Steady (homes : List (List String)) (event : Event) : Prop :=
  match event with
  | .End tag_end => tag_end.is_block = true → ∀ frame ∈ a.frames.head?, frame.slot.isSome = true →
      ∀ home ∈ homes.head?, a.section_path = home
  | _ => True

end Adapter

section Walks

variable [UnicodeTables] [StrDebug]

/-- **Every block ends at its place.** -/
def SteadyFrom (s : Setup) (text : String) :
    List (List String) → Adapter → List (Event × ByteRange) → Prop
  | _, _, [] => True
  | homes, a, entry :: events =>
    a.Steady homes entry.1 ∧ ∀ b, a.event s text entry.1 entry.2 = .ok b →
      SteadyFrom s text (a.next_homes homes entry.1) b events

end Walks

/-! ## What a walk keeps -/

/-- How a slot lies under its parent. -/
def Adapter.Houses (a : Adapter) (home : String → List String) (slot : Slot) : Prop :=
  (slot.parent = none ∧ home slot.id = []) ∨
  (∃ p ∈ a.candidates, slot.parent = some p.provisional_id ∧ p.kind = .Section ∧
    home slot.id = p.heading_path ∧
      (slot.kind = .Paragraph ∨ Earlier provisional_id p.provisional_id slot.id)) ∨
  (∃ p ∈ a.slots, slot.parent = some p.id ∧ (p.kind ≠ .Section ∧ p.kind ≠ .Paragraph) ∧
    home slot.id = home p.id ∧ Earlier provisional_id p.id slot.id)

/-- **What every state of a walk keeps**, of the homes given out so far. -/
structure Housed (home : String → List String) (homes : List (List String)) (opened : Open)
    (a : Adapter) : Prop where
  kinds : a.frames.map Frame.kind = opened.filterMap fun entry => entry.1.frame_kind
  homes_eq : a.frames.map (fun frame => home frame.provisional) = homes
  skips : ∀ frame ∈ a.frames, frame.skip = true → frame.kind = .FootnoteNote
  named : a.Named
  sections : ∀ entry ∈ a.sections, ∃ c ∈ a.candidates, c.provisional_id = entry.provisional ∧
    c.kind = .Section ∧ c.heading_path = entry.path
  placed : ∀ slot ∈ a.slots, a.Houses home slot

/-- The paths of the nodes are those of their homes. -/
def Adapter.AllAtHome (a : Adapter) (home : String → List String) : Prop :=
  ∀ c ∈ a.candidates, AtHome home c

theorem Housed.new : Housed (fun _ => []) [] [] .new where
  kinds := rfl
  homes_eq := rfl
  skips := fun _ h => absurd h List.not_mem_nil
  named := ⟨List.nodup_nil, fun _ h => absurd h List.not_mem_nil⟩
  sections := fun _ h => absurd h List.not_mem_nil
  placed := fun _ h => absurd h List.not_mem_nil

section Steps

variable {home : String → List String} {homes : List (List String)} {opened : Open}
  {a b : Adapter} {frame : Frame} {rest : List Frame}

theorem Frame.of_slot {slot : Slot} (h : slot ∈ frame.slot) :
    ∃ kind, frame.kind.node_kind = some kind ∧
      slot = ⟨frame.provisional, frame.parent, kind, frame.ordinal⟩ := by
  rw [Option.mem_def, Frame.slot] at h
  split at h
  · cases h
  · obtain ⟨kind, hkind, rfl⟩ := Option.map_eq_some_iff.mp h
    exact ⟨kind, hkind, rfl⟩

/-- A place stays what it is while nodes are added. -/
theorem Adapter.Houses.later {home' : String → List String} {slot : Slot}
    (h : a.Houses home slot) (hcandidates : a.candidates ⊆ b.candidates)
    (hslots : a.slots ⊆ b.slots) (hslot : home' slot.id = home slot.id)
    (hhome : ∀ p ∈ a.slots, home' p.id = home p.id) : b.Houses home' slot := by
  rcases h with ⟨hparent, hroot⟩ | ⟨p, hp, hparent, hkind, hpath, hearlier⟩ |
      ⟨p, hp, hparent, hkind, hpath, hearlier⟩
  · exact .inl ⟨hparent, hslot.trans hroot⟩
  · exact .inr (.inl ⟨p, hcandidates hp, hparent, hkind, hslot.trans hpath, hearlier⟩)
  · refine .inr (.inr ⟨p, hslots hp, hparent, hkind, ?_, hearlier⟩)
    rw [hslot, hpath, hhome p hp]

/-- The homes of the ids in use do not change when a new one is given out. -/
theorem Adapter.Named.update_of_mem (h : a.Named) (path : List String) {id : String}
    (hid : id ∈ a.names) :
    Function.update home (provisional_id a.next_provisional) path id = home id := by
  refine Function.update_of_ne (fun heq => ?_) _ _
  obtain ⟨n, hn, hname⟩ := h.older id hid
  rw [heq, provisional_id_inj] at hname
  omega

/-- The ids of candidates and frames are in use. -/
theorem Adapter.candidate_id_mem {c : CandidateNode} (hc : c ∈ a.candidates) :
    c.provisional_id ∈ a.names :=
  List.mem_append_left _ (List.mem_map_of_mem hc)

theorem Adapter.frame_id_mem (hframe : frame ∈ a.frames) : frame.provisional ∈ a.names :=
  List.mem_append_right _ (List.mem_map_of_mem hframe)

/-- The ids in use are older than the next. -/
theorem Adapter.Named.earlier (h : a.Named) {id : String} (hid : id ∈ a.names) :
    Earlier provisional_id id (provisional_id a.next_provisional) := by
  obtain ⟨n, hn, rfl⟩ := h.older id hid
  exact ⟨n, a.next_provisional, rfl, rfl, hn⟩

/-- **A frame is pushed**: the next id gets a home. -/
theorem Housed.push (h : Housed home homes opened a) {tag : Tag} {kind : FrameKind} {start : ℕ}
    (htag : tag.frame_kind = some kind) (hframes : b.frames = frame :: a.frames)
    (hid : frame.provisional = provisional_id a.next_provisional) (hkind : frame.kind = kind)
    (hskip : frame.skip = true → frame.kind = .FootnoteNote)
    (hcandidates : b.candidates = a.candidates) (hsections : b.sections ⊆ a.sections)
    (hnext : b.next_provisional = a.next_provisional + 1) (path : List String)
    (hslot : ∀ slot ∈ frame.slot, a.Houses (Function.update home frame.provisional path) slot) :
    ∃ home', Housed home' (path :: homes) ((tag, start) :: opened) b ∧
      (b.AllAtHome home' ↔ a.AllAtHome home) := by
  have hslots := Adapter.slots_push hframes hcandidates
  have hsub : a.slots ⊆ b.slots := fun slot hmem =>
    hslots.mem_iff.mpr (List.mem_append_right _ hmem)
  have hkeep : ∀ id ∈ a.names, Function.update home frame.provisional path id = home id :=
    fun id hmem => hid ▸ h.named.update_of_mem path hmem
  refine ⟨Function.update home frame.provisional path, ⟨?_, ?_, ?_, ?_, ?_, ?_⟩, ?_⟩
  · rw [hframes, List.map_cons, h.kinds, hkind]
    exact (List.filterMap_cons_some (by exact htag)).symm
  · rw [hframes, List.map_cons, Function.update_self, ← h.homes_eq]
    refine congrArg (path :: ·) (List.map_congr_left fun other hother => ?_)
    exact hkeep _ (Adapter.frame_id_mem hother)
  · intro other hother
    rcases List.mem_cons.mp (hframes ▸ hother) with rfl | hold
    · exact hskip
    · exact h.skips other hold
  · exact h.named.push hid hframes hcandidates hnext
  · intro entry hentry
    rw [hcandidates]
    exact h.sections entry (hsections hentry)
  · intro slot hmem
    have hcandidates' : a.candidates ⊆ b.candidates := hcandidates ▸ List.Subset.refl _
    have hhome : ∀ p ∈ a.slots, Function.update home frame.provisional path p.id = home p.id :=
      fun p hp => hkeep _ (Adapter.slot_id_mem hp)
    rcases List.mem_append.mp (hslots.mem_iff.mp hmem) with hnew | hold
    · exact (hslot slot (Option.mem_toList.mp hnew)).later hcandidates' hsub rfl fun _ _ => rfl
    · exact (h.placed slot hold).later hcandidates' hsub (hhome slot hold) hhome
  · rw [Adapter.AllAtHome, hcandidates, Adapter.AllAtHome]
    refine forall₂_congr fun c hc => ?_
    rw [AtHome, AtHome, hkeep _ (Adapter.candidate_id_mem hc)]

theorem Housed.houses_section (h : Housed home homes opened a) {slot : Slot}
    {home' : String → List String} (hparent : slot.parent = a.section_parent)
    (hhome : home' slot.id = a.section_path)
    (hslot : slot.id = provisional_id a.next_provisional ∨ slot.kind = .Paragraph) :
    a.Houses home' slot := by
  rw [Adapter.section_parent] at hparent
  rw [Adapter.section_path] at hhome
  cases hsections : a.sections with
  | nil =>
    rw [hsections] at hparent hhome
    exact .inl ⟨hparent, hhome⟩
  | cons entry rest =>
    rw [hsections] at hparent hhome
    obtain ⟨c, hc, hid, hkind, hpath⟩ := h.sections entry (hsections ▸ List.mem_cons_self)
    refine .inr (.inl ⟨c, hc, ?_, hkind, ?_, ?_⟩)
    · rw [hid, hparent]
      rfl
    · rw [hpath, hhome]
      rfl
    · rcases hslot with hnext | hparagraph
      · rw [hnext]
        exact .inr (h.named.earlier (Adapter.candidate_id_mem hc))
      · exact .inl hparagraph

/-- The frame that is found, with its home. -/
theorem find?_zip_map {α β : Type} (p : α → Bool) (f : α → β) (l : List α) :
    (l.zip (l.map f)).find? (fun entry => p entry.1) = (l.find? p).map fun x => (x, f x) := by
  induction l with
  | nil => rfl
  | cons x l ih =>
    rw [List.map_cons, List.zip_cons_cons, List.find?_cons, List.find?_cons, ih]
    cases p x <;> rfl

theorem Housed.home_under_eq (h : Housed home homes opened a) (kind : FrameKind) :
    a.home_under homes kind =
      ((a.frames.find? fun frame => frame.kind == kind).map fun frame =>
        home frame.provisional).getD a.section_path := by
  rw [Adapter.home_under, ← h.homes_eq,
    find?_zip_map (fun frame : Frame => frame.kind == kind), Option.map_map]
  rfl

theorem Housed.houses_frame (h : Housed home homes opened a) {kind : FrameKind}
    {node_kind : SourceNodeKind} (hkind : kind.node_kind = some node_kind)
    (hnote : kind ≠ .FootnoteNote) (hnode : node_kind ≠ .Section ∧ node_kind ≠ .Paragraph)
    {slot : Slot} (hparent : slot.parent = a.frame_parent kind)
    (hslot : slot.id = provisional_id a.next_provisional) :
    a.Houses (Function.update home slot.id (a.home_under homes kind)) slot := by
  have hself : Function.update home slot.id (a.home_under homes kind) slot.id =
      a.home_under homes kind := Function.update_self _ _ _
  rw [h.home_under_eq] at hself ⊢
  rw [Adapter.frame_parent] at hparent
  cases hfind : a.frames.find? fun frame => frame.kind == kind with
  | none =>
    rw [hfind, Option.map_none, Option.none_or] at hparent
    rw [hfind] at hself
    exact h.houses_section hparent hself (.inl hslot)
  | some frame =>
    rw [hfind, Option.map_some, Option.some_or] at hparent
    rw [hfind] at hself
    obtain ⟨hframe, hmem⟩ := Adapter.found_slot hkind hnote h.skips hfind
    refine .inr (.inr ⟨_, hmem, hparent, hnode, hself.trans ?_, ?_⟩)
    · rw [hslot]
      exact (h.named.update_of_mem _ (Adapter.frame_id_mem hframe)).symm
    · rw [hslot]
      exact h.named.earlier (Adapter.frame_id_mem hframe)

theorem Housed.close_sections (h : Housed home homes opened a) (level : ℕ) :
    Housed home homes opened (a.close_sections level) where
  kinds := h.kinds
  homes_eq := h.homes_eq
  skips := h.skips
  named := ⟨h.named.distinct, h.named.older⟩
  sections entry hentry := h.sections entry ((List.dropWhile_sublist _).subset hentry)
  placed := h.placed

theorem Housed.inline (h : Housed home homes opened a) {tag : Tag} (htag : tag.frame_kind = none)
    (start : ℕ) : Housed home homes ((tag, start) :: opened) a :=
  ⟨h.kinds.trans (List.filterMap_cons_none (by exact htag)).symm, h.homes_eq, h.skips, h.named,
    h.sections, h.placed⟩

/-! ## Closing a block -/

/-- What an emission adds, and what it leaves as it is. -/
theorem of_emit_ok {s : Setup} {text : String} {content : NodeContent} {stop : ℕ}
    (h : emit s text frame content stop a = .ok b) :
    b.frames = a.frames ∧ b.candidates = a.candidates ++ [s.node frame content stop] ∧
      b.sections = a.sections ∧ b.next_provisional = a.next_provisional := by
  unfold emit checked_byte_range at h
  split at h
  · rw [← Except.ok.inj h]
    exact ⟨rfl, rfl, rfl, rfl⟩
  · cases h

/-- The frames that stay keep their kinds, homes and ids when texts change. -/
theorem Housed.popped (h : Housed home homes opened a) {tag : Tag} {start : ℕ} {kind : FrameKind}
    {outer : Open} (hopened : opened = (tag, start) :: outer) (htag : tag.frame_kind = some kind)
    (hframes : a.frames = frame :: rest) (hrest : b.frames.map Frame.core = rest.map Frame.core) :
    b.frames.map Frame.kind = outer.filterMap (fun entry => entry.1.frame_kind) ∧
      b.frames.map (fun frame => home frame.provisional) = homes.tail ∧
      (∀ frame ∈ b.frames, frame.skip = true → frame.kind = .FootnoteNote) ∧
      b.frames.map Frame.provisional = rest.map Frame.provisional := by
  have hkinds := h.kinds
  rw [hopened, hframes, List.map_cons, List.filterMap_cons_some (by exact htag),
    List.cons.injEq] at hkinds
  refine ⟨(map_of_core (fun _ => rfl) hrest).trans hkinds.2, ?_, fun other hother => ?_,
    map_of_core (fun _ => rfl) hrest⟩
  · rw [← h.homes_eq, hframes, List.map_cons, List.tail_cons]
    have hview : b.frames.map (fun frame => home frame.provisional) =
        rest.map fun frame => home frame.provisional := map_of_core (fun _ => rfl) hrest
    exact hview
  · have hcore : other.core ∈ rest.map Frame.core := hrest ▸ List.mem_map_of_mem hother
    obtain ⟨old, hold, heq⟩ := List.mem_map.mp hcore
    have hskip : old.core.skip = other.core.skip := congrArg Frame.skip heq
    have hkind : old.core.kind = other.core.kind := congrArg Frame.kind heq
    change old.skip = other.skip at hskip
    change old.kind = other.kind at hkind
    rw [← hskip, ← hkind]
    exact h.skips old (hframes ▸ List.mem_cons_of_mem _ hold)

theorem Housed.top (h : Housed home homes opened a) {tag : Tag} {start : ℕ} {kind : FrameKind}
    {outer : Open} (hopened : opened = (tag, start) :: outer)
    (htag : tag.frame_kind = some kind) :
    ∃ frame rest, a.frames = frame :: rest ∧ frame.kind = kind ∧
      (kind ≠ .FootnoteNote → frame.skip = false) := by
  have hkinds := h.kinds
  rw [hopened, List.filterMap_cons_some (by exact htag), List.map_eq_cons_iff] at hkinds
  obtain ⟨frame, rest, hframes, hkind, -⟩ := hkinds
  refine ⟨frame, rest, hframes, hkind, fun hnote => ?_⟩
  rw [← Bool.not_eq_true]
  intro hskip
  exact hnote (hkind ▸ h.skips frame (hframes ▸ List.mem_cons_self) hskip)

theorem Housed.steady_iff (h : Housed home homes opened a) {tag_end : TagEnd}
    (hblock : tag_end.is_block = true) (hframes : a.frames = frame :: rest) :
    a.Steady homes (.End tag_end) ↔
      (frame.slot.isSome = true → a.section_path = home frame.provisional) := by
  have hhomes : homes.head? = some (home frame.provisional) := by
    rw [← h.homes_eq, hframes, List.map_cons, List.head?_cons]
  simp only [Adapter.Steady, hframes, List.head?_cons, Option.mem_some_iff, hhomes,
    forall_eq', hblock, true_imp_iff]

/-- **A frame is popped and no node comes of it.** -/
theorem Housed.pop (h : Housed home homes opened a) {tag : Tag} {start : ℕ} {kind : FrameKind}
    {outer : Open} (hopened : opened = (tag, start) :: outer) (htag : tag.frame_kind = some kind)
    (hframes : a.frames = frame :: rest) (hslot : frame.slot = none)
    (hrest : b.frames.map Frame.core = rest.map Frame.core)
    (hcandidates : b.candidates = a.candidates) (hsections : b.sections = a.sections)
    (hnext : b.next_provisional = a.next_provisional) : Housed home homes.tail outer b := by
  obtain ⟨hkinds, hhomes, hskips, hids⟩ := h.popped hopened htag hframes hrest
  have hslots : b.slots = a.slots := by
    rw [Adapter.slots, hcandidates, slots_of_core hrest, Adapter.slots, hframes,
      List.filterMap_cons_none hslot]
  refine ⟨hkinds, hhomes, hskips, h.named.fewer (List.Sublist.subperm ?_) hnext.ge, ?_, ?_⟩
  · rw [Adapter.names, hcandidates, hids, Adapter.names, hframes, List.map_cons]
    exact List.Sublist.append_left (List.sublist_cons_self _ _) _
  · rw [hsections, hcandidates]
    exact h.sections
  · rw [hslots]
    exact fun slot hmem => (h.placed slot hmem).later (hcandidates ▸ List.Subset.refl _)
      (hslots ▸ List.Subset.refl _) rfl fun _ _ => rfl

variable {s : Setup} {content : NodeContent} {stop : ℕ}

/-- **A node comes of a frame**: its path is its home's exactly if the section is at home. -/
theorem Housed.emit (h : Housed home homes opened a) {tag : Tag} {start : ℕ} {kind : FrameKind}
    {outer : Open} (hopened : opened = (tag, start) :: outer) (htag : tag.frame_kind = some kind)
    (hframes : a.frames = frame :: rest)
    (hslot : frame.slot = some (candidate_slot (s.node frame content stop)))
    (hpath : content.heading_path =
      a.section_path ++ (s.node frame content stop).section_label)
    (hrest : b.frames = rest)
    (hcandidates : b.candidates = a.candidates ++ [s.node frame content stop])
    (hnext : b.next_provisional = a.next_provisional)
    (hsections : ∀ entry ∈ b.sections, entry ∈ a.sections ∨
      entry.provisional = frame.provisional ∧ content.kind = .Section ∧
        content.heading_path = entry.path) :
    Housed home homes.tail outer b ∧
      (b.AllAtHome home ↔ a.AllAtHome home ∧ a.section_path = home frame.provisional) := by
  obtain ⟨hkinds, hhomes, hskips, hids⟩ :=
    h.popped hopened htag hframes (congrArg (List.map Frame.core) hrest)
  have hold : a.candidates ⊆ b.candidates := by
    rw [hcandidates]
    exact List.subset_append_left _ _
  have hslots : b.slots.Perm a.slots := by
    rw [Adapter.slots, hrest, hcandidates, Adapter.slots, hframes, List.filterMap_cons_some hslot,
      List.map_append, List.map_singleton, List.append_assoc, List.singleton_append]
  refine ⟨⟨hkinds, hhomes, hskips, h.named.fewer (List.Perm.subperm ?_) hnext.ge, ?_, ?_⟩, ?_⟩
  · rw [Adapter.names, hrest, hcandidates, Adapter.names, hframes, List.map_append,
      List.map_singleton, List.append_assoc, List.singleton_append, List.map_cons]
    exact List.Perm.refl _
  · intro entry hentry
    rcases hsections entry hentry with hmem | ⟨hid, hkind, hentry_path⟩
    · obtain ⟨c, hc, hentry⟩ := h.sections entry hmem
      exact ⟨c, hold hc, hentry⟩
    · refine ⟨s.node frame content stop, ?_, hid.symm, hkind, hentry_path⟩
      rw [hcandidates]
      exact List.mem_append_right _ (List.mem_singleton.mpr rfl)
  · exact fun slot hmem => (h.placed slot (hslots.mem_iff.mp hmem)).later hold hslots.symm.subset
      rfl fun _ _ => rfl
  · rw [Adapter.AllAtHome, hcandidates]
    simp only [List.mem_append, List.mem_singleton, or_imp, forall_and, forall_eq]
    refine and_congr Iff.rfl ?_
    rw [AtHome, show (s.node frame content stop).heading_path = content.heading_path from rfl,
      hpath, List.append_cancel_right_eq]
    rfl

/-- **A paragraph that is emitted** stands under the section whose path it takes. -/
theorem Housed.emit_paragraph (h : Housed home homes opened a) {tag : Tag} {start : ℕ}
    {kind : FrameKind} {outer : Open} (hopened : opened = (tag, start) :: outer)
    (htag : tag.frame_kind = some kind) (hframes : a.frames = frame :: rest)
    (hslot : frame.slot = none) (hkind : content.kind = .Paragraph)
    (hpath : content.heading_path = a.section_path) {ordinal : UInt32} (hrest : b.frames = rest)
    (hcandidates : b.candidates = a.candidates ++
      [s.node { frame with parent := a.section_parent, ordinal := ordinal } content stop])
    (hsections : b.sections = a.sections) (hnext : b.next_provisional = a.next_provisional) :
    ∃ home', Housed home' homes.tail outer b ∧ (b.AllAtHome home' ↔ a.AllAtHome home) := by
  obtain ⟨hkinds, hhomes, hskips, hids⟩ :=
    h.popped hopened htag hframes (congrArg (List.map Frame.core) hrest)
  have hdistinct := h.named.distinct
  rw [Adapter.names, hframes, List.map_cons] at hdistinct
  have hnew := (List.nodup_middle.mp hdistinct).notMem
  -- the id of the frame is that of no candidate and of no other frame
  have hkeep : ∀ id ∈ a.candidates.map CandidateNode.provisional_id ++
      rest.map Frame.provisional,
      Function.update home frame.provisional a.section_path id = home id := by
    intro id hmem
    refine Function.update_of_ne (fun heq => ?_) _ _
    exact hnew (heq ▸ hmem)
  have hold : a.candidates ⊆ b.candidates := by
    rw [hcandidates]
    exact List.subset_append_left _ _
  have hslots : b.slots.Perm (candidate_slot (s.node
      { frame with parent := a.section_parent, ordinal := ordinal } content stop) :: a.slots) := by
    rw [Adapter.slots, hrest, hcandidates, Adapter.slots, hframes, List.filterMap_cons_none hslot,
      List.map_append, List.map_singleton, List.append_assoc, List.singleton_append]
    exact List.perm_middle
  have hslot_id : ∀ slot ∈ a.slots,
      Function.update home frame.provisional a.section_path slot.id = home slot.id := by
    intro slot hmem
    refine hkeep _ ?_
    rw [Adapter.slots, hframes, List.filterMap_cons_none hslot, List.mem_append] at hmem
    rw [List.mem_append]
    rcases hmem with hcandidate | hframe
    · obtain ⟨c, hc, rfl⟩ := List.mem_map.mp hcandidate
      exact .inl (List.mem_map_of_mem hc)
    · obtain ⟨other, hother, hother_slot⟩ := List.mem_filterMap.mp hframe
      obtain ⟨node_kind, -, rfl⟩ := Frame.of_slot hother_slot
      exact .inr (List.mem_map_of_mem hother)
  refine ⟨Function.update home frame.provisional a.section_path,
    ⟨hkinds, ?_, hskips, h.named.fewer (List.Perm.subperm ?_) hnext.ge, ?_, ?_⟩, ?_⟩
  · rw [← hhomes, hrest]
    exact List.map_congr_left fun other hother =>
      hkeep _ (List.mem_append_right _ (List.mem_map_of_mem hother))
  · rw [Adapter.names, hrest, hcandidates, Adapter.names, hframes, List.map_append,
      List.map_singleton, List.append_assoc, List.singleton_append, List.map_cons]
    exact List.Perm.refl _
  · rw [hsections]
    intro entry hentry
    obtain ⟨c, hc, hentry⟩ := h.sections entry hentry
    exact ⟨c, hold hc, hentry⟩
  · intro slot hmem
    have hsub : a.slots ⊆ b.slots := fun slot hmem =>
      hslots.mem_iff.mpr (List.mem_cons_of_mem _ hmem)
    rcases List.mem_cons.mp (hslots.mem_iff.mp hmem) with rfl | hmem
    · exact (h.houses_section rfl (Function.update_self _ _ _) (.inr hkind)).later hold hsub rfl
        fun _ _ => rfl
    · exact (h.placed slot hmem).later hold hsub (hslot_id slot hmem) hslot_id
  · rw [Adapter.AllAtHome, hcandidates]
    simp only [List.mem_append, List.mem_singleton, or_imp, forall_and, forall_eq]
    rw [and_iff_left]
    · refine forall₂_congr fun c hc => ?_
      rw [AtHome, AtHome, hkeep _ (List.mem_append_left _ (List.mem_map_of_mem hc))]
    · rw [AtHome, CandidateNode.section_label_eq_nil, List.append_nil]
      · exact hpath.trans (Function.update_self frame.provisional a.section_path home).symm
      · rw [show (s.node { frame with parent := a.section_parent, ordinal := ordinal } content
          stop).kind = content.kind from rfl, hkind]
        decide

/-! ## Opening a block -/

variable [StrDebug]

/-- **The start of a tag.** -/
theorem Housed.start (h : Housed home homes opened a) (tag : Tag) (range : ByteRange) :
    ∃ home', Housed home' (a.next_homes homes (.Start tag)) ((tag, range.1) :: opened)
        (a.opened tag range) ∧
      ((a.opened tag range).AllAtHome home' ↔ a.AllAtHome home) := by
  have hskip (frame : Frame) (hframe : frame.skip = false) :
      frame.skip = true → frame.kind = .FootnoteNote := fun heq => by
    rw [hframe] at heq
    cases heq
  -- a node that is put under the enclosing section
  have hplain (kind : FrameKind) (htag : tag.frame_kind = some kind) :
      ∃ home', Housed home' (a.section_path :: homes) ((tag, range.1) :: opened)
          (a.push_node_frame kind a.section_parent range.1 id) ∧
        ((a.push_node_frame kind a.section_parent range.1 id).AllAtHome home' ↔
          a.AllAtHome home) := by
    refine h.push (b := a.push_node_frame kind a.section_parent range.1 id) htag rfl rfl rfl
      (hskip _ rfl) rfl (List.Subset.refl _) rfl a.section_path fun slot hslot => ?_
    obtain ⟨node_kind, -, rfl⟩ := Frame.of_slot hslot
    exact h.houses_section rfl (Function.update_self _ _ _) (.inl rfl)
  -- a row or a cell
  have hinner (kind outer : FrameKind) (outer_kind : SourceNodeKind)
      (houter : outer.node_kind = some outer_kind) (hnote : outer ≠ .FootnoteNote)
      (hnode : outer_kind ≠ .Section ∧ outer_kind ≠ .Paragraph)
      (htag : tag.frame_kind = some kind) :
      ∃ home', Housed home' (a.home_under homes outer :: homes) ((tag, range.1) :: opened)
          (a.push_node_frame kind (a.frame_parent outer) range.1 id) ∧
        ((a.push_node_frame kind (a.frame_parent outer) range.1 id).AllAtHome home' ↔
          a.AllAtHome home) := by
    refine h.push (b := a.push_node_frame kind (a.frame_parent outer) range.1 id) htag rfl rfl rfl
      (hskip _ rfl) rfl (List.Subset.refl _) rfl _ fun slot hslot => ?_
    obtain ⟨node_kind, -, rfl⟩ := Frame.of_slot hslot
    exact h.houses_frame houter hnote hnode rfl rfl
  -- a frame without a node
  have hbare (kind : FrameKind) (hkind : kind.node_kind = none)
      (htag : tag.frame_kind = some kind) :
      ∃ home', Housed home' (a.section_path :: homes) ((tag, range.1) :: opened)
          (a.push_bare_frame kind range.1) ∧
        ((a.push_bare_frame kind range.1).AllAtHome home' ↔ a.AllAtHome home) := by
    refine h.push (b := a.push_bare_frame kind range.1) htag rfl rfl rfl (hskip _ rfl) rfl
      (List.Subset.refl _) rfl a.section_path fun slot hslot => ?_
    obtain ⟨node_kind, hsome, -⟩ := Frame.of_slot hslot
    exact absurd (hkind.symm.trans hsome) (Option.some_ne_none _).symm
  have hinline (htag : tag.frame_kind = none) :
      ∃ home', Housed home' homes ((tag, range.1) :: opened) a ∧
        (a.AllAtHome home' ↔ a.AllAtHome home) := ⟨home, h.inline htag range.1, Iff.rfl⟩
  cases tag with
  | Heading level =>
    have hclosed := h.close_sections level.as_usize
    refine hclosed.push (b := a.opened (.Heading level) range) rfl rfl rfl rfl (hskip _ rfl) rfl
      (List.Subset.refl _) rfl (a.close_sections level.as_usize).section_path
      fun slot hslot => ?_
    obtain ⟨node_kind, -, rfl⟩ := Frame.of_slot hslot
    exact hclosed.houses_section rfl (Function.update_self _ _ _) (.inl rfl)
  | FootnoteDefinition name =>
    refine h.push (b := a.opened (.FootnoteDefinition name) range) rfl rfl rfl rfl (fun _ => rfl)
      rfl (List.Subset.refl _) rfl a.section_path fun slot hslot => ?_
    obtain ⟨node_kind, -, rfl⟩ := Frame.of_slot hslot
    exact h.houses_section rfl (Function.update_self _ _ _) (.inl rfl)
  | Paragraph => exact hbare .Paragraph rfl rfl
  | List => exact hbare .Transparent rfl rfl
  | HtmlBlock => exact hbare .Transparent rfl rfl
  | BlockQuote => exact hplain .Note rfl
  | CodeBlock => exact hplain .CodeBlock rfl
  | Item => exact hplain .ListItem rfl
  | Table => exact hplain .Table rfl
  | TableHead => exact hinner .TableRow .Table .Table rfl (by decide) (by decide) rfl
  | TableRow => exact hinner .TableRow .Table .Table rfl (by decide) (by decide) rfl
  | TableCell => exact hinner .TableCell .TableRow .TableRow rfl (by decide) (by decide) rfl
  | Image dest_url =>
    obtain ⟨home', hhoused, hiff⟩ := hinline rfl
    exact ⟨home', ⟨hhoused.kinds, hhoused.homes_eq, hhoused.skips,
      ⟨hhoused.named.distinct, hhoused.named.older⟩, hhoused.sections, hhoused.placed⟩, hiff⟩
  | Emphasis | Strong | Strikethrough | Superscript | Subscript | Link | DefinitionList
  | DefinitionListTitle | DefinitionListDefinition | MetadataBlock => exact hinline rfl


/-! ## The end of a tag -/

variable [UnicodeTables]

omit [StrDebug] [UnicodeTables] in
theorem Frame.slot_isSome {kind : FrameKind} {node_kind : SourceNodeKind}
    (hframe : frame.kind = kind) (hkind : kind.node_kind = some node_kind)
    (hskip : frame.skip = false) :
    frame.slot = some ⟨frame.provisional, frame.parent, node_kind, frame.ordinal⟩ := by
  rw [Frame.slot, hskip, if_neg Bool.false_ne_true, hframe, hkind, Option.map_some]

/-- **The end of a heading.** -/
theorem Housed.close_section (h : Housed home homes opened a) {text : String} {tag : Tag}
    {start : ℕ} {outer : Open} {range : ByteRange} (hopened : opened = (tag, start) :: outer)
    (htag : tag.frame_kind = some .Section) (hframes : a.frames = frame :: rest)
    (hslot : frame.slot = some ⟨frame.provisional, frame.parent, .Section, frame.ordinal⟩)
    (hclose : Markdown.close_section s text frame range { a with frames := rest } = .ok b) :
    Housed home homes.tail outer b ∧
      (b.AllAtHome home ↔ a.AllAtHome home ∧ a.section_path = home frame.provisional) := by
  obtain ⟨used_anchors, diagnostics, hquiet⟩ :=
    process_heading_quiet frame.text range { a with frames := rest }
  rw [Markdown.close_section] at hclose
  generalize process_heading frame.text range { a with frames := rest } = result at hquiet hclose
  obtain ⟨label_text, anchor, c⟩ := result
  have hquiet : c = { a with
      frames := rest, used_anchors := used_anchors, diagnostics := diagnostics } := hquiet
  obtain ⟨d, hemit, hclose⟩ := bind_ok_iff.mp hclose
  generalize (if label_text.isEmpty then none else some label_text) = label at hemit hclose
  have hslot : frame.slot = some (candidate_slot (s.node frame ⟨.Section, label, label.getD "",
      some anchor, c.section_path ++ label.toList⟩ range.2)) := hslot
  rw [← Except.ok.inj hclose]
  obtain ⟨hrest, hcandidates, hsections, hnext⟩ := of_emit_ok hemit
  rw [hquiet] at hrest hsections hnext
  have hold : c.candidates = a.candidates := by rw [hquiet]
  have hpath : c.section_path = a.section_path := by rw [hquiet]; rfl
  refine h.emit hopened htag hframes hslot ?_ hrest (hcandidates.trans (by rw [hold])) hnext
    fun entry hentry => ?_
  · exact congrArg (· ++ label.toList) hpath
  · rcases List.mem_cons.mp hentry with rfl | hold
    · exact .inr ⟨rfl, rfl, rfl⟩
    · exact .inl (hsections ▸ hold)

/-- After the end of a tag the frames and the paths have homes, and the paths are those exactly
if they were before and the end is steady. -/
def Closes (home : String → List String) (homes : List (List String)) (tag : Tag) (outer : Open)
    (a b : Adapter) : Prop :=
  ∃ home', Housed home' (a.next_homes homes (.End tag.to_end)) outer b ∧
    (b.AllAtHome home' ↔ a.AllAtHome home ∧ a.Steady homes (.End tag.to_end))

section Ends

variable {tag : Tag} {start : ℕ} {outer : Open} {text : String} {range : ByteRange}

omit [StrDebug] [UnicodeTables] in
theorem Housed.steady_of_slot (h : Housed home homes opened a) {slot : Slot}
    (hblock : tag.to_end.is_block = true) (hframes : a.frames = frame :: rest)
    (hslot : frame.slot = some slot) :
    a.Steady homes (.End tag.to_end) ↔ a.section_path = home frame.provisional := by
  rw [h.steady_iff hblock hframes, hslot]
  exact ⟨fun hask => hask rfl, fun hpath _ => hpath⟩

omit [StrDebug] [UnicodeTables] in
/-- The end of a frame without a node asks nothing. -/
theorem Housed.steady_of_no_slot (h : Housed home homes opened a)
    (hblock : tag.to_end.is_block = true) (hframes : a.frames = frame :: rest)
    (hslot : frame.slot = none) : a.Steady homes (.End tag.to_end) := by
  rw [h.steady_iff hblock hframes, hslot]
  intro hsome
  cases hsome

omit [StrDebug] [UnicodeTables] in
theorem next_homes_of_block (hblock : tag.to_end.is_block = true) :
    a.next_homes homes (.End tag.to_end) = homes.tail := if_pos hblock

omit [StrDebug] [UnicodeTables] in
theorem Housed.close_node (h : Housed home homes ((tag, start) :: outer) a) {kind : FrameKind}
    {node_kind : SourceNodeKind} {label : Option String} {canonical_text : String}
    (htag : tag.frame_kind = some kind) (hblock : tag.to_end.is_block = true)
    (hframes : a.frames = frame :: rest)
    (hslot : frame.slot = some ⟨frame.provisional, frame.parent, node_kind, frame.ordinal⟩)
    (hsection : node_kind ≠ .Section)
    (hemit : emit_simple s text frame node_kind label canonical_text range.2
      { a with frames := rest } = .ok b) : Closes home homes tag outer a b := by
  rw [Closes, next_homes_of_block hblock, h.steady_of_slot hblock hframes hslot]
  obtain ⟨hrest, hcandidates, hsections, hnext⟩ := of_emit_ok hemit
  have hslot : frame.slot = some (candidate_slot (s.node frame
    ⟨node_kind, label, canonical_text, none, a.section_path⟩ range.2)) := hslot
  refine ⟨home, h.emit rfl htag hframes hslot ?_ hrest hcandidates hnext fun entry hentry =>
    .inl (hsections ▸ hentry)⟩
  rw [CandidateNode.section_label_eq_nil (by exact hsection), List.append_nil]

omit [StrDebug] [UnicodeTables] in
/-- A frame that no node comes of. -/
theorem Housed.close_none (h : Housed home homes ((tag, start) :: outer) a) {kind : FrameKind}
    (htag : tag.frame_kind = some kind) (hblock : tag.to_end.is_block = true)
    (hframes : a.frames = frame :: rest) (hslot : frame.slot = none)
    (hrest : b.frames.map Frame.core = rest.map Frame.core)
    (hcandidates : b.candidates = a.candidates) (hsections : b.sections = a.sections)
    (hnext : b.next_provisional = a.next_provisional) : Closes home homes tag outer a b := by
  rw [Closes, next_homes_of_block hblock]
  refine ⟨home, h.pop rfl htag hframes hslot hrest hcandidates hsections hnext, ?_⟩
  rw [Adapter.AllAtHome, hcandidates]
  exact (and_iff_left (h.steady_of_no_slot hblock hframes hslot)).symm

theorem Housed.close_footnote {name : String}
    (h : Housed home homes ((.FootnoteDefinition name, start) :: outer) a)
    (hclose : a.close s text (Tag.FootnoteDefinition name).to_end range = .ok b) :
    Closes home homes (.FootnoteDefinition name) outer a b := by
  obtain ⟨frame, rest, hframes, hframe_kind, -⟩ := h.top rfl rfl
  rw [close_of_top rfl hframes] at hclose
  have hclose : Markdown.close_footnote s text frame range { a with frames := rest } = .ok b :=
    hclose
  rw [Markdown.close_footnote] at hclose
  by_cases hskip : frame.skip = true
  · rw [if_pos hskip] at hclose
    rw [← Except.ok.inj hclose]
    refine h.close_none rfl rfl hframes ?_ rfl rfl rfl rfl
    rw [Frame.slot, if_pos hskip]
  · rw [if_neg hskip] at hclose
    have hslot := Frame.slot_isSome hframe_kind (by rfl) (Bool.eq_false_of_not_eq_true hskip)
    exact h.close_node rfl rfl hframes hslot (by decide) hclose

/-- The end of a paragraph: it is taken up by an open frame, or becomes a node. -/
theorem Housed.close_paragraph (h : Housed home homes ((.Paragraph, start) :: outer) a)
    (hclose : a.close s text Tag.Paragraph.to_end range = .ok b) :
    Closes home homes .Paragraph outer a b := by
  obtain ⟨frame, rest, hframes, hframe_kind, hskip⟩ := h.top rfl rfl
  have hslot : frame.slot = none := by
    rw [Frame.slot, hskip (by decide), if_neg Bool.false_ne_true, hframe_kind]
    rfl
  rw [close_of_top rfl hframes] at hclose
  have hclose : Markdown.close_paragraph s text frame range { a with frames := rest } = .ok b :=
    hclose
  rw [Markdown.close_paragraph] at hclose
  cases habsorb : absorb frame.text rest with
  | some frames =>
    simp only [habsorb] at hclose
    rw [← Except.ok.inj hclose]
    exact h.close_none rfl rfl hframes hslot (absorb_core habsorb) rfl rfl rfl
  | none =>
    simp only [habsorb] at hclose
    obtain ⟨hrest, hcandidates, hsections, hnext⟩ := of_emit_ok hclose
    rw [Closes, next_homes_of_block rfl]
    obtain ⟨home', hhoused, hiff⟩ :=
      h.emit_paragraph rfl rfl hframes hslot rfl rfl hrest hcandidates hsections hnext
    exact ⟨home', hhoused,
      hiff.trans (and_iff_left (h.steady_of_no_slot rfl hframes hslot)).symm⟩

/-- **The end of a tag**: the paths stay those of the homes exactly if the end is steady. -/
theorem Housed.close (h : Housed home homes ((tag, start) :: outer) a)
    (hclose : a.close s text tag.to_end range = .ok b) : Closes home homes tag outer a b := by
  cases end_shape s text tag with
  | heading level =>
    obtain ⟨frame, rest, hframes, hframe_kind, hskip⟩ := h.top rfl rfl
    have hslot := Frame.slot_isSome hframe_kind (by rfl) (hskip (by decide))
    rw [close_of_top rfl hframes] at hclose
    rw [Closes, h.steady_of_slot rfl hframes hslot]
    exact ⟨home, h.close_section rfl rfl hframes hslot hclose⟩
  | footnote name => exact h.close_footnote hclose
  | paragraph => exact h.close_paragraph hclose
  | simple kind node_kind canonical_text htag hkind hsection hnote hblock hframe _ =>
    obtain ⟨frame, rest, hframes, hframe_kind, hskip⟩ := h.top rfl htag
    rw [close_of_top hblock hframes, hframe] at hclose
    exact h.close_node htag hblock hframes (Frame.slot_isSome hframe_kind hkind (hskip hnote))
      hsection hclose
  | bare htag hblock hframe _ =>
    obtain ⟨frame, rest, hframes, hframe_kind, hskip⟩ := h.top rfl htag
    rw [close_of_top hblock hframes, hframe] at hclose
    rw [← Except.ok.inj hclose]
    refine h.close_none htag hblock hframes ?_ rfl rfl rfl rfl
    rw [Frame.slot, hskip (by decide), if_neg Bool.false_ne_true, hframe_kind]
    rfl
  | inline htag hblock _ =>
    rw [Adapter.close, hblock, if_neg Bool.false_ne_true] at hclose
    rw [← Except.ok.inj hclose, Closes, Adapter.next_homes, hblock, if_neg Bool.false_ne_true]
    refine ⟨home, ⟨?_, h.homes_eq, h.skips, h.named, h.sections, h.placed⟩, ?_⟩
    · rw [h.kinds, List.filterMap_cons_none (by exact htag)]
    · refine (and_iff_left fun hblock' => ?_).symm
      rw [hblock] at hblock'
      cases hblock'

end Ends

/-! ## Whole walks -/

omit [StrDebug] [UnicodeTables] in
/-- Nothing changes but texts. -/
theorem Housed.same (h : Housed home homes opened a)
    (hframes : b.frames.map Frame.core = a.frames.map Frame.core)
    (hcandidates : b.candidates = a.candidates) (hsections : b.sections = a.sections)
    (hnext : b.next_provisional = a.next_provisional) : Housed home homes opened b := by
  have hids : b.frames.map Frame.provisional = a.frames.map Frame.provisional :=
    map_of_core (fun _ => rfl) hframes
  have hnames : b.names = a.names := by
    rw [Adapter.names, hcandidates, hids, Adapter.names]
  have hslots : b.slots = a.slots := by
    rw [Adapter.slots, hcandidates, slots_of_core hframes, Adapter.slots]
  refine ⟨?_, ?_, fun frame hframe => ?_, ⟨?_, ?_⟩, ?_, ?_⟩
  · rw [map_of_core (fun _ => rfl) hframes, h.kinds]
  · have hview : b.frames.map (fun frame => home frame.provisional) =
        a.frames.map fun frame => home frame.provisional := map_of_core (fun _ => rfl) hframes
    rw [hview, h.homes_eq]
  · have hcore : frame.core ∈ a.frames.map Frame.core := hframes ▸ List.mem_map_of_mem hframe
    obtain ⟨old, hold, heq⟩ := List.mem_map.mp hcore
    have hskip : old.core.skip = frame.core.skip := congrArg Frame.skip heq
    have hkind : old.core.kind = frame.core.kind := congrArg Frame.kind heq
    change old.skip = frame.skip at hskip
    change old.kind = frame.kind at hkind
    rw [← hskip, ← hkind]
    exact h.skips old hold
  · rw [hnames]
    exact h.named.distinct
  · rw [hnames, hnext]
    exact h.named.older
  · rw [hsections, hcandidates]
    exact h.sections
  · rw [hslots]
    exact fun slot hmem => (h.placed slot hmem).later (hcandidates ▸ List.Subset.refl _)
      (hslots ▸ List.Subset.refl _) rfl fun _ _ => rfl

/-- **One event**: the paths stay those of the homes exactly if the event is steady. -/
theorem Housed.step (h : Housed home homes opened a) {text : String} {entry : Event × ByteRange}
    {opened' : Open} (hfollow : follow opened entry = some opened')
    (hevent : a.event s text entry.1 entry.2 = .ok b) :
    ∃ home', Housed home' (a.next_homes homes entry.1) opened' b ∧
      (b.AllAtHome home' ↔ a.AllAtHome home ∧ a.Steady homes entry.1) := by
  obtain ⟨event, range⟩ := entry
  -- an event that no block begins or ends with
  have hsame (hopened : opened = opened')
      (hframes : b.frames.map Frame.core = a.frames.map Frame.core)
      (hcandidates : b.candidates = a.candidates) (hsections : b.sections = a.sections)
      (hnext : b.next_provisional = a.next_provisional) :
      ∃ home', Housed home' homes opened' b ∧
        (b.AllAtHome home' ↔ a.AllAtHome home ∧ True) := by
    refine ⟨home, hopened ▸ h.same hframes hcandidates hsections hnext, ?_⟩
    rw [Adapter.AllAtHome, hcandidates, and_true]
    rfl
  have hpush (t : String) (hopened : opened = opened') (hb : a.push_str t = b) :
      ∃ home', Housed home' homes opened' b ∧
        (b.AllAtHome home' ↔ a.AllAtHome home ∧ True) := by
    have hrest : a.push_str t = { a with frames := (a.push_str t).frames } := by
      rw [Adapter.push_str]
      split <;> rfl
    rw [← hb] at hsame ⊢
    refine hsame hopened (push_str_core t) ?_ ?_ ?_
    · rw [hrest]
    · rw [hrest]
    · rw [hrest]
  cases event with
  | Start tag =>
    rw [← Option.some.inj hfollow, ← Except.ok.inj hevent]
    obtain ⟨home', hhoused, hiff⟩ := h.start tag range
    exact ⟨home', hhoused, hiff.trans (and_true _).symm.to_iff⟩
  | End tag_end =>
    obtain ⟨tag, start, rfl, rfl, -⟩ := follow_end_iff.mp hfollow
    exact h.close hevent
  | Text t | Code t | InlineMath t | DisplayMath t =>
    exact hpush t (Option.some.inj hfollow) (Except.ok.inj hevent)
  | SoftBreak | HardBreak => exact hpush "\n" (Option.some.inj hfollow) (Except.ok.inj hevent)
  | FootnoteReference | TaskListMarker | Html | InlineHtml | Rule =>
    rw [← Except.ok.inj hevent] at hsame ⊢
    exact hsame (Option.some.inj hfollow) rfl rfl rfl rfl

/-- **A walk**: the paths stay those of the homes exactly if every block ends at its place. -/
theorem Housed.run (h : Housed home homes opened a) {text : String}
    {events : List (Event × ByteRange)} {opened' : Open}
    (hfollow : events.foldlM follow opened = some opened')
    (hwalk : walk s text events a = .ok b) :
    ∃ home' homes', Housed home' homes' opened' b ∧
      (b.AllAtHome home' ↔ a.AllAtHome home ∧ SteadyFrom s text homes a events) := by
  induction events generalizing a home homes opened with
  | nil =>
    cases hfollow
    cases hwalk
    exact ⟨home, homes, h, (and_true _).symm.to_iff⟩
  | cons entry events ih =>
    rw [List.foldlM_cons] at hfollow
    obtain ⟨between, hfirst, hrest⟩ := Option.bind_eq_some_iff.mp hfollow
    rw [walk, List.foldlM_cons] at hwalk
    obtain ⟨c, hevent, hwalk⟩ := bind_ok_iff.mp hwalk
    obtain ⟨home₁, hhoused, hstep⟩ := h.step hfirst hevent
    obtain ⟨home₂, homes₂, hfinal, hrun⟩ := ih hhoused hrest hwalk
    refine ⟨home₂, homes₂, hfinal, hrun.trans ?_⟩
    rw [hstep, SteadyFrom, and_assoc, forall_ok_iff hevent]

/-- **The heading paths of a well-nested stream match its graph exactly if the stream is
steady.** -/
theorem headingPathsMatch_walk_iff {text : String} {events : List (Event × ByteRange)}
    (hnested : WellNested events) (hwalk : walk s text events .new = .ok b) :
    HeadingPathsMatch b.candidates ↔ SteadyFrom s text [] .new events := by
  obtain ⟨home, homes, hhoused, hrun⟩ := Housed.new.run hnested hwalk
  -- every block is closed, so every slot is a candidate's
  have hframes : b.frames = [] := List.map_eq_nil_iff.mp hhoused.kinds
  have hslots : b.slots = b.candidates.map candidate_slot := by
    rw [Adapter.slots, hframes, List.filterMap_nil, List.append_nil]
  have hnames : b.names = b.candidates.map CandidateNode.provisional_id := by
    rw [Adapter.names, hframes, List.map_nil, List.append_nil]
  have hids := hhoused.named.distinct
  rw [hnames] at hids
  have hnamed : ∀ c ∈ b.candidates, ∃ n, c.provisional_id = provisional_id n := by
    intro c hc
    obtain ⟨n, -, hn⟩ := hhoused.named.older _ (hnames ▸ List.mem_map_of_mem hc)
    exact ⟨n, hn⟩
  have hlies : ∀ c ∈ b.candidates, Lies provisional_id b.candidates home c := by
    intro c hc
    rcases hhoused.placed (candidate_slot c) (hslots ▸ List.mem_map_of_mem hc) with
      ⟨hparent, hroot⟩ | ⟨p, hp, hparent, hkind, hpath, hearlier⟩ |
        ⟨slot, hslot, hparent, hkind, hpath, hearlier⟩
    · exact .at_root hparent hroot
    · exact .in_section p hp hparent hkind hpath hearlier
    · obtain ⟨p, hp, rfl⟩ := List.mem_map.mp (hslots ▸ hslot)
      exact .in_block p hp hparent hkind hpath hearlier
  have hinj : Function.Injective provisional_id := fun m n h => provisional_id_inj.mp h
  rw [headingPathsMatch_iff hinj hids hnamed hlies]
  refine hrun.trans (and_iff_right fun c hc => ?_)
  exact absurd hc List.not_mem_nil

end Steps

end Evidence.Corpus.Markdown
