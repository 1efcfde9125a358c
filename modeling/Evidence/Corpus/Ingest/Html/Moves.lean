/-
What the HTML walk does to the adapter state, step by step.

Whatever part of the tree is walked, the state changes by a few kinds of moves: a
candidate is emitted under the innermost section, under a table or under a row; a section or
a note frame is opened or closed; a text is absorbed; or nothing changes that a node
could show. `walk_moves` takes the walk apart into these once, and the invariants of the state are
proved move by move. Rows and cells are emitted only under tables and rows of the walk itself:
those whose number is at least `base`, the next one when the walk begins.
-/
import Mathlib.Logic.Relation
import Evidence.Corpus.Ingest.Html.Walk
import Evidence.Lib.Check

set_option autoImplicit false

namespace Evidence.Corpus.Html

open Check Relation

/-! ## Moves -/

/-- The states differ in nothing that a node could show. -/
structure Adapter.Quiet (a b : Adapter) : Prop where
  sections : b.sections = a.sections
  absorbers : b.absorbers = a.absorbers
  candidates : b.candidates = a.candidates
  ordinals : b.ordinals = a.ordinals
  next_provisional : b.next_provisional = a.next_provisional

theorem Adapter.Quiet.refl (a : Adapter) : a.Quiet a := ⟨rfl, rfl, rfl, rfl, rfl⟩

theorem Adapter.Quiet.trans {a b c : Adapter} (h : a.Quiet b) (h' : b.Quiet c) : a.Quiet c :=
  ⟨h'.sections.trans h.sections, h'.absorbers.trans h.absorbers,
    h'.candidates.trans h.candidates, h'.ordinals.trans h.ordinals,
    h'.next_provisional.trans h.next_provisional⟩

theorem Adapter.Quiet.section_path {a b : Adapter} (h : a.Quiet b) :
    b.section_path = a.section_path := by
  rw [Adapter.section_path, h.sections, Adapter.section_path]

/-- The state after an emission. -/
def Adapter.emitted (s : Setup) (parent : Option String) (path : List UInt32)
    (content : EmitContent) (a : Adapter) : Adapter :=
  { a with
    ordinals := Function.update a.ordinals parent (a.ordinals parent + 1)
    next_provisional := a.next_provisional + 1
    candidates := a.candidates ++
      [s.candidate (provisional_id a.next_provisional) parent (a.ordinals parent) path content] }

def Setup.note (s : Setup) (frame : AbsorbFrame) (text : String) : Candidate :=
  s.candidate frame.provisional frame.parent frame.ordinal frame.path
    { kind := .Note, label := none, canonical_text := text, fragment := none
      heading_path := frame.heading_path, sources := frame.text.sources }

/-- The `k`-th candidate is there, and of a kind. -/
def Adapter.Has (a : Adapter) (k : ℕ) (kind : SourceNodeKind) : Prop :=
  k < a.next_provisional ∧ ∃ c ∈ a.candidates, c.provisional_id = provisional_id k ∧ c.kind = kind

/-- The kinds of the nodes that stand under a section and open nothing. -/
def is_block (kind : SourceNodeKind) : Bool :=
  kind != .Section && kind != .TableRow && kind != .TableCell

/-- One step of the walk. -/
inductive Move (s : Setup) (base : ℕ) : Adapter → Adapter → Prop
  | quiet {a b : Adapter} (h : a.Quiet b) : Move s base a b
  | absorb {a : Adapter} {frame : AbsorbFrame} {rest : List AbsorbFrame} (text : Raw)
      (h : a.absorbers = frame :: rest) :
      Move s base a { a with absorbers := { frame with text := text } :: rest }
  | close_sections {a : Adapter} (level : ℕ) : Move s base a (a.close_sections level)
  | block {a : Adapter} (path : List UInt32) (content : EmitContent)
      (hroom : a.candidates.length < MAX_NODES) (hkind : is_block content.kind)
      (hpath : content.heading_path = a.section_path) :
      Move s base a (a.emitted s a.section_parent path content)
  | heading {a : Adapter} (level : ℕ) (path : List UInt32) (content : EmitContent)
      (hroom : a.candidates.length < MAX_NODES) (hkind : content.kind = .Section)
      (hpath : content.heading_path = a.section_path ++ content.label.toList) :
      Move s base a
        { a.emitted s a.section_parent path content with
          sections := ⟨level, provisional_id a.next_provisional, content.heading_path⟩ ::
            a.sections }
  | row {a : Adapter} (table : ℕ) (path : List UInt32) (content : EmitContent)
      (hroom : a.candidates.length < MAX_NODES) (hbase : base ≤ table)
      (htable : a.Has table .Table) (hkind : content.kind = .TableRow)
      (hpath : content.heading_path = a.section_path) :
      Move s base a (a.emitted s (some (provisional_id table)) path content)
  | cell {a : Adapter} (row : ℕ) (path : List UInt32) (content : EmitContent)
      (hroom : a.candidates.length < MAX_NODES) (hbase : base ≤ row)
      (hrow : a.Has row .TableRow) (hkind : content.kind = .TableCell)
      (hpath : content.heading_path = a.section_path) :
      Move s base a (a.emitted s (some (provisional_id row)) path content)
  | open_note {a : Adapter} (path : List UInt32) : Move s base a (open_note path a)
  | close_note {a : Adapter} {frame : AbsorbFrame} {rest : List AbsorbFrame} (text : String)
      (hroom : a.candidates.length < MAX_NODES) (h : a.absorbers = frame :: rest) :
      Move s base a
        { a with absorbers := rest, candidates := a.candidates ++ [s.note frame text] }

/-- Any number of moves. -/
abbrev Moves (s : Setup) (base : ℕ) : Adapter → Adapter → Prop := ReflTransGen (Move s base)

variable {s : Setup} {base : ℕ} {a b c : Adapter}

theorem Move.next_le (h : Move s base a b) : a.next_provisional ≤ b.next_provisional := by
  cases h with
  | quiet h => exact le_of_eq h.next_provisional.symm
  | absorb | close_sections | close_note => exact le_refl _
  | block | heading | row | cell | open_note => exact Nat.le_succ _

theorem Moves.next_le (h : Moves s base a b) : a.next_provisional ≤ b.next_provisional := by
  induction h with
  | refl => exact le_refl _
  | tail _ hmove ih => exact ih.trans hmove.next_le

theorem Move.candidates_prefix (h : Move s base a b) : a.candidates <+: b.candidates := by
  cases h with
  | quiet h => exact h.candidates ▸ List.prefix_refl _
  | absorb | close_sections | open_note => exact List.prefix_refl _
  | block | heading | row | cell | close_note => exact List.prefix_append _ _

theorem Moves.candidates_prefix (h : Moves s base a b) : a.candidates <+: b.candidates := by
  induction h with
  | refl => exact List.prefix_refl _
  | tail _ hmove ih => exact ih.trans hmove.candidates_prefix

theorem Adapter.Has.later {k : ℕ} {kind : SourceNodeKind} (h : a.Has k kind)
    (hmoves : Moves s base a b) : b.Has k kind := by
  obtain ⟨hlt, c, hc, hid, hkind⟩ := h
  exact ⟨hlt.trans_le hmoves.next_le, c, hmoves.candidates_prefix.subset hc, hid, hkind⟩

/-- The candidates have different ids. -/
theorem provisional_id_inj {m n : ℕ} : provisional_id m = provisional_id n ↔ m = n := by
  rw [provisional_id, provisional_id, String.append_right_inj, decimal_inj]

structure Placing (base low high : ℕ) (candidates : List Candidate) : Prop where
  rows : ∀ c ∈ candidates, c.kind = .TableRow →
    (∃ table, base ≤ table ∧ c.parent_id = some (provisional_id table)) ∧
      ∃ row, low ≤ row ∧ row < high ∧ c.provisional_id = provisional_id row
  cells : ∀ c ∈ candidates, c.kind = .TableCell →
    ∃ row, base ≤ row ∧ row < high ∧ c.parent_id = some (provisional_id row)

theorem Placing.nil (base low high : ℕ) : Placing base low high [] :=
  ⟨fun _ hc => absurd hc List.not_mem_nil, fun _ hc => absurd hc List.not_mem_nil⟩

theorem Placing.append {low mid high : ℕ} {old new : List Candidate} (hlow : low ≤ mid)
    (hhigh : mid ≤ high) (hold : Placing base low mid old) (hnew : Placing base mid high new) :
    Placing base low high (old ++ new) := by
  constructor
  · intro c hc hkind
    obtain hc | hc := List.mem_append.mp hc
    · obtain ⟨htable, row, hle, hlt, hid⟩ := hold.rows c hc hkind
      exact ⟨htable, row, hle, hlt.trans_le hhigh, hid⟩
    · obtain ⟨htable, row, hle, hlt, hid⟩ := hnew.rows c hc hkind
      exact ⟨htable, row, hlow.trans hle, hlt, hid⟩
  · intro c hc hkind
    obtain hc | hc := List.mem_append.mp hc
    · obtain ⟨row, hle, hlt, hid⟩ := hold.cells c hc hkind
      exact ⟨row, hle, hlt.trans_le hhigh, hid⟩
    · exact hnew.cells c hc hkind

theorem Placing.other {low high : ℕ} {c : Candidate} (hrow : c.kind ≠ .TableRow)
    (hcell : c.kind ≠ .TableCell) : Placing base low high [c] := by
  constructor
  · intro d hd hkind
    rw [List.mem_singleton.mp hd] at hkind
    exact absurd hkind hrow
  · intro d hd hkind
    rw [List.mem_singleton.mp hd] at hkind
    exact absurd hkind hcell

/-- **Where a move places what it emits.** -/
theorem Move.placing (h : Move s base a b) :
    ∃ new, b.candidates = a.candidates ++ new ∧
      Placing base a.next_provisional b.next_provisional new := by
  cases h with
  | quiet h => exact ⟨[], by rw [h.candidates, List.append_nil], .nil _ _ _⟩
  | absorb | close_sections | open_note => exact ⟨[], (List.append_nil _).symm, .nil _ _ _⟩
  | block path content hroom hkind hpath =>
    simp only [is_block, Bool.and_eq_true, bne_iff_ne] at hkind
    exact ⟨_, rfl, .other hkind.1.2 hkind.2⟩
  | heading level path content hroom hkind hpath =>
    refine ⟨_, rfl, .other ?_ ?_⟩
    · rw [show (s.candidate _ _ _ path content).kind = content.kind from rfl, hkind]
      decide
    · rw [show (s.candidate _ _ _ path content).kind = content.kind from rfl, hkind]
      decide
  | row table path content hroom hbase htable hkind hpath =>
    refine ⟨_, rfl, ?_, ?_⟩
    · intro c hc _
      rw [List.mem_singleton.mp hc]
      exact ⟨⟨table, hbase, rfl⟩, a.next_provisional, le_refl _, Nat.lt_succ_self _, rfl⟩
    · intro c hc hcell
      rw [List.mem_singleton.mp hc] at hcell
      exact absurd (hkind.symm.trans hcell) (by decide)
  | cell row path content hroom hbase hrow hkind hpath =>
    refine ⟨_, rfl, ?_, ?_⟩
    · intro c hc hrow
      rw [List.mem_singleton.mp hc] at hrow
      exact absurd (hkind.symm.trans hrow) (by decide)
    · intro c hc _
      rw [List.mem_singleton.mp hc]
      exact ⟨row, hbase, hrow.1.trans (Nat.lt_succ_self _), rfl⟩
  | close_note text hroom h =>
    refine ⟨_, rfl, .other ?_ ?_⟩
    · intro hkind
      cases hkind
    · intro hkind
      cases hkind

theorem Moves.placing (h : Moves s base a b) :
    ∃ new, b.candidates = a.candidates ++ new ∧
      Placing base a.next_provisional b.next_provisional new := by
  induction h with
  | refl => exact ⟨[], (List.append_nil _).symm, .nil _ _ _⟩
  | tail hmoves hmove ih =>
    obtain ⟨old, hold, hplaced⟩ := ih
    obtain ⟨new, hnew, hplacing⟩ := hmove.placing
    refine ⟨old ++ new, by rw [hnew, hold, List.append_assoc], ?_⟩
    exact hplaced.append (Moves.next_le hmoves) hmove.next_le hplacing

/-! ## Walks -/

/-- A frame without its text. -/
def AbsorbFrame.core (frame : AbsorbFrame) : AbsorbFrame := { frame with text := .empty }

/-- Moves that leave the open frames open, and no other. -/
structure Walked (s : Setup) (base : ℕ) (a b : Adapter) : Prop where
  moves : Moves s base a b
  frames : b.absorbers.map AbsorbFrame.core = a.absorbers.map AbsorbFrame.core

namespace Walked

theorem refl (a : Adapter) : Walked s base a a := ⟨.refl, rfl⟩

theorem trans (h : Walked s base a b) (h' : Walked s base b c) : Walked s base a c :=
  ⟨h.moves.trans h'.moves, h'.frames.trans h.frames⟩

theorem next_le (h : Walked s base a b) (hbase : base ≤ a.next_provisional) :
    base ≤ b.next_provisional := hbase.trans h.moves.next_le

theorem quiet (h : a.Quiet b) : Walked s base a b :=
  ⟨.single (.quiet h), by rw [h.absorbers]⟩

theorem single (h : Move s base a b) (hframes : b.absorbers = a.absorbers) : Walked s base a b :=
  ⟨.single h, by rw [hframes]⟩

end Walked

/-! ## Quiet operations -/

theorem diagnose_quiet (kind : HtmlIngestDiagnosticKind) (path : List UInt32) (detail : String)
    (el : Element) : a.Quiet (a.diagnose kind path detail el) := ⟨rfl, rfl, rfl, rfl, rfl⟩

theorem record_link_quiet (el : Element) (path : List UInt32) :
    a.Quiet (a.record_link el path) := by
  unfold Adapter.record_link
  split
  · exact .refl a
  · split
    · exact .refl a
    · exact ⟨rfl, rfl, rfl, rfl, rfl⟩

theorem diagnose_dropped_quiet (el : Element) (children : List Dom) (path : List UInt32) :
    a.Quiet (diagnose_dropped el children path a) := by
  unfold diagnose_dropped
  split
  · exact diagnose_quiet _ _ _ _
  · exact .refl a

theorem diagnose_table_child_quiet (el : Element) (children : List Dom) (path : List UInt32) :
    a.Quiet (diagnose_table_child el children path a) := by
  unfold diagnose_table_child
  split
  · exact diagnose_dropped_quiet _ _ _
  · exact diagnose_quiet _ _ _ _

variable [UnicodeTables] [StrDebug]

omit [UnicodeTables] [StrDebug] in
theorem collect_text_quiet (fold_blocks : Bool) (nodes : List Dom) :
    ∀ (path : List UInt32) (index : UInt32) (state : Adapter × Raw),
      state.1.Quiet (collect_text fold_blocks nodes path index state).1 := by
  induction nodes using Dom.children_induction with
  | nil =>
    intro path index state
    exact .refl _
  | text id text rest ih =>
    intro path index state
    rw [collect_text]
    exact ih _ _ (collect_node fold_blocks (.Text id text) (path ++ [index]) state)
  | other rest ih =>
    intro path index state
    rw [collect_text]
    exact ih _ _ (collect_node fold_blocks .Other (path ++ [index]) state)
  | element el children rest ihc ihr =>
    intro path index state
    rw [collect_text]
    refine Adapter.Quiet.trans ?_ (ihr _ _ _)
    rw [collect_node]
    cases inline_kind fold_blocks el.name with
    | Dropped => exact diagnose_dropped_quiet _ _ _
    | Break | Block => exact .refl _
    | Link =>
      exact (record_link_quiet el _).trans (ihc _ 0 (state.1.record_link el _, state.2))
    | Paragraph => exact ihc _ 0 (state.1, state.2.break_line)
    | Transparent => exact ihc _ 0 (state.1, state.2)
    | Unsupported => exact (diagnose_quiet _ _ _ _).trans (ihc _ 0 (state.1.diagnose .., state.2))

omit [UnicodeTables] [StrDebug] in
theorem collect_quiet (fold_blocks : Bool) (children : List Dom) (path : List UInt32)
    (a : Adapter) : a.Quiet (collect fold_blocks children path a).1 :=
  collect_text_quiet fold_blocks children path 0 (a, .empty)

omit [UnicodeTables] [StrDebug] in
theorem collect_group_quiet (is_header : Bool) (nodes : List Dom) (path : List UInt32) :
    ∀ (index : UInt32) (a : Adapter), a.Quiet (collect_group is_header nodes path index a).1 := by
  induction nodes using Dom.children_induction with
  | nil =>
    intro index a
    exact .refl _
  | text id text rest ih => exact fun index a => ih index a
  | other rest ih => exact fun index a => ih index a
  | element el children rest _ ih =>
    intro index a
    rw [collect_group]
    by_cases hname : el.name = "tr"
    · rw [if_pos hname]
      exact ih _ _
    · rw [if_neg hname]
      exact (diagnose_table_child_quiet _ _ _).trans (ih _ _)

omit [UnicodeTables] [StrDebug] in
theorem collect_rows_quiet (nodes : List Dom) (path : List UInt32) :
    ∀ (index : UInt32) (a : Adapter), a.Quiet (collect_rows nodes path index a).1 := by
  induction nodes using Dom.children_induction with
  | nil =>
    intro index a
    exact .refl _
  | text id text rest ih => exact fun index a => ih index a
  | other rest ih => exact fun index a => ih index a
  | element el children rest _ ih =>
    intro index a
    rw [collect_rows]
    cases row_group el.name with
    | Group is_header => exact (collect_group_quiet _ _ _ _ _).trans (ih _ _)
    | Row => exact ih _ _
    | Foreign => exact (diagnose_table_child_quiet _ _ _).trans (ih _ _)

omit [UnicodeTables] in
theorem heading_fragment_quiet (el : Element) (label_text : String) (path : List UInt32)
    [UnicodeTables] : a.Quiet (heading_fragment el label_text path a).2 := by
  unfold heading_fragment
  split
  · dsimp only
    split
    · exact diagnose_quiet _ _ _ _
    · exact ⟨rfl, rfl, rfl, rfl, rfl⟩
  · exact ⟨rfl, rfl, rfl, rfl, rfl⟩

/-! ## Emissions -/

omit [UnicodeTables] [StrDebug] in
/-- What an emission does. -/
theorem emit_ok {parent : Option String} {path : List UInt32} {content : EmitContent}
    {out : String × Adapter} (h : emit s parent path content a = .ok out) :
    a.candidates.length < MAX_NODES ∧
      out = (provisional_id a.next_provisional, a.emitted s parent path content) := by
  obtain ⟨b, hpush, hout⟩ := bind_ok_iff.mp h
  unfold Adapter.push_candidate at hpush
  split at hpush
  · cases hpush
  · split at hpush
    · cases hpush
    · rename_i hroom
      cases hpush
      cases hout
      exact ⟨Nat.lt_of_not_le hroom, rfl⟩

omit [UnicodeTables] [StrDebug] in
theorem emitted_has (parent : Option String) (path : List UInt32) (content : EmitContent) :
    (a.emitted s parent path content).Has a.next_provisional content.kind :=
  ⟨Nat.lt_succ_self _, _, List.mem_append_right _ (List.mem_singleton.mpr rfl), rfl, rfl⟩

omit [UnicodeTables] [StrDebug] in
theorem emit_leaf_ok {kind : SourceNodeKind} {label : Option String} {text : String}
    {sources : List ℕ} {path : List UInt32} (hkind : is_block kind)
    (h : emit_leaf s kind label text sources path a = .ok b) : Walked s base a b := by
  obtain ⟨out, hemit, hout⟩ := bind_ok_iff.mp h
  obtain ⟨hroom, rfl⟩ := emit_ok hemit
  cases hout
  exact .single (.block path _ hroom hkind rfl) rfl

omit [StrDebug] in
theorem absorb_or_emit_ok {raw : Raw} {path : List UInt32}
    (h : absorb_or_emit s raw path a = .ok b) : Walked s base a b := by
  unfold absorb_or_emit at h
  split at h
  · cases h
    exact .refl a
  · split at h
    · rename_i frame rest habs
      cases h
      refine ⟨.single (.absorb _ habs), ?_⟩
      rw [habs]
      rfl
    · exact emit_leaf_ok rfl h

omit [StrDebug] in
theorem paragraph_ok {children : List Dom} {path : List UInt32}
    (h : paragraph s children path a = .ok b) : Walked s base a b :=
  (Walked.quiet (collect_quiet false children path a)).trans (absorb_or_emit_ok h)

omit [StrDebug] in
theorem code_block_ok {children : List Dom} {path : List UInt32}
    (h : code_block s children path a = .ok b) : Walked s base a b :=
  (Walked.quiet (collect_quiet false children path a)).trans (emit_leaf_ok rfl h)

omit [StrDebug] in
theorem figure_caption_ok {children : List Dom} {path : List UInt32}
    (h : figure_caption s children path a = .ok b) : Walked s base a b :=
  (Walked.quiet (collect_quiet true children path a)).trans (emit_leaf_ok rfl h)

omit [StrDebug] in
theorem list_item_node_ok {children : List Dom} {path : List UInt32}
    (h : list_item_node s children path a = .ok b) : Walked s base a b :=
  (Walked.quiet (collect_quiet false children path a)).trans (emit_leaf_ok rfl h)

omit [StrDebug] in
theorem definition_node_ok {is_term : Bool} {children : List Dom} {path : List UInt32}
    (h : definition_node s is_term children path a = .ok b) : Walked s base a b := by
  refine (Walked.quiet (collect_quiet false children path a)).trans (emit_leaf_ok ?_ h)
  cases is_term <;> rfl

/-- A heading closes sections, and opens its own. -/
theorem heading_ok {el : Element} {level : ℕ} {children : List Dom} {path : List UInt32}
    (h : heading s el level children path a = .ok b) : Walked s base a b := by
  rw [heading] at h
  have hclose : Walked s base a (a.close_sections level) := .single (.close_sections level) rfl
  have hcollect := collect_quiet false children path (a.close_sections level)
  generalize collect false children path (a.close_sections level) = collected at h hcollect
  dsimp only at h
  have hfragment :=
    heading_fragment_quiet (a := collected.1) el (normalize_prose collected.2.text) path
  generalize heading_fragment el (normalize_prose collected.2.text) path collected.1 = found
    at h hfragment
  obtain ⟨out, hemit, hout⟩ := bind_ok_iff.mp h
  obtain ⟨hroom, rfl⟩ := emit_ok hemit
  cases hout
  refine ((hclose.trans (.quiet hcollect)).trans (.quiet hfragment)).trans ?_
  generalize hlabel : (if (normalize_prose collected.2.text).isEmpty then none
    else some (normalize_prose collected.2.text)) = label at hroom
  have hmove : Move s base found.2 _ := .heading level path
    { kind := .Section, label := label, canonical_text := label.getD "", fragment := some found.1
      heading_path := found.2.section_path ++ label.toList, sources := collected.2.sources }
    hroom rfl rfl
  exact .single hmove rfl

/-! ## Tables -/

omit [UnicodeTables] [StrDebug] in
theorem table_node_ok {path : List UInt32} {out : String × Adapter}
    (h : table_node s path a = .ok out) :
    Walked s base a out.2 ∧ out.1 = provisional_id a.next_provisional ∧
      out.2.Has a.next_provisional .Table := by
  obtain ⟨hroom, rfl⟩ := emit_ok h
  exact ⟨.single (.block path _ hroom rfl rfl) rfl, rfl, emitted_has _ _ _⟩

omit [UnicodeTables] [StrDebug] in
theorem row_node_counted {table : String} {row_path : List UInt32} {is_header : Bool}
    {out : String × Adapter} (h : row_node s table row_path is_header a = .ok out) :
    ∃ (counted : Adapter) (label : Option String), a.Quiet counted ∧
      emit s (some table) row_path
        { kind := .TableRow, label := label, canonical_text := "", fragment := none
          heading_path := counted.section_path, sources := [] } counted = .ok out := by
  refine ⟨if is_header then { a with header_rows := a.header_rows + 1 } else a, _, ?_, h⟩
  split
  · exact ⟨rfl, rfl, rfl, rfl, rfl⟩
  · exact .refl a

omit [UnicodeTables] [StrDebug] in
theorem row_node_ok {table : ℕ} {row_path : List UInt32} {is_header : Bool}
    {out : String × Adapter} (hbase : base ≤ table) (htable : a.Has table .Table)
    (h : row_node s (provisional_id table) row_path is_header a = .ok out) :
    Walked s base a out.2 ∧ out.1 = provisional_id a.next_provisional ∧
      out.2.Has a.next_provisional .TableRow := by
  obtain ⟨counted, label, hcount, hemit⟩ := row_node_counted h
  obtain ⟨hroom, rfl⟩ := emit_ok hemit
  have hcounted : Walked s base a counted := .quiet hcount
  rw [← hcount.next_provisional]
  refine ⟨hcounted.trans (.single (.row table row_path _ hroom hbase ?_ rfl rfl) rfl), rfl,
    emitted_has _ _ _⟩
  exact htable.later hcounted.moves

omit [UnicodeTables] [StrDebug] in
theorem emit_cell_ok {row : ℕ} {text : String} {sources : List ℕ} {path : List UInt32}
    (hbase : base ≤ row) (hrow : a.Has row .TableRow)
    (h : emit_cell s (provisional_id row) text sources path a = .ok b) : Walked s base a b := by
  obtain ⟨out, hemit, hout⟩ := bind_ok_iff.mp h
  obtain ⟨hroom, rfl⟩ := emit_ok hemit
  cases hout
  exact .single (.cell row path _ hroom hbase hrow rfl rfl) rfl

omit [UnicodeTables] [StrDebug] in
theorem emit_blank_cells_ok {row : ℕ} {path : List UInt32} {n : ℕ} (hbase : base ≤ row)
    (hrow : a.Has row .TableRow) (h : emit_blank_cells s (provisional_id row) path n a = .ok b) :
    Walked s base a b := by
  induction n generalizing a with
  | zero =>
    cases h
    exact .refl _
  | succ n ih =>
    rw [emit_blank_cells] at h
    obtain ⟨c, hcell, hrest⟩ := bind_ok_iff.mp h
    have hfirst := emit_cell_ok hbase hrow hcell
    exact hfirst.trans (ih (hrow.later hfirst.moves) hrest)

omit [UnicodeTables] [StrDebug] in
theorem placeholders_ok {σ : Type} {row : ℕ} (path : List UInt32)
    {step : σ × Adapter → ℕ × ℕ → Except HtmlIngestError (σ × Adapter)}
    (hstep : ∀ state entry out, step state entry = .ok out →
      emit_cell s (provisional_id row) "" [] path state.2 = .ok out.2) (hbase : base ≤ row)
    {entries : List (ℕ × ℕ)} {state out : σ × Adapter} (hrow : state.2.Has row .TableRow)
    (h : entries.foldlM step state = .ok out) : Walked s base state.2 out.2 := by
  induction entries generalizing state with
  | nil =>
    cases h
    exact .refl _
  | cons entry entries ih =>
    rw [List.foldlM_cons] at h
    obtain ⟨next, hnext, hrest⟩ := bind_ok_iff.mp h
    have hfirst := emit_cell_ok hbase hrow (hstep _ _ _ hnext)
    exact hfirst.trans (ih (hrow.later hfirst.moves) hrest)

omit [UnicodeTables] [StrDebug] in
theorem pass_columns_ok {id : ℕ} {row_path : List UInt32} {row : RowState}
    {out : RowState × Adapter} (hbase : base ≤ id) (hrow : a.Has id .TableRow)
    (h : pass_columns s (provisional_id id) row_path row a = .ok out) : Walked s base a out.2 := by
  refine placeholders_ok row_path ?_ hbase hrow h
  intro state entry next hnext
  obtain ⟨c, hcell, hout⟩ := bind_ok_iff.mp hnext
  cases hout
  exact hcell

omit [StrDebug] in
theorem cell_nodes_ok {id : ℕ} {row_path : List UInt32} {el : Element} {children : List Dom}
    {cell_path : List UInt32} {row : RowState} {out : RowState × Adapter} (hbase : base ≤ id)
    (hrow : a.Has id .TableRow)
    (h : cell_nodes s (provisional_id id) row_path el children cell_path row a = .ok out) :
    Walked s base a out.2 := by
  obtain ⟨passed, hpass, h⟩ := bind_ok_iff.mp h
  have hpassed := (pass_columns_ok hbase hrow hpass).trans
    (.quiet (collect_quiet false children cell_path passed.2))
  obtain ⟨origin, horigin, h⟩ := bind_ok_iff.mp h
  have horigin := hpassed.trans (emit_cell_ok hbase (hrow.later hpassed.moves) horigin)
  obtain ⟨blank, hblank, hout⟩ := bind_ok_iff.mp h
  cases hout
  exact horigin.trans (emit_blank_cells_ok hbase (hrow.later horigin.moves) hblank)

omit [UnicodeTables] [StrDebug] in
theorem finish_row_ok {id : ℕ} {row_path : List UInt32} {row : RowState}
    {out : Covered × Adapter} (hbase : base ≤ id) (hrow : a.Has id .TableRow)
    (h : finish_row s (provisional_id id) row_path row a = .ok out) : Walked s base a out.2 := by
  obtain ⟨left, hleft, hout⟩ := bind_ok_iff.mp h
  cases hout
  refine (placeholders_ok row_path ?_ hbase hrow hleft :)
  intro state entry next hnext
  obtain ⟨c, hcell, hout⟩ := bind_ok_iff.mp hnext
  cases hout
  exact hcell

/-! ## The walk -/

structure Walks (s : Setup) (nodes : List Dom) : Prop where
  children : ∀ path index stray a b base, base ≤ a.next_provisional →
    walk_children s nodes path index stray a = .ok b → Walked s base a b
  nested : ∀ path index a b base, base ≤ a.next_provisional →
    walk_nested_blocks s nodes path index a = .ok b → Walked s base a b
  rows : ∀ table path index pending a out base, base ≤ a.next_provisional → base ≤ table →
    a.Has table .Table →
    table_rows s (provisional_id table) nodes path index pending a = .ok out →
    Walked s base a out.2
  group : ∀ table is_header path index pending a out base, base ≤ a.next_provisional →
    base ≤ table → a.Has table .Table →
    group_rows s (provisional_id table) is_header nodes path index pending a = .ok out →
    Walked s base a out.2
  cells : ∀ row_id row_path index row a out base, base ≤ a.next_provisional → base ≤ row_id →
    a.Has row_id .TableRow →
    row_cells s (provisional_id row_id) row_path nodes index row a = .ok out →
    Walked s base a out.2

namespace Walks

variable {children : List Dom}

theorem note {path : List UInt32} (hwalks : Walks s children) (hbase : base ≤ a.next_provisional)
    (hwalk : walk_children s children path 0 .empty (open_note path a) = .ok b)
    (hclose : close_note s b = .ok c) : Walked s base a c := by
  have hopen : Moves s base a (open_note path a) := .single (.open_note path)
  have hinner := hwalks.children _ _ _ _ _ base (hbase.trans hopen.next_le) hwalk
  have hframes := hinner.frames
  rw [show (open_note path a).absorbers = _ :: a.absorbers from rfl, List.map_cons,
    List.map_eq_cons_iff] at hframes
  obtain ⟨frame, rest, habs, -, hrest⟩ := hframes
  rw [close_note, habs] at hclose
  dsimp only [emit_closed_note, Adapter.push_candidate] at hclose
  split at hclose
  · cases hclose
  · split at hclose
    · cases hclose
    · rename_i hroom
      cases hclose
      refine ⟨(hopen.trans hinner.moves).tail ?_, hrest⟩
      exact .close_note _ (Nat.lt_of_not_le hroom) habs

theorem element {el : Element} {path : List UInt32} (hwalks : Walks s children)
    (hbase : base ≤ a.next_provisional)
    (h : walk_element s (.Element el children) path a = .ok b) : Walked s base a b := by
  rw [walk_element] at h
  cases hkind : s.block_kind el with
  | Excluded selector =>
    simp only [hkind] at h
    cases h
    exact .quiet (diagnose_quiet _ _ _ _)
  | Dropped =>
    simp only [hkind] at h
    cases h
    exact .quiet (diagnose_dropped_quiet _ _ _)
  | Heading level =>
    simp only [hkind] at h
    exact heading_ok h
  | Paragraph =>
    simp only [hkind] at h
    exact paragraph_ok h
  | Transparent =>
    simp only [hkind] at h
    exact hwalks.children _ _ _ _ _ _ hbase h
  | ListItem =>
    simp only [hkind] at h
    obtain ⟨c, hitem, hnested⟩ := bind_ok_iff.mp h
    have hwalked : Walked s base a c := list_item_node_ok hitem
    exact hwalked.trans (hwalks.nested _ _ _ _ _ (hwalked.next_le hbase) hnested)
  | Definition is_term =>
    simp only [hkind] at h
    obtain ⟨c, hitem, hnested⟩ := bind_ok_iff.mp h
    have hwalked : Walked s base a c := definition_node_ok hitem
    exact hwalked.trans (hwalks.nested _ _ _ _ _ (hwalked.next_le hbase) hnested)
  | Table =>
    simp only [hkind] at h
    obtain ⟨⟨table, c⟩, htable, h⟩ := bind_ok_iff.mp h
    obtain ⟨hnode, rfl, hhas⟩ := table_node_ok htable
    obtain ⟨rows, hrows, hout⟩ := bind_ok_iff.mp h
    rw [← Except.ok.inj hout]
    have hcollect : Walked s base c (collect_rows children path 0 c).1 :=
      .quiet (collect_rows_quiet children path 0 c)
    have hstart := hnode.trans hcollect
    exact hstart.trans (hwalks.rows _ _ _ _ _ _ _ (hstart.next_le hbase) hbase
      (hhas.later hcollect.moves) hrows)
  | CodeBlock =>
    simp only [hkind] at h
    exact code_block_ok h
  | Note =>
    simp only [hkind] at h
    obtain ⟨c, hwalk, hclose⟩ := bind_ok_iff.mp h
    exact hwalks.note hbase hwalk hclose
  | FigureCaption =>
    simp only [hkind] at h
    exact figure_caption_ok h
  | SkippedSubtree =>
    simp only [hkind] at h
    cases h
    exact .quiet (diagnose_quiet _ _ _ _)
  | Unsupported =>
    simp only [hkind] at h
    have hquiet := diagnose_quiet (a := a) (.UnsupportedElement el.name) path
      ("element <" ++ el.name ++ "> is not represented; its children are retained") el
    exact (Walked.quiet hquiet).trans (hwalks.children _ _ _ _ _ _ hbase h)

theorem table_row {el : Element} {table : ℕ} {is_header : Bool} {path : List UInt32}
    {pending : Covered} {out : Covered × Adapter} (hwalks : Walks s children)
    (hbase : base ≤ a.next_provisional) (htable : base ≤ table) (hhas : a.Has table .Table)
    (h : table_row s (provisional_id table) is_header (.Element el children) path pending a =
      .ok out) : Walked s base a out.2 := by
  rw [Html.table_row] at h
  obtain ⟨⟨row_id, c⟩, hrow, hcells⟩ := bind_ok_iff.mp h
  obtain ⟨hnode, rfl, hrow⟩ := row_node_ok htable hhas hrow
  exact hnode.trans (hwalks.cells _ _ _ _ _ _ _ (hnode.next_le hbase) hbase hrow hcells)

theorem row_cell {el : Element} {id : ℕ} {row_path cell_path : List UInt32} {row : RowState}
    {out : RowState × Adapter} (hwalks : Walks s children) (hbase : base ≤ a.next_provisional)
    (hid : base ≤ id) (hhas : a.Has id .TableRow)
    (h : row_cell s (provisional_id id) row_path (.Element el children) cell_path row a = .ok out) :
    Walked s base a out.2 := by
  rw [Html.row_cell] at h
  obtain ⟨cell, hcell, h⟩ := bind_ok_iff.mp h
  obtain ⟨c, hnested, hout⟩ := bind_ok_iff.mp h
  cases hout
  have hnodes := cell_nodes_ok hid hhas hcell
  exact hnodes.trans (hwalks.nested _ _ _ _ _ (hnodes.next_le hbase) hnested)

end Walks

theorem walk_nested_blocks_element {el : Element} {children rest : List Dom} {path : List UInt32}
    {index : UInt32} :
    walk_nested_blocks s (.Element el children :: rest) path index a =
      (if s.is_nested_block el then walk_element s (.Element el children) (path ++ [index]) a
        else .ok a) >>= walk_nested_blocks s rest path (index + 1) := by
  rw [walk_nested_blocks]
  split
  · rfl
  · rfl

theorem table_rows_element {table : String} {el : Element} {children rest : List Dom}
    {path : List UInt32} {index : UInt32} {pending : Covered} :
    table_rows s table (.Element el children :: rest) path index pending a =
      (match row_group el.name with
        | .Group is_header => group_rows s table is_header children (path ++ [index]) 0 pending a
        | .Row => table_row s table false (.Element el children) (path ++ [index]) pending a
        | .Foreign => .ok (pending, a)) >>=
        fun out => table_rows s table rest path (index + 1) out.1 out.2 := by
  rw [table_rows]
  cases row_group el.name with
  | Group is_header => rfl
  | Row => rfl
  | Foreign => rfl

theorem group_rows_element {table : String} {is_header : Bool} {el : Element}
    {children rest : List Dom} {path : List UInt32} {index : UInt32} {pending : Covered} :
    group_rows s table is_header (.Element el children :: rest) path index pending a =
      (if el.name = "tr" then
          table_row s table is_header (.Element el children) (path ++ [index]) pending a
        else .ok (pending, a)) >>=
        fun out => group_rows s table is_header rest path (index + 1) out.1 out.2 := by
  rw [group_rows]
  split
  · rfl
  · rfl

/-- **The walk is a run of moves**, whatever it walks. -/
theorem walks (s : Setup) (nodes : List Dom) : Walks s nodes := by
  induction nodes using Dom.children_induction with
  | nil =>
    refine ⟨?_, ?_, ?_, ?_, ?_⟩
    · intro path index stray a b base hbase h
      exact absorb_or_emit_ok h
    · intro path index a b base hbase h
      cases h
      exact .refl a
    · intro table path index pending a out base hbase htable hhas h
      cases h
      exact .refl a
    · intro table is_header path index pending a out base hbase htable hhas h
      cases h
      exact .refl a
    · intro row_id row_path index row a out base hbase hid hhas h
      exact finish_row_ok hid hhas h
  | text id text rest ih =>
    exact ⟨fun path index stray => ih.children path index _, ih.nested, ih.rows, ih.group, ih.cells⟩
  | other rest ih => exact ⟨ih.children, ih.nested, ih.rows, ih.group, ih.cells⟩
  | element el children rest ihc ihr =>
    refine ⟨?_, ?_, ?_, ?_, ?_⟩
    · intro path index stray a b base hbase h
      rw [walk_children] at h
      by_cases hinline : is_inline el.name
      · rw [if_pos hinline] at h
        have hcollect : Walked s base a _ :=
          .quiet (collect_text_quiet true children (path ++ [index]) 0 (a, stray))
        exact hcollect.trans (ihr.children _ _ _ _ _ _ (hcollect.next_le hbase) h)
      · rw [if_neg hinline] at h
        obtain ⟨c, hflush, h⟩ := bind_ok_iff.mp h
        obtain ⟨d, helement, hrest⟩ := bind_ok_iff.mp h
        have hflushed : Walked s base a c := absorb_or_emit_ok hflush
        have hwalked := hflushed.trans (ihc.element (hflushed.next_le hbase) helement)
        exact hwalked.trans (ihr.children _ _ _ _ _ _ (hwalked.next_le hbase) hrest)
    · intro path index a b base hbase h
      rw [walk_nested_blocks_element] at h
      obtain ⟨c, hblock, hrest⟩ := bind_ok_iff.mp h
      have hwalked : Walked s base a c := by
        by_cases hnested : s.is_nested_block el
        · rw [if_pos hnested] at hblock
          exact ihc.element hbase hblock
        · rw [if_neg hnested] at hblock
          cases hblock
          exact .refl a
      exact hwalked.trans (ihr.nested _ _ _ _ _ (hwalked.next_le hbase) hrest)
    · intro table path index pending a out base hbase htable hhas h
      rw [table_rows_element] at h
      obtain ⟨⟨pending', c⟩, hgroup, hrest⟩ := bind_ok_iff.mp h
      have hwalked : Walked s base a c := by
        cases hkind : row_group el.name with
        | Group is_header =>
          simp only [hkind] at hgroup
          exact ihc.group _ _ _ _ _ _ _ _ hbase htable hhas hgroup
        | Row =>
          simp only [hkind] at hgroup
          exact ihc.table_row hbase htable hhas hgroup
        | Foreign =>
          simp only [hkind] at hgroup
          cases hgroup
          exact .refl a
      exact hwalked.trans (ihr.rows _ _ _ _ _ _ _ (hwalked.next_le hbase) htable
        (hhas.later hwalked.moves) hrest)
    · intro table is_header path index pending a out base hbase htable hhas h
      rw [group_rows_element] at h
      obtain ⟨⟨pending', c⟩, hrow, hrest⟩ := bind_ok_iff.mp h
      have hwalked : Walked s base a c := by
        by_cases hname : el.name = "tr"
        · rw [if_pos hname] at hrow
          exact ihc.table_row hbase htable hhas hrow
        · rw [if_neg hname] at hrow
          cases hrow
          exact .refl a
      exact hwalked.trans (ihr.group _ _ _ _ _ _ _ _ (hwalked.next_le hbase) htable
        (hhas.later hwalked.moves) hrest)
    · intro row_id row_path index row a out base hbase hid hhas h
      rw [row_cells] at h
      by_cases hcell : is_cell el
      · rw [if_pos hcell] at h
        obtain ⟨⟨row', c⟩, hcell, hrest⟩ := bind_ok_iff.mp h
        have hwalked := ihc.row_cell hbase hid hhas hcell
        exact hwalked.trans (ihr.cells _ _ _ _ _ _ _ (hwalked.next_le hbase) hid
          (hhas.later hwalked.moves) hrest)
      · rw [if_neg hcell] at h
        exact ihr.cells _ _ _ _ _ _ _ hbase hid hhas h

end Evidence.Corpus.Html
