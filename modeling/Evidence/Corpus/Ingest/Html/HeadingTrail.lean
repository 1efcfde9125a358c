/-
The heading paths of the HTML adapter, against the sections above its nodes.

All nodes take the path of the open section when they are emitted, and all but rows and cells are
put under that section at the same time, or when their note is opened. A row stands under its
table and a cell under its row, while the nested blocks of the cells before may have opened and
closed sections. A walk is steady if every row and every cell finds the path of its table's place
again (`SteadyChildren`), and this is followed along the walk, with the invariants that its moves
keep.
-/
import Evidence.Corpus.Ingest.HeadingPath
import Evidence.Corpus.Ingest.Html.Forest

set_option autoImplicit false

namespace Evidence.Corpus.Html

open Check Relation

/-! ## Steady walks -/

section Steady

variable [UnicodeTables] [StrDebug]

mutual

/-- **The walk of a container's children is steady**: whenever a row or a cell is emitted, the open
section has the path that it had at the table. -/
def SteadyChildren (s : Setup) (nodes : List Dom) (path : List UInt32) (index : UInt32)
    (stray : Raw) (a : Adapter) : Prop :=
  match nodes with
  | [] => True
  | .Text id text :: rest => SteadyChildren s rest path index (stray.push_text id text) a
  | .Other :: rest => SteadyChildren s rest path index stray a
  | .Element el children :: rest =>
    if is_inline el.name then
      let (a, stray) := collect_text true children (path ++ [index]) 0 (a, stray)
      SteadyChildren s rest path (index + 1) stray a
    else
      ∀ b, flush_stray s stray path a = .ok b →
        SteadyElement s (.Element el children) (path ++ [index]) b ∧
          ∀ c, walk_element s (.Element el children) (path ++ [index]) b = .ok c →
            SteadyChildren s rest path (index + 1) .empty c
termination_by structural nodes

/-- The walk of one block element. -/
def SteadyElement (s : Setup) (node : Dom) (path : List UInt32) (a : Adapter) : Prop :=
  match node with
  | .Text _ _ => True
  | .Other => True
  | .Element el children =>
    match s.block_kind el with
    | .Transparent => SteadyChildren s children path 0 .empty a
    | .ListItem => ∀ b, list_item_node s children path a = .ok b → SteadyNested s children path 0 b
    | .Definition is_term =>
      ∀ b, definition_node s is_term children path a = .ok b → SteadyNested s children path 0 b
    | .Table =>
      ∀ out, table_node s path a = .ok out →
        SteadyRows s a.section_path out.1 children path 0 Store.empty
          (collect_rows children path 0 out.2).1
    | .Note => SteadyChildren s children path 0 .empty (open_note path a)
    | .Unsupported =>
      SteadyChildren s children path 0 .empty
        (a.diagnose (.UnsupportedElement el.name) path
          ("element <" ++ el.name ++ "> is not represented; its children are retained") el)
    | .Excluded _ | .Dropped | .Heading _ | .Paragraph | .CodeBlock | .FigureCaption
    | .SkippedSubtree => True
termination_by structural node

/-- The walk of the nested blocks of a container. -/
def SteadyNested (s : Setup) (nodes : List Dom) (path : List UInt32) (index : UInt32)
    (a : Adapter) : Prop :=
  match nodes with
  | [] => True
  | .Text _ _ :: rest => SteadyNested s rest path index a
  | .Other :: rest => SteadyNested s rest path index a
  | .Element el children :: rest =>
    if s.is_nested_block el then
      SteadyElement s (.Element el children) (path ++ [index]) a ∧
        ∀ b, walk_element s (.Element el children) (path ++ [index]) a = .ok b →
          SteadyNested s rest path (index + 1) b
    else SteadyNested s rest path (index + 1) a
termination_by structural nodes

def SteadyRows (s : Setup) (home : List String) (table : String) (nodes : List Dom)
    (path : List UInt32) (index : UInt32) (pending : Covered) (a : Adapter) : Prop :=
  match nodes with
  | [] => True
  | .Text _ _ :: rest => SteadyRows s home table rest path index pending a
  | .Other :: rest => SteadyRows s home table rest path index pending a
  | .Element el children :: rest =>
    match row_group el.name with
    | .Group is_header =>
      SteadyGroup s home table is_header (.Element el children) (path ++ [index]) pending a ∧
        ∀ out, table_group s table is_header (.Element el children) (path ++ [index]) pending a =
          .ok out → SteadyRows s home table rest path (index + 1) out.1 out.2
    | .Row =>
      SteadyRow s home table false (.Element el children) (path ++ [index]) pending a ∧
        ∀ out, table_row s table false (.Element el children) (path ++ [index]) pending a =
          .ok out → SteadyRows s home table rest path (index + 1) out.1 out.2
    | .Foreign => SteadyRows s home table rest path (index + 1) pending a
termination_by structural nodes

/-- The rows of a row group. -/
def SteadyGroup (s : Setup) (home : List String) (table : String) (is_header : Bool) (group : Dom)
    (path : List UInt32) (pending : Covered) (a : Adapter) : Prop :=
  match group with
  | .Text _ _ => True
  | .Other => True
  | .Element _ children => SteadyGroupRows s home table is_header children path 0 pending a
termination_by structural group

def SteadyGroupRows (s : Setup) (home : List String) (table : String) (is_header : Bool)
    (nodes : List Dom) (path : List UInt32) (index : UInt32) (pending : Covered) (a : Adapter) :
    Prop :=
  match nodes with
  | [] => True
  | .Text _ _ :: rest => SteadyGroupRows s home table is_header rest path index pending a
  | .Other :: rest => SteadyGroupRows s home table is_header rest path index pending a
  | .Element el children :: rest =>
    if el.name = "tr" then
      SteadyRow s home table is_header (.Element el children) (path ++ [index]) pending a ∧
        ∀ out, table_row s table is_header (.Element el children) (path ++ [index]) pending a =
          .ok out → SteadyGroupRows s home table is_header rest path (index + 1) out.1 out.2
    else SteadyGroupRows s home table is_header rest path (index + 1) pending a
termination_by structural nodes

def SteadyRow (s : Setup) (home : List String) (table : String) (is_header : Bool) (row : Dom)
    (row_path : List UInt32) (pending : Covered) (a : Adapter) : Prop :=
  match row with
  | .Text _ _ => True
  | .Other => True
  | .Element _ children =>
    a.section_path = home ∧ ∀ out, row_node s table row_path is_header a = .ok out →
      SteadyCells s home out.1 row_path children 0 (.start pending) out.2
termination_by structural row

/-- The cells of a row, and the placeholders at its end. -/
def SteadyCells (s : Setup) (home : List String) (row_id : String) (row_path : List UInt32)
    (nodes : List Dom) (index : UInt32) (row : RowState) (a : Adapter) : Prop :=
  match nodes with
  | [] => row.ahead ≠ [] → a.section_path = home
  | .Text _ _ :: rest => SteadyCells s home row_id row_path rest index row a
  | .Other :: rest => SteadyCells s home row_id row_path rest index row a
  | .Element el children :: rest =>
    if is_cell el then
      SteadyCell s home row_id row_path (.Element el children) (row_path ++ [index]) row a ∧
        ∀ out, row_cell s row_id row_path (.Element el children) (row_path ++ [index]) row a =
          .ok out → SteadyCells s home row_id row_path rest (index + 1) out.1 out.2
    else SteadyCells s home row_id row_path rest index row a
termination_by structural nodes

/-- One cell, and its nested blocks. -/
def SteadyCell (s : Setup) (home : List String) (row_id : String) (row_path : List UInt32)
    (cell : Dom) (cell_path : List UInt32) (row : RowState) (a : Adapter) : Prop :=
  match cell with
  | .Text _ _ => True
  | .Other => True
  | .Element el children =>
    a.section_path = home ∧ ∀ out,
      cell_nodes s row_id row_path el children cell_path row a = .ok out →
        SteadyNested s children cell_path 0 out.2
termination_by structural cell

end

end Steady

/-! ## The paths of blocks -/

/-- A place under a section or at the root, and its path. -/
def Adapter.Under (a : Adapter) (parent : Option String) (path : List String) : Prop :=
  (parent = none ∧ path = []) ∨
  ∃ p ∈ a.candidates, parent = some p.provisional_id ∧ p.kind = .Section ∧ p.heading_path = path

/-- **What every state of a walk keeps**: the open sections and notes know their paths, and all
nodes but rows and cells have the path of their place. -/
structure Trailed (a : Adapter) : Prop where
  sections : ∀ entry ∈ a.sections, a.Under (some entry.provisional) entry.path
  frames : ∀ frame ∈ a.absorbers, a.Under frame.parent frame.heading_path
  blocks : ∀ c ∈ a.candidates, c.kind ≠ .TableRow → c.kind ≠ .TableCell →
    ∃ path, a.Under c.parent_id path ∧ c.heading_path = path ++ c.section_label

section Moves

variable {s : Setup} {base : ℕ} {a b c : Adapter} {parent : Option String} {path : List String}

theorem Adapter.Under.later (h : a.Under parent path) (hkept : a.candidates ⊆ b.candidates) :
    b.Under parent path := by
  rcases h with hroot | ⟨p, hp, hsection⟩
  · exact .inl hroot
  · exact .inr ⟨p, hkept hp, hsection⟩

theorem Trailed.section_under (h : Trailed a) : a.Under a.section_parent a.section_path := by
  rw [Adapter.section_parent, Adapter.section_path]
  cases hsections : a.sections with
  | nil => exact .inl ⟨rfl, rfl⟩
  | cons entry rest => exact h.sections entry (hsections ▸ List.mem_cons_self)

theorem Trailed.add (h : Trailed a) (new : List Candidate)
    (hcandidates : b.candidates = a.candidates ++ new)
    (hsections : ∀ entry ∈ b.sections, b.Under (some entry.provisional) entry.path)
    (hframes : ∀ frame ∈ b.absorbers, b.Under frame.parent frame.heading_path)
    (hnew : ∀ c ∈ new, c.kind ≠ .TableRow → c.kind ≠ .TableCell →
      ∃ path, a.Under c.parent_id path ∧ c.heading_path = path ++ c.section_label) :
    Trailed b := by
  have hkept : a.candidates ⊆ b.candidates := by
    rw [hcandidates]
    exact List.subset_append_left _ _
  refine ⟨hsections, hframes, fun c hc hrow hcell => ?_⟩
  have hplace : ∃ path, a.Under c.parent_id path ∧ c.heading_path = path ++ c.section_label := by
    rcases List.mem_append.mp (hcandidates ▸ hc) with hold | hnew_mem
    · exact h.blocks c hold hrow hcell
    · exact hnew c hnew_mem hrow hcell
  obtain ⟨path, hunder, hpath⟩ := hplace
  exact ⟨path, hunder.later hkept, hpath⟩

/-- An emission leaves the stacks as they are. -/
theorem Trailed.emitted (h : Trailed a) {dom_path : List UInt32} {content : EmitContent}
    (hnew : content.kind ≠ .TableRow → content.kind ≠ .TableCell →
      parent = a.section_parent ∧
        content.heading_path = a.section_path ++
          if content.kind = .Section then content.label.toList else []) :
    Trailed (a.emitted s parent dom_path content) := by
  have hkept : a.candidates ⊆ (a.emitted s parent dom_path content).candidates :=
    List.subset_append_left _ _
  refine h.add _ rfl (fun entry hentry => (h.sections entry hentry).later hkept)
    (fun frame hframe => (h.frames frame hframe).later hkept) fun c hc hrow hcell => ?_
  rw [List.mem_singleton.mp hc] at hrow hcell ⊢
  obtain ⟨hparent, hpath⟩ := hnew hrow hcell
  exact ⟨a.section_path, hparent ▸ h.section_under, hpath⟩

/-- **A move keeps the paths.** -/
theorem Trailed.move (h : Trailed a) (hmove : Move s base a b) : Trailed b := by
  cases hmove with
  | quiet hquiet =>
    have hkept : a.candidates ⊆ b.candidates := hquiet.candidates ▸ List.Subset.refl _
    refine h.add [] ?_ ?_ ?_ ?_
    · rw [hquiet.candidates, List.append_nil]
    · rw [hquiet.sections]
      exact fun entry hentry => (h.sections entry hentry).later hkept
    · rw [hquiet.absorbers]
      exact fun frame hframe => (h.frames frame hframe).later hkept
    · exact fun c hc => absurd hc List.not_mem_nil
  | @absorb frame rest text habsorbers =>
    refine ⟨h.sections, fun other hother => ?_, h.blocks⟩
    rcases List.mem_cons.mp hother with rfl | hold
    · exact h.frames frame (habsorbers ▸ List.mem_cons_self)
    · exact h.frames other (habsorbers ▸ List.mem_cons_of_mem _ hold)
  | close_sections level =>
    exact ⟨fun entry hentry => h.sections entry ((List.dropWhile_sublist _).mem hentry), h.frames,
      h.blocks⟩
  | block path content hroom hkind hpath =>
    have hsection : content.kind ≠ .Section := by
      simp only [is_block, Bool.and_eq_true, bne_iff_ne] at hkind
      exact hkind.1.1
    refine h.emitted fun _ _ => ⟨rfl, ?_⟩
    rw [if_neg hsection, List.append_nil, hpath]
  | heading level path content hroom hkind hpath =>
    have hemitted : Trailed (a.emitted s a.section_parent path content) := by
      refine h.emitted fun _ _ => ⟨rfl, ?_⟩
      rw [if_pos hkind, hpath]
    refine ⟨fun entry hentry => ?_, hemitted.frames, hemitted.blocks⟩
    rcases List.mem_cons.mp hentry with rfl | hold
    · exact .inr ⟨_, List.mem_append_right _ (List.mem_singleton.mpr rfl), rfl, hkind, rfl⟩
    · exact hemitted.sections entry hold
  | row table path content hroom hbase htable hkind hpath =>
    exact h.emitted fun hrow => absurd hkind hrow
  | cell row path content hroom hbase hrow hkind hpath =>
    exact h.emitted fun _ hcell => absurd hkind hcell
  | open_note path =>
    refine ⟨h.sections, fun frame hframe => ?_, h.blocks⟩
    rcases List.mem_cons.mp hframe with rfl | hold
    · exact h.section_under
    · exact h.frames frame hold
  | @close_note frame rest text hroom habsorbers =>
    have hframe := h.frames frame (habsorbers ▸ List.mem_cons_self)
    refine h.add [s.note frame text] rfl ?_ ?_ ?_
    · exact fun entry hentry => (h.sections entry hentry).later (List.subset_append_left _ _)
    · intro other hother
      have hold := h.frames other (habsorbers ▸ List.mem_cons_of_mem _ hother)
      exact hold.later (List.subset_append_left _ _)
    · intro c hc _ _
      rw [List.mem_singleton.mp hc]
      exact ⟨frame.heading_path, hframe, (List.append_nil _).symm⟩

theorem Trailed.moves (h : Trailed a) (hmoves : Moves s base a b) : Trailed b := by
  induction hmoves with
  | refl => exact h
  | tail _ hmove ih => exact ih.move hmove

theorem Trailed.new : Trailed .new :=
  ⟨fun _ h => absurd h List.not_mem_nil, fun _ h => absurd h List.not_mem_nil,
    fun _ h => absurd h List.not_mem_nil⟩

/-! ## The paths of rows and cells -/

variable {path_of : String → List String}

/-- A row or a cell has the path of its parent. -/
def Level (path_of : String → List String) (c : Candidate) : Prop :=
  c.kind = .TableRow ∨ c.kind = .TableCell → ∀ id, c.parent_id = some id →
    c.heading_path = path_of id

/-- All rows and cells have the paths of their parents. -/
def Adapter.AllLevel (path_of : String → List String) (a : Adapter) : Prop :=
  ∀ c ∈ a.candidates, Level path_of c

/-- `path_of` reads the paths of the nodes off their ids. -/
def Reads (path_of : String → List String) (a : Adapter) : Prop :=
  ∀ c ∈ a.candidates, path_of c.provisional_id = c.heading_path

theorem Reads.earlier (h : Reads path_of b) (hmoves : Moves s base a b) : Reads path_of a :=
  fun c hc => h c (hmoves.candidates_prefix.subset hc)

/-- A node more. -/
theorem allLevel_snoc {new : Candidate} (hcandidates : b.candidates = a.candidates ++ [new]) :
    b.AllLevel path_of ↔ a.AllLevel path_of ∧ Level path_of new := by
  rw [Adapter.AllLevel, hcandidates]
  simp only [List.mem_append, List.mem_singleton, or_imp, forall_and, forall_eq]
  rfl

/-- A node more that is neither a row nor a cell. -/
theorem allLevel_snoc_block {new : Candidate} (hcandidates : b.candidates = a.candidates ++ [new])
    (hrow : new.kind ≠ .TableRow) (hcell : new.kind ≠ .TableCell) :
    b.AllLevel path_of ↔ a.AllLevel path_of := by
  rw [allLevel_snoc hcandidates]
  exact and_iff_left fun hkind => absurd hkind (not_or.mpr ⟨hrow, hcell⟩)

theorem allLevel_emitted {id : String} {dom_path : List UInt32} {content : EmitContent}
    (hkind : content.kind = .TableRow ∨ content.kind = .TableCell) :
    (a.emitted s (some id) dom_path content).AllLevel path_of ↔
      a.AllLevel path_of ∧ content.heading_path = path_of id := by
  rw [allLevel_snoc rfl]
  refine and_congr_right fun _ =>
    ⟨fun hlevel => hlevel hkind id rfl, fun hpath _ other hother => ?_⟩
  rw [← Option.some.inj hother]
  exact hpath

/-- A move that puts nothing under a row or table that exists. -/
theorem Move.allLevel_iff (h : Move s base a b) (hbase : a.next_provisional ≤ base) :
    b.AllLevel path_of ↔ a.AllLevel path_of := by
  cases h with
  | quiet h => rw [Adapter.AllLevel, h.candidates, Adapter.AllLevel]
  | absorb | close_sections | open_note => exact Iff.rfl
  | block path content hroom hkind hpath =>
    simp only [is_block, Bool.and_eq_true, bne_iff_ne] at hkind
    exact allLevel_snoc_block rfl hkind.1.2 hkind.2
  | heading level path content hroom hkind hpath =>
    refine allLevel_snoc_block rfl ?_ ?_
    · rw [show (s.candidate _ _ _ path content).kind = content.kind from rfl, hkind]
      decide
    · rw [show (s.candidate _ _ _ path content).kind = content.kind from rfl, hkind]
      decide
  | row table path content hroom hle htable hkind hpath =>
    exact absurd htable.1 (Nat.not_lt.mpr (hbase.trans hle))
  | cell row path content hroom hle hrow hkind hpath =>
    exact absurd hrow.1 (Nat.not_lt.mpr (hbase.trans hle))
  | close_note text hroom h =>
    refine allLevel_snoc_block rfl ?_ ?_
    · rintro ⟨⟩
    · rintro ⟨⟩

/-- **What puts nodes under no row and no table** leaves the rows and cells as they are. -/
theorem Walked.allLevel_iff (h : ∀ base, Walked s base a b) :
    b.AllLevel path_of ↔ a.AllLevel path_of := by
  have hrun (base : ℕ) (c : Adapter) (hmoves : Moves s base a c) (hle : c.next_provisional ≤ base) :
      c.AllLevel path_of ↔ a.AllLevel path_of := by
    induction hmoves with
    | refl => exact Iff.rfl
    | tail _ hmove ih =>
      have hbefore := hmove.next_le.trans hle
      rw [hmove.allLevel_iff hbefore, ih hbefore]
  exact hrun b.next_provisional b (h b.next_provisional).moves (le_refl _)

/-! ## Rows and cells -/

/-- The node of a cell takes the path of the open section. -/
theorem emit_cell_level (path_of : String → List String) {row text : String} {sources : List ℕ}
    {dom_path : List UInt32}
    (h : emit_cell s row text sources dom_path a = .ok b) :
    (b.AllLevel path_of ↔ a.AllLevel path_of ∧ a.section_path = path_of row) ∧
      b.section_path = a.section_path := by
  obtain ⟨out, hemit, hout⟩ := bind_ok_iff.mp h
  obtain ⟨-, rfl⟩ := emit_ok hemit
  cases hout
  exact ⟨allLevel_emitted (.inr rfl), rfl⟩

theorem emit_blank_cells_level (path_of : String → List String) {row : String}
    {dom_path : List UInt32} {n : ℕ}
    (h : emit_blank_cells s row dom_path n a = .ok b) :
    b.AllLevel path_of ↔ a.AllLevel path_of ∧ (n ≠ 0 → a.section_path = path_of row) := by
  induction n generalizing a with
  | zero =>
    cases h
    exact (and_iff_left fun hne => absurd rfl hne).symm
  | succ n ih =>
    rw [emit_blank_cells] at h
    obtain ⟨c, hcell, hrest⟩ := bind_ok_iff.mp h
    obtain ⟨hlevel, hsame⟩ := emit_cell_level path_of hcell
    rw [ih hrest, hlevel, hsame, and_assoc]
    refine and_congr_right fun _ => ⟨fun hall _ => hall.1, fun hall => ?_⟩
    have hhome := hall (Nat.succ_ne_zero n)
    exact ⟨hhome, fun _ => hhome⟩

/-- Placeholders, one for each covered column. -/
theorem placeholders_level {σ : Type} (s : Setup) (row : String) (dom_path : List UInt32)
    {step : σ × Adapter → ℕ × ℕ → Except HtmlIngestError (σ × Adapter)}
    (hstep : ∀ state entry out, step state entry = .ok out →
      emit_cell s row "" [] dom_path state.2 = .ok out.2)
    {entries : List (ℕ × ℕ)} {state out : σ × Adapter}
    (h : entries.foldlM step state = .ok out) :
    (out.2.AllLevel path_of ↔
      state.2.AllLevel path_of ∧ (entries ≠ [] → state.2.section_path = path_of row)) ∧
      out.2.section_path = state.2.section_path := by
  induction entries generalizing state with
  | nil =>
    cases h
    exact ⟨(and_iff_left fun hne => absurd rfl hne).symm, rfl⟩
  | cons entry entries ih =>
    rw [List.foldlM_cons] at h
    obtain ⟨next, hnext, hrest⟩ := bind_ok_iff.mp h
    obtain ⟨hcell, hpath⟩ := emit_cell_level path_of (hstep _ _ _ hnext)
    obtain ⟨hcells, hpaths⟩ := ih hrest
    refine ⟨?_, hpaths.trans hpath⟩
    rw [hcells, hcell, hpath, and_assoc]
    refine and_congr_right fun _ => ⟨fun hall _ => hall.1, fun hall => ?_⟩
    have hhome := hall (List.cons_ne_nil _ _)
    exact ⟨hhome, fun _ => hhome⟩

theorem Adapter.Quiet.allLevel_iff (h : a.Quiet b) :
    b.AllLevel path_of ↔ a.AllLevel path_of := by
  rw [Adapter.AllLevel, h.candidates, Adapter.AllLevel]

theorem finish_row_level {row_id : String} {row_path : List UInt32} {row : RowState}
    {out : Covered × Adapter} (h : finish_row s row_id row_path row a = .ok out) :
    out.2.AllLevel path_of ↔
      a.AllLevel path_of ∧ (row.ahead ≠ [] → a.section_path = path_of row_id) := by
  obtain ⟨left, hleft, hout⟩ := bind_ok_iff.mp h
  cases hout
  refine (placeholders_level s row_id row_path ?_ hleft).1
  intro state entry next hnext
  obtain ⟨c, hcell, hout⟩ := bind_ok_iff.mp hnext
  cases hout
  exact hcell

theorem row_node_level (path_of : String → List String) {table : String}
    {row_path : List UInt32} {is_header : Bool}
    {out : String × Adapter} (h : row_node s table row_path is_header a = .ok out) :
    (out.2.AllLevel path_of ↔ a.AllLevel path_of ∧ a.section_path = path_of table) ∧
      (Reads path_of out.2 → path_of out.1 = a.section_path) := by
  obtain ⟨counted, label, hcount, hemit⟩ := row_node_counted h
  obtain ⟨-, rfl⟩ := emit_ok hemit
  rw [← hcount.section_path, ← hcount.allLevel_iff]
  refine ⟨allLevel_emitted (.inl rfl), fun hreads => ?_⟩
  exact hreads _ (List.mem_append_right _ (List.mem_singleton.mpr rfl))

theorem table_node_reads {dom_path : List UInt32} {out : String × Adapter}
    (h : table_node s dom_path a = .ok out) (hreads : Reads path_of out.2) :
    path_of out.1 = a.section_path := by
  obtain ⟨-, rfl⟩ := emit_ok h
  exact hreads _ (List.mem_append_right _ (List.mem_singleton.mpr rfl))

variable [UnicodeTables] [StrDebug]

omit [StrDebug] in
/-- A note that is closed is neither a row nor a cell. -/
theorem close_note_level (h : close_note s a = .ok b) :
    Moves s 0 a b ∧ (b.AllLevel path_of ↔ a.AllLevel path_of) := by
  rw [close_note] at h
  split at h
  · cases h
    exact ⟨.refl, Iff.rfl⟩
  · next frame rest habsorbers =>
    dsimp only [emit_closed_note, Adapter.push_candidate] at h
    split at h
    · cases h
    · split at h
      · cases h
      · next hroom =>
        cases h
        refine ⟨.single (.close_note _ (Nat.lt_of_not_le hroom) habsorbers), ?_⟩
        refine allLevel_snoc_block rfl ?_ ?_
        · rintro ⟨⟩
        · rintro ⟨⟩

omit [StrDebug] in
theorem cell_nodes_level {row_id : String} {row_path : List UInt32} {el : Element}
    {children : List Dom} {cell_path : List UInt32} {row : RowState} {out : RowState × Adapter}
    (h : cell_nodes s row_id row_path el children cell_path row a = .ok out) :
    out.2.AllLevel path_of ↔ a.AllLevel path_of ∧ a.section_path = path_of row_id := by
  obtain ⟨passed, hpass, h⟩ := bind_ok_iff.mp h
  have hpassed : (passed.2.AllLevel path_of ↔ a.AllLevel path_of ∧
      (covered_run row.col row.ahead ≠ [] → a.section_path = path_of row_id)) ∧
      passed.2.section_path = a.section_path := by
    refine placeholders_level s row_id row_path ?_ hpass
    intro state entry next hnext
    obtain ⟨c, hcell, hout⟩ := bind_ok_iff.mp hnext
    cases hout
    exact hcell
  have hquiet : passed.2.Quiet (collect_text false children cell_path 0 (passed.2, .empty)).1 :=
    collect_quiet false children cell_path passed.2
  obtain ⟨origin, horigin, h⟩ := bind_ok_iff.mp h
  obtain ⟨hlevel, hsame⟩ := emit_cell_level path_of horigin
  obtain ⟨blank, hblank, hout⟩ := bind_ok_iff.mp h
  cases hout
  have hblank := emit_blank_cells_level path_of hblank
  rw [hlevel, hsame, hquiet.allLevel_iff, hquiet.section_path, hpassed.1, hpassed.2] at hblank
  rw [hblank]
  constructor
  · rintro ⟨⟨⟨hold, -⟩, hhome⟩, -⟩
    exact ⟨hold, hhome⟩
  · rintro ⟨hold, hhome⟩
    exact ⟨⟨⟨hold, fun _ => hhome⟩, hhome⟩, fun _ => hhome⟩

/-! ## The walk -/

structure Steadied (s : Setup) (path_of : String → List String) (nodes : List Dom) : Prop where
  children : ∀ path index stray a b, walk_children s nodes path index stray a = .ok b →
    Reads path_of b →
    (b.AllLevel path_of ↔ a.AllLevel path_of ∧ SteadyChildren s nodes path index stray a)
  nested : ∀ path index a b, walk_nested_blocks s nodes path index a = .ok b → Reads path_of b →
    (b.AllLevel path_of ↔ a.AllLevel path_of ∧ SteadyNested s nodes path index a)
  rows : ∀ table path index pending a out, a.Has table .Table →
    table_rows s (provisional_id table) nodes path index pending a = .ok out →
    Reads path_of out.2 →
    (out.2.AllLevel path_of ↔ a.AllLevel path_of ∧
      SteadyRows s (path_of (provisional_id table)) (provisional_id table) nodes path index pending
        a)
  group : ∀ table is_header path index pending a out, a.Has table .Table →
    group_rows s (provisional_id table) is_header nodes path index pending a = .ok out →
    Reads path_of out.2 →
    (out.2.AllLevel path_of ↔ a.AllLevel path_of ∧
      SteadyGroupRows s (path_of (provisional_id table)) (provisional_id table) is_header nodes path
        index pending a)
  cells : ∀ row_id row_path index row a out, a.Has row_id .TableRow →
    row_cells s (provisional_id row_id) row_path nodes index row a = .ok out →
    Reads path_of out.2 →
    (out.2.AllLevel path_of ↔ a.AllLevel path_of ∧
      SteadyCells s (path_of (provisional_id row_id)) (provisional_id row_id) row_path nodes index
        row a)

namespace Steadied

variable {children : List Dom}

theorem element {el : Element} {path : List UInt32} (hsteadied : Steadied s path_of children)
    (h : walk_element s (.Element el children) path a = .ok b) (hreads : Reads path_of b) :
    b.AllLevel path_of ↔
      a.AllLevel path_of ∧ SteadyElement s (.Element el children) path a := by
  have hleaf (hwalked : ∀ base, Walked s base a b) :
      b.AllLevel path_of ↔ a.AllLevel path_of ∧ True := by
    rw [Walked.allLevel_iff hwalked, and_true]
  rw [walk_element] at h
  rw [SteadyElement]
  cases hkind : s.block_kind el with
  | Excluded selector =>
    simp only [hkind] at h ⊢
    cases h
    exact hleaf fun _ => .quiet (diagnose_quiet _ _ _ _)
  | Dropped =>
    simp only [hkind] at h ⊢
    cases h
    exact hleaf fun _ => .quiet (diagnose_dropped_quiet _ _ _)
  | Heading level =>
    simp only [hkind] at h ⊢
    exact hleaf fun _ => heading_ok h
  | Paragraph =>
    simp only [hkind] at h ⊢
    exact hleaf fun _ => paragraph_ok h
  | Transparent =>
    simp only [hkind] at h ⊢
    exact hsteadied.children _ _ _ _ _ h hreads
  | ListItem =>
    simp only [hkind] at h ⊢
    obtain ⟨c, hitem, hnested⟩ := bind_ok_iff.mp h
    rw [forall_ok_iff hitem, hsteadied.nested _ _ _ _ hnested hreads,
      Walked.allLevel_iff fun _ => list_item_node_ok hitem]
  | Definition is_term =>
    simp only [hkind] at h ⊢
    obtain ⟨c, hitem, hnested⟩ := bind_ok_iff.mp h
    rw [forall_ok_iff hitem, hsteadied.nested _ _ _ _ hnested hreads,
      Walked.allLevel_iff fun _ => definition_node_ok hitem]
  | Table =>
    simp only [hkind] at h ⊢
    obtain ⟨⟨table, c⟩, htable, h⟩ := bind_ok_iff.mp h
    have hnode : Walked s 0 a c ∧ table = provisional_id a.next_provisional ∧
      c.Has a.next_provisional .Table := table_node_ok htable
    obtain ⟨-, rfl, hhas⟩ := hnode
    obtain ⟨rows, hrows, hout⟩ := bind_ok_iff.mp h
    rw [← Except.ok.inj hout] at hreads ⊢
    have hquiet := collect_rows_quiet children path 0 c
    have hcollect : Walked s 0 c (collect_rows children path 0 c).1 := .quiet hquiet
    have hrun := (walks s children).rows _ _ _ _ _ _ 0 (Nat.zero_le _) (Nat.zero_le _)
      (hhas.later hcollect.moves) hrows
    have hhome := table_node_reads htable (hreads.earlier (hcollect.moves.trans hrun.moves))
    rw [forall_ok_iff htable, ← hhome,
      hsteadied.rows _ _ _ _ _ _ (hhas.later hcollect.moves) hrows hreads, hquiet.allLevel_iff,
      Walked.allLevel_iff fun _ => (table_node_ok htable).1]
  | CodeBlock =>
    simp only [hkind] at h ⊢
    exact hleaf fun _ => code_block_ok h
  | Note =>
    simp only [hkind] at h ⊢
    obtain ⟨c, hwalk, hclose⟩ := bind_ok_iff.mp h
    have hopen : (open_note path a).AllLevel path_of ↔ a.AllLevel path_of := Iff.rfl
    obtain ⟨hmove, hclosed⟩ := close_note_level hclose
    rw [hclosed, hsteadied.children _ _ _ _ _ hwalk (hreads.earlier hmove), hopen]
  | FigureCaption =>
    simp only [hkind] at h ⊢
    exact hleaf fun _ => figure_caption_ok h
  | SkippedSubtree =>
    simp only [hkind] at h ⊢
    cases h
    exact hleaf fun _ => .quiet (diagnose_quiet _ _ _ _)
  | Unsupported =>
    simp only [hkind] at h ⊢
    exact hsteadied.children _ _ _ _ _ h hreads

theorem table_row {el : Element} {table : ℕ} {is_header : Bool} {path : List UInt32}
    {pending : Covered} {out : Covered × Adapter} (hsteadied : Steadied s path_of children)
    (hhas : a.Has table .Table)
    (h : table_row s (provisional_id table) is_header (.Element el children) path pending a =
      .ok out) (hreads : Reads path_of out.2) :
    out.2.AllLevel path_of ↔ a.AllLevel path_of ∧
      SteadyRow s (path_of (provisional_id table)) (provisional_id table) is_header
        (.Element el children) path pending a := by
  rw [Html.table_row] at h
  rw [SteadyRow]
  obtain ⟨⟨row_id, c⟩, hrow, hcells⟩ := bind_ok_iff.mp h
  have hnode : Walked s 0 a c ∧ row_id = provisional_id a.next_provisional ∧
    c.Has a.next_provisional .TableRow := row_node_ok (Nat.zero_le _) hhas hrow
  obtain ⟨-, rfl, hhas_row⟩ := hnode
  have hrun := (walks s children).cells _ _ _ _ _ _ 0 (Nat.zero_le _) (Nat.zero_le _) hhas_row
    hcells
  obtain ⟨hlevel, hread⟩ := row_node_level path_of hrow
  have hhome := hread (hreads.earlier hrun.moves)
  rw [forall_ok_iff hrow, hsteadied.cells _ _ _ _ _ _ hhas_row hcells hreads, hlevel, and_assoc]
  refine and_congr_right fun _ => and_congr_right fun hsame => ?_
  rw [hhome, hsame]

theorem row_cell {el : Element} {id : ℕ} {row_path cell_path : List UInt32} {row : RowState}
    {out : RowState × Adapter} (hsteadied : Steadied s path_of children)
    (h : row_cell s (provisional_id id) row_path (.Element el children) cell_path row a = .ok out)
    (hreads : Reads path_of out.2) :
    out.2.AllLevel path_of ↔ a.AllLevel path_of ∧
      SteadyCell s (path_of (provisional_id id)) (provisional_id id) row_path
        (.Element el children) cell_path row a := by
  rw [Html.row_cell] at h
  rw [SteadyCell]
  obtain ⟨cell, hcell, h⟩ := bind_ok_iff.mp h
  obtain ⟨c, hnested, hout⟩ := bind_ok_iff.mp h
  cases hout
  rw [forall_ok_iff hcell, hsteadied.nested _ _ _ _ hnested hreads, cell_nodes_level hcell,
    and_assoc]

end Steadied

theorem SteadyNested_element {el : Element} {children rest : List Dom} {path : List UInt32}
    {index : UInt32} :
    SteadyNested s (.Element el children :: rest) path index a ↔
      (s.is_nested_block el = true → SteadyElement s (.Element el children) (path ++ [index]) a) ∧
        ∀ b, (if s.is_nested_block el then walk_element s (.Element el children) (path ++ [index]) a
          else .ok a) = .ok b → SteadyNested s rest path (index + 1) b := by
  rw [SteadyNested]
  by_cases hnested : s.is_nested_block el = true
  · simp only [hnested, if_true, true_imp_iff]
  · simp only [hnested, if_false, false_imp_iff, true_and, Bool.false_eq_true]
    exact (forall_ok_iff rfl).symm

/-- **Along every walk, the rows and cells stay level exactly if the walk is steady.** -/
theorem steadied (s : Setup) (path_of : String → List String) (nodes : List Dom) :
    Steadied s path_of nodes := by
  induction nodes using Dom.children_induction with
  | nil =>
    refine ⟨?_, ?_, ?_, ?_, ?_⟩
    · intro path index stray a b h _
      rw [SteadyChildren, and_true, Walked.allLevel_iff fun _ => absorb_or_emit_ok h]
    · intro path index a b h _
      cases h
      exact (and_true _).symm.to_iff
    · intro table path index pending a out _ h _
      cases h
      exact (and_true _).symm.to_iff
    · intro table is_header path index pending a out _ h _
      cases h
      exact (and_true _).symm.to_iff
    · intro row_id row_path index row a out _ h _
      exact finish_row_level h
  | text id text rest ih =>
    exact ⟨fun path index stray => ih.children path index _, ih.nested, ih.rows, ih.group, ih.cells⟩
  | other rest ih => exact ⟨ih.children, ih.nested, ih.rows, ih.group, ih.cells⟩
  | element el children rest ihc ihr =>
    refine ⟨?_, ?_, ?_, ?_, ?_⟩
    · intro path index stray a b h hreads
      rw [walk_children] at h
      rw [SteadyChildren]
      by_cases hinline : is_inline el.name
      · rw [if_pos hinline] at h ⊢
        have hquiet := collect_text_quiet true children (path ++ [index]) 0 (a, stray)
        rw [← hquiet.allLevel_iff]
        exact ihr.children _ _ _ _ _ h hreads
      · rw [if_neg hinline] at h ⊢
        obtain ⟨c, hflush, h⟩ := bind_ok_iff.mp h
        obtain ⟨d, helement, hrest⟩ := bind_ok_iff.mp h
        have hwalked := (walks s rest).children _ _ _ _ _ 0 (Nat.zero_le _) hrest
        have hflushed : c.AllLevel path_of ↔ a.AllLevel path_of :=
          Walked.allLevel_iff fun _ => absorb_or_emit_ok hflush
        rw [forall_ok_iff hflush, forall_ok_iff helement, ihr.children _ _ _ _ _ hrest hreads,
          ihc.element helement (hreads.earlier hwalked.moves), hflushed, and_assoc]
    · intro path index a b h hreads
      rw [walk_nested_blocks_element] at h
      rw [SteadyNested_element]
      obtain ⟨c, hblock, hrest⟩ := bind_ok_iff.mp h
      have hwalked := (walks s rest).nested _ _ _ _ 0 (Nat.zero_le _) hrest
      have hlevel : c.AllLevel path_of ↔ a.AllLevel path_of ∧ (s.is_nested_block el = true →
          SteadyElement s (.Element el children) (path ++ [index]) a) := by
        by_cases hnested : s.is_nested_block el = true
        · rw [if_pos hnested] at hblock
          rw [ihc.element hblock (hreads.earlier hwalked.moves)]
          exact and_congr_right fun _ => ⟨fun hsteady _ => hsteady, fun hsteady => hsteady hnested⟩
        · rw [if_neg hnested] at hblock
          cases hblock
          exact (and_iff_left fun htrue => absurd htrue hnested).symm
      rw [forall_ok_iff hblock, ihr.nested _ _ _ _ hrest hreads, hlevel, and_assoc]
    · intro table path index pending a out hhas h hreads
      rw [table_rows_element] at h
      rw [SteadyRows]
      obtain ⟨⟨pending', c⟩, hgroup, hrest⟩ := bind_ok_iff.mp h
      have hrun (hwalked : Walked s 0 a c) :
          (out.2.AllLevel path_of ↔ c.AllLevel path_of ∧
            SteadyRows s (path_of (provisional_id table)) (provisional_id table) rest path
              (index + 1) pending' c) ∧ Reads path_of c := by
        have hlater := (walks s rest).rows _ _ _ _ _ _ 0 (Nat.zero_le _) (Nat.zero_le _)
          (hhas.later hwalked.moves) hrest
        exact ⟨ihr.rows _ _ _ _ _ _ (hhas.later hwalked.moves) hrest hreads,
          hreads.earlier hlater.moves⟩
      cases hkind : row_group el.name with
      | Group is_header =>
        simp only [hkind] at hgroup ⊢
        have hwalked := (walks s children).group _ _ _ _ _ _ _ 0 (Nat.zero_le _) (Nat.zero_le _)
          hhas hgroup
        obtain ⟨hrows, hread⟩ := hrun hwalked
        have hstep : table_group s (provisional_id table) is_header (.Element el children)
          (path ++ [index]) pending a = .ok (pending', c) := hgroup
        rw [forall_ok_iff hstep, hrows, ihc.group _ _ _ _ _ _ _ hhas hgroup hread, SteadyGroup,
          and_assoc]
      | Row =>
        simp only [hkind] at hgroup ⊢
        have hwalked := (walks s children).table_row (Nat.zero_le _) (Nat.zero_le _) hhas hgroup
        obtain ⟨hrows, hread⟩ := hrun hwalked
        rw [forall_ok_iff hgroup, hrows, ihc.table_row hhas hgroup hread, and_assoc]
      | Foreign =>
        simp only [hkind] at hgroup ⊢
        cases hgroup
        exact (hrun (.refl _)).1
    · intro table is_header path index pending a out hhas h hreads
      rw [group_rows_element] at h
      rw [SteadyGroupRows]
      obtain ⟨⟨pending', c⟩, hrow, hrest⟩ := bind_ok_iff.mp h
      have hrun (hwalked : Walked s 0 a c) :
          (out.2.AllLevel path_of ↔ c.AllLevel path_of ∧
            SteadyGroupRows s (path_of (provisional_id table)) (provisional_id table) is_header rest
              path (index + 1) pending' c) ∧ Reads path_of c := by
        have hlater := (walks s rest).group _ _ _ _ _ _ _ 0 (Nat.zero_le _) (Nat.zero_le _)
          (hhas.later hwalked.moves) hrest
        exact ⟨ihr.group _ _ _ _ _ _ _ (hhas.later hwalked.moves) hrest hreads,
          hreads.earlier hlater.moves⟩
      by_cases hname : el.name = "tr"
      · rw [if_pos hname] at hrow ⊢
        have hwalked := (walks s children).table_row (Nat.zero_le _) (Nat.zero_le _) hhas hrow
        obtain ⟨hrows, hread⟩ := hrun hwalked
        rw [forall_ok_iff hrow, hrows, ihc.table_row hhas hrow hread, and_assoc]
      · rw [if_neg hname] at hrow ⊢
        cases hrow
        exact (hrun (.refl _)).1
    · intro row_id row_path index row a out hhas h hreads
      rw [row_cells] at h
      rw [SteadyCells]
      by_cases hcell : is_cell el
      · rw [if_pos hcell] at h ⊢
        obtain ⟨⟨row', c⟩, hcell, hrest⟩ := bind_ok_iff.mp h
        have hwalked := (walks s children).row_cell (Nat.zero_le _) (Nat.zero_le _) hhas hcell
        have hlater := (walks s rest).cells _ _ _ _ _ _ 0 (Nat.zero_le _) (Nat.zero_le _)
          (hhas.later hwalked.moves) hrest
        rw [forall_ok_iff hcell, ihr.cells _ _ _ _ _ _ (hhas.later hwalked.moves) hrest hreads,
          ihc.row_cell hcell (hreads.earlier hlater.moves), and_assoc]
      · rw [if_neg hcell] at h ⊢
        exact ihr.cells _ _ _ _ _ _ hhas h hreads

/-! ## Whole walks -/

def path_in (nodes : List Candidate) (id : String) : List String :=
  ((nodes.find? fun c => c.provisional_id == id).map fun c => c.heading_path).getD []

omit [UnicodeTables] [StrDebug] in
theorem reads_path_in (hids : (b.candidates.map fun c => c.provisional_id).Nodup) :
    Reads (path_in b.candidates) b := by
  intro c hc
  obtain ⟨found, hfound⟩ : ∃ found,
      b.candidates.find? (fun d => d.provisional_id == c.provisional_id) = some found :=
    Option.isSome_iff_exists.mp (List.find?_isSome.mpr ⟨c, hc, beq_self_eq_true _⟩)
  have hid : found.provisional_id = c.provisional_id :=
    beq_iff_eq.mp (List.find?_some (p := fun d : Candidate => d.provisional_id == c.provisional_id)
      hfound)
  rw [path_in, hfound, List.inj_on_of_nodup_map hids (List.mem_of_find?_eq_some hfound) hc hid]
  rfl

omit [UnicodeTables] [StrDebug] in
/-- **Nodes follow their parents exactly if rows and cells do.** -/
theorem follows_iff_level (h : Trailed b)
    (hids : (b.candidates.map fun c => c.provisional_id).Nodup)
    (hplaced : ∀ c ∈ b.candidates, c.kind = .TableRow ∨ c.kind = .TableCell →
      ∃ p ∈ b.candidates, c.parent_id = some p.provisional_id) :
    (∀ c ∈ b.candidates.map Candidate.toCandidateNode,
      Follows (b.candidates.map Candidate.toCandidateNode) c) ↔
      b.AllLevel (path_in b.candidates) := by
  have hreads := reads_path_in hids
  rw [List.forall_mem_map]
  refine forall₂_congr fun c hc => ?_
  by_cases hkind : c.kind = .TableRow ∨ c.kind = .TableCell
  · obtain ⟨p, hp, hparent⟩ := hplaced c hc hkind
    have hlabel : c.section_label = [] := by
      refine c.section_label_eq_nil ?_
      rcases hkind with hkind | hkind
      · rw [hkind]
        decide
      · rw [hkind]
        decide
    have hlevel : Level (path_in b.candidates) c ↔ c.heading_path = p.heading_path := by
      rw [← hreads p hp]
      refine ⟨fun hlevel => hlevel hkind _ hparent, fun hpath _ id hid => ?_⟩
      rw [hpath, Option.some.inj (hparent.symm.trans hid)]
    rw [hlevel, Follows, hlabel, List.forall_mem_map]
    constructor
    · rintro ⟨-, hfollows⟩
      rw [hfollows p hp hparent, List.append_nil]
    · intro hpath
      refine ⟨fun hroot => absurd (hparent.symm.trans hroot) (Option.some_ne_none _), ?_⟩
      intro q hq hq_parent
      have hsame := Option.some.inj (hparent.symm.trans hq_parent)
      rw [hpath, List.append_nil, List.inj_on_of_nodup_map hids hp hq hsame]
  · refine iff_of_true ?_ fun hinner => absurd hinner hkind
    obtain ⟨hrow, hcell⟩ := not_or.mp hkind
    obtain ⟨path, hunder, hpath⟩ := h.blocks c hc hrow hcell
    rw [Follows, List.forall_mem_map]
    rcases hunder with ⟨hroot, rfl⟩ | ⟨p, hp, hparent, -, rfl⟩
    · refine ⟨fun _ => hpath, fun q _ hq_parent => ?_⟩
      exact absurd (hq_parent.symm.trans hroot) (Option.some_ne_none _)
    · refine ⟨fun hroot => absurd (hparent.symm.trans hroot) (Option.some_ne_none _), ?_⟩
      intro q hq hq_parent
      have hsame := Option.some.inj (hparent.symm.trans hq_parent)
      rw [hpath, List.inj_on_of_nodup_map hids hp hq hsame]

/-- **The heading paths of a tree match its graph exactly if its walk is steady.** -/
theorem headingPathsMatch_walk_iff (s : Setup) (nodes : List Dom) (root_path : List UInt32)
    (hwalk : walk_children s nodes root_path 0 .empty .new = .ok b) :
    HeadingPathsMatch (b.candidates.map Candidate.toCandidateNode) ↔
      SteadyChildren s nodes root_path 0 .empty .new := by
  have hwalked := (walks s nodes).children root_path 0 .empty .new b 0 (Nat.zero_le _) hwalk
  have hclosed : b.absorbers = [] := List.map_eq_nil_iff.mp hwalked.frames
  have hgrown := Grown.new.moves hwalked.moves
  have htrailed := Trailed.new.moves hwalked.moves
  -- no note is open, so every slot is a candidate's
  have hslots : b.slots = b.candidates.map Candidate.slot := by
    rw [Adapter.slots, hclosed, List.map_nil, List.append_nil]
  have hnumbers := hgrown.ids
  rw [hslots, List.map_map] at hnumbers
  have hinj : Function.Injective provisional_id := fun m n h => provisional_id_inj.mp h
  have hids : (b.candidates.map fun c => c.provisional_id).Nodup :=
    hnumbers.nodup_iff.mpr (List.nodup_range.map hinj)
  have holder : ∀ c ∈ b.candidates.map Candidate.toCandidateNode,
      ∃ n, c.provisional_id = provisional_id n ∧
        (c.parent_id = none ∨ ∃ p ∈ b.candidates.map Candidate.toCandidateNode,
          c.parent_id = some p.provisional_id ∧
            Earlier provisional_id p.provisional_id c.provisional_id) := by
    rw [List.forall_mem_map]
    intro c hc
    have hmem : c.provisional_id ∈ (List.range b.next_provisional).map provisional_id :=
      hnumbers.mem_iff.mp (List.mem_map_of_mem (f := fun c : Candidate => c.provisional_id) hc)
    obtain ⟨n, -, hn⟩ := List.mem_map.mp hmem
    refine ⟨n, hn.symm, ?_⟩
    cases hparent : c.parent_id with
    | none => exact .inl rfl
    | some id =>
      obtain ⟨k, hk, hid, p, hp, hp_id, -⟩ :=
        hgrown.below c.slot (hslots ▸ List.mem_map_of_mem hc) n hn.symm id hparent
      refine .inr ⟨p.toCandidateNode, List.mem_map_of_mem hp, congrArg some hp_id.symm, ?_⟩
      exact ⟨k, n, hp_id.trans hid, hn.symm, hk⟩
  have hplaced : ∀ c ∈ b.candidates, c.kind = .TableRow ∨ c.kind = .TableCell →
      ∃ p ∈ b.candidates, c.parent_id = some p.provisional_id := by
    intro c hc hkind
    obtain ⟨new, hnew, hplacing⟩ := hwalked.moves.placing
    have hc_new : c ∈ new := by
      rw [hnew] at hc
      exact hc
    have hsome : ∃ id, c.parent_id = some id := by
      rcases hkind with hkind | hkind
      · obtain ⟨⟨table, -, htable⟩, -⟩ := hplacing.rows c hc_new hkind
        exact ⟨_, htable⟩
      · obtain ⟨row, -, -, hrow⟩ := hplacing.cells c hc_new hkind
        exact ⟨_, hrow⟩
    obtain ⟨id, hid⟩ := hsome
    obtain ⟨n, -, hparent⟩ := holder c.toCandidateNode (List.mem_map_of_mem hc)
    rcases hparent with hroot | ⟨p, hp, hparent, -⟩
    · exact absurd (hid.symm.trans hroot) (Option.some_ne_none _)
    · obtain ⟨q, hq, rfl⟩ := List.mem_map.mp hp
      exact ⟨q, hq, hparent⟩
  have hnode_ids : ((b.candidates.map Candidate.toCandidateNode).map
      CandidateNode.provisional_id).Nodup := by
    rw [List.map_map]
    exact hids
  rw [headingPathsMatch_iff_follows hinj hnode_ids holder,
    follows_iff_level htrailed hids hplaced,
    (steadied s (path_in b.candidates) nodes).children _ _ _ _ _ hwalk (reads_path_in hids)]
  exact and_iff_right fun c hc => absurd hc List.not_mem_nil

end Moves

end Evidence.Corpus.Html
