/-
The layout of an HTML table, against the occupancy grid.

The rows of a table and the cells under them are read off the candidates that its walk emits. The
walk carries, for each column, the rows that the cell laid last over it still covers: its
layouts are those of `Grid.recalled_layouts`, row by row (`Segment`), and these are the
layouts of the grid exactly when no row has lost a column that it asks for.
-/
import Evidence.Corpus.Ingest.Html.RowLayout

set_option autoImplicit false

namespace Evidence.Corpus.Html

open Check Relation

/-! ## What a table shows -/

def rows_under (table : String) (candidates : List Candidate) : List Candidate :=
  candidates.filter fun candidate =>
    candidate.kind == .TableRow && candidate.parent_id == some table

/-- How many cell nodes a row has, and which of them are the origins. -/
def row_layout (candidates : List Candidate) (row : Candidate) : ℕ × List ℕ :=
  let paths := (cells_under row.provisional_id candidates).map Candidate.dom_path
  (paths.length, origins row.dom_path none 0 paths)

/-- The layouts of a table's rows. -/
def table_layout (table : String) (candidates : List Candidate) : List (ℕ × List ℕ) :=
  (rows_under table candidates).map (row_layout candidates)

def group_spans : List Dom → List (List Grid.Span)
  | [] => []
  | .Element el children :: rest =>
    if el.name = "tr" then cell_spans children :: group_spans rest else group_spans rest
  | .Text _ _ :: rest => group_spans rest
  | .Other :: rest => group_spans rest

def table_spans : List Dom → List (List Grid.Span)
  | [] => []
  | .Element el children :: rest =>
    match row_group el.name with
    | .Group _ => group_spans children ++ table_spans rest
    | .Row => cell_spans children :: table_spans rest
    | .Foreign => table_spans rest
  | .Text _ _ :: rest => table_spans rest
  | .Other :: rest => table_spans rest

variable {s : Setup} {n table r : ℕ} {grid : List Grid.Placed} {pending : Covered} {a b : Adapter}

/-! ## Rows -/

/-- **A table that has come to row `r`**, with the grid of the rows above. Behind the first `n`
candidates, rows and the parents of cells have numbers that are given out. -/
structure AtRow (n table r : ℕ) (grid : List Grid.Placed) (pending : Covered) (a : Adapter) :
    Prop where
  known : n ≤ a.candidates.length
  rows : ∀ c ∈ a.candidates.drop n, c.kind = .TableRow →
    ∃ k < a.next_provisional, c.provisional_id = provisional_id k
  cells : ∀ c ∈ a.candidates.drop n, c.kind = .TableCell →
    ∃ k < a.next_provisional, c.parent_id = some (provisional_id k)
  has_table : a.Has table .Table
  above : ∀ p ∈ grid, p.row < r
  covered : Holds pending (Grid.carried r grid)

theorem rows_under_append (id : String) (old new : List Candidate) :
    rows_under id (old ++ new) = rows_under id old ++ rows_under id new := List.filter_append _ _

theorem cells_under_append (id : String) (old new : List Candidate) :
    cells_under id (old ++ new) = cells_under id old ++ cells_under id new :=
  List.filter_append _ _

theorem Placing.rows_under_nil {base low high : ℕ} {new : List Candidate}
    (h : Placing base low high new) (hlt : table < base) :
    rows_under (provisional_id table) new = [] := by
  rw [rows_under, List.filter_eq_nil_iff]
  intro c hc hrow
  rw [Bool.and_eq_true, beq_iff_eq, beq_iff_eq] at hrow
  obtain ⟨⟨other, hle, hparent⟩, -⟩ := h.rows c hc hrow.1
  have hsame := Option.some.inj (hparent.symm.trans hrow.2)
  rw [provisional_id_inj] at hsame
  omega

theorem row_node_emitted {row_path : List UInt32} {is_header : Bool} {out : String × Adapter}
    (h : row_node s (provisional_id table) row_path is_header a = .ok out) :
    ∃ row : Candidate, row.kind = .TableRow ∧ row.parent_id = some (provisional_id table) ∧
      row.provisional_id = provisional_id a.next_provisional ∧ row.dom_path = row_path ∧
      out.1 = provisional_id a.next_provisional ∧ out.2.candidates = a.candidates ++ [row] ∧
      out.2.next_provisional = a.next_provisional + 1 := by
  rw [row_node] at h
  obtain ⟨-, rfl⟩ := emit_ok h
  cases is_header with
  | true => exact ⟨_, rfl, rfl, rfl, rfl, rfl, rfl, rfl⟩
  | false => exact ⟨_, rfl, rfl, rfl, rfl, rfl, rfl, rfl⟩

/-- **One row.** -/
theorem AtRow.row [UnicodeTables] [StrDebug] {el : Element} {children : List Dom}
    {row_path : List UInt32} {is_header : Bool} {out : Covered × Adapter}
    (h : AtRow n table r grid pending a)
    (hrow : table_row s (provisional_id table) is_header (.Element el children) row_path pending a =
      .ok out) :
    AtRow n table (r + 1) ((Grid.placed r
        (Grid.scan (Grid.remembered r grid) 0 (cell_spans children)).1
        (cell_spans children)).reverse ++ grid) out.1 out.2 ∧
      table_layout (provisional_id table) (out.2.candidates.drop n) =
        table_layout (provisional_id table) (a.candidates.drop n) ++
          [Grid.scan_layout (Grid.remembered r grid) (cell_spans children)] := by
  rw [table_row] at hrow
  obtain ⟨⟨row_id, b⟩, hnode, hcells⟩ := bind_ok_iff.mp hrow
  obtain ⟨row, hkind, hparent, hid, hpath, hrow_id, hb, hnext⟩ := row_node_emitted hnode
  obtain ⟨hwalked, -, hhas⟩ := row_node_ok (le_refl table) h.has_table hnode
  obtain rfl : row_id = provisional_id a.next_provisional := hrow_id
  have hbelow := h.has_table.1
  have hknown : n ≤ b.candidates.length := hwalked.moves.known h.known
  have hdrop := drop_append_candidates h.known hb
  have hno_cell : ∀ id, cells_under id [row] = [] := by
    intro id
    rw [cells_under, List.filter_cons_of_neg, List.filter_nil]
    rw [hkind]
    simp
  have hno_row : rows_under (provisional_id table) [row] = [row] := by
    rw [rows_under, List.filter_cons_of_pos, List.filter_nil]
    rw [hkind, hparent]
    simp
  -- the row starts without cells
  have hfresh : b.row_paths n a.next_provisional = [] := by
    rw [Adapter.row_paths, hdrop, cells_under_append, hno_cell, List.append_nil,
      List.map_eq_nil_iff, cells_under, List.filter_eq_nil_iff]
    intro c hc hcell
    rw [Bool.and_eq_true, beq_iff_eq, beq_iff_eq] at hcell
    obtain ⟨k, hk, hparent⟩ := h.cells c hc hcell.1
    have hsame := Option.some.inj (hparent.symm.trans hcell.2)
    rw [provisional_id_inj] at hsame
    omega
  have hstart : Midway r grid n a.next_provisional row_path [] 0 (.start pending) b :=
    Midway.start hknown hfresh h.covered
  have habove : ∀ p ∈ grid, p.row ≤ r := fun p hp => Nat.le_of_lt (h.above p hp)
  have hlaid := row_cells_laid children habove hstart hhas hcells
  rw [List.nil_append] at hlaid
  have hle : a.next_provisional ≤ b.next_provisional := hnext ▸ Nat.le_succ _
  have hmoves := ((walks s children).cells _ _ _ _ _ _ _ hle (le_refl _) hhas hcells).moves
  obtain ⟨new, hnew, hplacing⟩ := hmoves.placing
  have hall : out.2.candidates.drop n = a.candidates.drop n ++ [row] ++ new := by
    rw [drop_append_candidates hknown hnew, hdrop]
  have hlater : b.next_provisional ≤ out.2.next_provisional := hmoves.next_le
  have hcount : b.next_provisional = a.next_provisional + 1 := hnext
  constructor
  · refine ⟨hlaid.known, ?_, ?_, (h.has_table.later hwalked.moves).later hmoves, ?_, hlaid.covered⟩
    · intro c hc hrow
      rw [hall, List.mem_append, List.mem_append, List.mem_singleton] at hc
      rcases hc with (hold | rfl) | hadded
      · obtain ⟨k, hk, heq⟩ := h.rows c hold hrow
        exact ⟨k, by omega, heq⟩
      · exact ⟨a.next_provisional, by omega, hid⟩
      · obtain ⟨-, k, -, hk, heq⟩ := hplacing.rows c hadded hrow
        exact ⟨k, hk, heq⟩
    · intro c hc hcell
      rw [hall, List.mem_append, List.mem_append, List.mem_singleton] at hc
      rcases hc with (hold | rfl) | hadded
      · obtain ⟨k, hk, heq⟩ := h.cells c hold hcell
        exact ⟨k, by omega, heq⟩
      · exact absurd (hkind.symm.trans hcell) (by decide)
      · obtain ⟨k, -, hk, heq⟩ := hplacing.cells c hadded hcell
        exact ⟨k, hk, heq⟩
    · intro p hp
      rcases List.mem_append.mp hp with hown | hold
      · rw [(Grid.mem_placed (List.mem_reverse.mp hown)).1]
        exact Nat.lt_succ_self r
      · exact (h.above p hold).trans (Nat.lt_succ_self r)
  · rw [table_layout, table_layout, hall, rows_under_append, rows_under_append, hno_row,
      hplacing.rows_under_nil hbelow, List.append_nil, List.map_append, List.map_singleton]
    congr 1
    · -- the rows above keep their cells
      refine List.map_congr_left fun c hc => ?_
      obtain ⟨hc, hrow⟩ := List.mem_filter.mp hc
      rw [Bool.and_eq_true, beq_iff_eq, beq_iff_eq] at hrow
      obtain ⟨k, hk, heq⟩ := h.rows c hc hrow.1
      rw [row_layout, row_layout, cells_under_append, cells_under_append, hno_cell,
        List.append_nil, heq, hplacing.cells_under_nil hk, List.append_nil]
    · have hlayout := hlaid.layout
      rw [Adapter.row_paths, hall] at hlayout
      rw [row_layout, hid, hpath, ← hlayout]

theorem AtRow.start {path : List UInt32} {out : String × Adapter} (children : List Dom)
    (h : table_node s path a = .ok out) :
    out.1 = provisional_id a.next_provisional ∧
      AtRow a.candidates.length a.next_provisional 0 [] Store.empty
        (collect_rows children path 0 out.2).1 ∧
      table_layout (provisional_id a.next_provisional)
        ((collect_rows children path 0 out.2).1.candidates.drop a.candidates.length) = [] := by
  obtain ⟨hwalked, hid, hhas⟩ : Walked s 0 a out.2 ∧ _ ∧ _ := table_node_ok h
  have hquiet := collect_rows_quiet children path 0 out.2
  obtain ⟨-, hout⟩ := emit_ok h
  have hdrop : ∃ node : Candidate, node.kind = .Table ∧
      (collect_rows children path 0 out.2).1.candidates.drop a.candidates.length = [node] := by
    rw [hquiet.candidates, hout]
    exact ⟨_, rfl, List.drop_left⟩
  obtain ⟨node, hkind, hdrop⟩ := hdrop
  refine ⟨hid, ⟨?_, ?_, ?_, ?_, ?_, ?_⟩, ?_⟩
  · rw [hquiet.candidates]
    exact hwalked.moves.known (le_refl _)
  · intro c hc hrow
    rw [hdrop, List.mem_singleton] at hc
    rw [hc, hkind] at hrow
    cases hrow
  · intro c hc hcell
    rw [hdrop, List.mem_singleton] at hc
    rw [hc, hkind] at hcell
    cases hcell
  · obtain ⟨hlt, c, hc, hcid, hckind⟩ := hhas
    exact ⟨hquiet.next_provisional ▸ hlt, c, hquiet.candidates ▸ hc, hcid, hckind⟩
  · intro p hp
    cases hp
  · exact Holds.empty
  · rw [hdrop, table_layout, rows_under, List.filter_cons_of_neg, List.filter_nil, List.map_nil]
    rw [hkind]
    simp

/-! ## Tables -/

/-- **Some rows of a table are projected**: what is shown for them is the beginning of the layouts
that remember only the last cells, and the others go on from there. -/
def Segment (n table : ℕ) (rows : List (List Grid.Span)) (start finish : Covered × Adapter) :
    Prop :=
  ∀ r grid, AtRow n table r grid start.1 start.2 → ∃ grid' shown,
    AtRow n table (r + rows.length) grid' finish.1 finish.2 ∧
    table_layout (provisional_id table) (finish.2.candidates.drop n) =
      table_layout (provisional_id table) (start.2.candidates.drop n) ++ shown ∧
    ∀ more, Grid.recalled_layouts r grid (rows ++ more) =
      shown ++ Grid.recalled_layouts (r + rows.length) grid' more

theorem Segment.refl (state : Covered × Adapter) : Segment n table [] state state :=
  fun _ grid h => ⟨grid, [], h, (List.append_nil _).symm, fun _ => rfl⟩

theorem Segment.trans {rows rows' : List (List Grid.Span)} {start middle finish : Covered × Adapter}
    (h : Segment n table rows start middle) (h' : Segment n table rows' middle finish) :
    Segment n table (rows ++ rows') start finish := by
  intro r grid hrow
  obtain ⟨grid', shown, hmiddle, hlayout, hrecalled⟩ := h r grid hrow
  obtain ⟨grid'', shown', hfinish, hlayout', hrecalled'⟩ := h' _ grid' hmiddle
  refine ⟨grid'', shown ++ shown', ?_, ?_, ?_⟩
  · rwa [List.length_append, ← Nat.add_assoc]
  · rw [hlayout', hlayout, List.append_assoc]
  · intro more
    rw [List.append_assoc, hrecalled, hrecalled', List.append_assoc, List.length_append,
      Nat.add_assoc]

theorem Segment.row [UnicodeTables] [StrDebug] {el : Element} {children : List Dom}
    {row_path : List UInt32} {is_header : Bool} {out : Covered × Adapter}
    (h : table_row s (provisional_id table) is_header (.Element el children) row_path pending a =
      .ok out) : Segment n table [cell_spans children] (pending, a) out := by
  intro r grid hrow
  obtain ⟨hnext, hlayout⟩ := hrow.row h
  exact ⟨_, _, hnext, hlayout, fun more => rfl⟩

theorem group_rows_segment [UnicodeTables] [StrDebug] (nodes : List Dom) {is_header : Bool}
    {path : List UInt32} {index : UInt32} {out : Covered × Adapter}
    (h : group_rows s (provisional_id table) is_header nodes path index pending a = .ok out) :
    Segment n table (group_spans nodes) (pending, a) out := by
  induction nodes generalizing index pending a with
  | nil =>
    cases h
    exact .refl _
  | cons node rest ih =>
    cases node with
    | Text id text => exact ih h
    | Other => exact ih h
    | Element el children =>
      rw [group_rows_element] at h
      obtain ⟨next, hrow, hrest⟩ := bind_ok_iff.mp h
      rw [group_spans]
      by_cases hname : el.name = "tr"
      · rw [if_pos hname] at hrow
        rw [if_pos hname]
        exact (Segment.row hrow).trans (ih hrest)
      · rw [if_neg hname] at hrow
        rw [if_neg hname]
        cases hrow
        exact ih hrest

theorem table_rows_segment [UnicodeTables] [StrDebug] (nodes : List Dom) {path : List UInt32}
    {index : UInt32} {out : Covered × Adapter}
    (h : table_rows s (provisional_id table) nodes path index pending a = .ok out) :
    Segment n table (table_spans nodes) (pending, a) out := by
  induction nodes generalizing index pending a with
  | nil =>
    cases h
    exact .refl _
  | cons node rest ih =>
    cases node with
    | Text id text => exact ih h
    | Other => exact ih h
    | Element el children =>
      rw [table_rows_element] at h
      obtain ⟨next, hgroup, hrest⟩ := bind_ok_iff.mp h
      rw [table_spans]
      cases hkind : row_group el.name with
      | Group is_header =>
        simp only [hkind] at hgroup
        exact (group_rows_segment children hgroup).trans (ih hrest)
      | Row =>
        simp only [hkind] at hgroup
        exact (Segment.row hgroup).trans (ih hrest)
      | Foreign =>
        simp only [hkind] at hgroup
        cases hgroup
        exact ih hrest

/-- **The layouts of a table are those of the grid exactly when the grid is faithful**: in every
row, a column that an earlier cell still occupies although the cell laid last over it has ended
lies strictly inside a cell of the row. -/
theorem table_layout_iff [UnicodeTables] [StrDebug] (s : Setup) {el : Element}
    {children : List Dom} {path : List UInt32} {a b : Adapter} (htable : s.block_kind el = .Table)
    (hwalk : walk_element s (.Element el children) path a = .ok b) :
    table_layout (provisional_id a.next_provisional) (b.candidates.drop a.candidates.length) =
        Grid.layouts 0 [] (table_spans children) ↔
      Grid.Faithful 0 [] (table_spans children) := by
  rw [walk_element] at hwalk
  simp only [htable] at hwalk
  obtain ⟨⟨id, c⟩, hnode, hwalk⟩ := bind_ok_iff.mp hwalk
  obtain ⟨⟨left, d⟩, hrows, hout⟩ := bind_ok_iff.mp hwalk
  cases hout
  obtain ⟨rfl, hstart⟩ := AtRow.start children hnode
  obtain ⟨grid, shown, -, hlayout, hrecalled⟩ := table_rows_segment children hrows 0 [] hstart.1
  rw [hstart.2, List.nil_append] at hlayout
  have hall := hrecalled []
  rw [List.append_nil, Grid.recalled_layouts, List.append_nil] at hall
  rw [hlayout, ← hall]
  refine Grid.recalled_layouts_eq_iff _ ?_
  intro p hp
  cases hp

/-- A cell without content. -/
def sample_cell (colspan rowspan : String) : Dom :=
  .Element ⟨0, "td", [("colspan", colspan), ("rowspan", rowspan)]⟩ []

/-- In the second row, a wide cell is laid over a column that is covered for two rows. -/
def overlapping_rows : List Dom :=
  [.tag 0 "tr" [sample_cell "1" "1", sample_cell "1" "3"],
    .tag 0 "tr" [sample_cell "2" "1"],
    .tag 0 "tr" [sample_cell "1" "1"]]

/-- A `<table>` tag. -/
def sample_table : Element := ⟨0, "table", []⟩

attribute [local instance] ascii_tables plain_debug

theorem table_layout_plain : ∃ b,
    walk_element .plain (.Element sample_table overlapping_rows) [] .new = .ok b ∧
      (table_layout (provisional_id Adapter.new.next_provisional)
            (b.candidates.drop Adapter.new.candidates.length) =
          Grid.layouts 0 [] (table_spans overlapping_rows) ↔
        Grid.Faithful 0 [] (table_spans overlapping_rows)) := by
  have hends : ((walk_element .plain (.Element sample_table overlapping_rows) []
      .new).toOption.map fun b => b.candidates.length) = some 9 := by
    decide +kernel
  obtain ⟨b, hwalk, -⟩ := ok_of_view hends
  exact ⟨b, hwalk, table_layout_iff .plain (by decide) hwalk⟩

/-- **The wide cell drops what was covered**: the last row has one cell node, where the grid has
two columns occupied. -/
theorem table_layout_overlap : ∃ b,
    walk_element .plain (.Element sample_table overlapping_rows) [] .new = .ok b ∧
      table_layout (provisional_id Adapter.new.next_provisional)
          (b.candidates.drop Adapter.new.candidates.length) ≠
        Grid.layouts 0 [] (table_spans overlapping_rows) := by
  have hlayout : (walk_element .plain (.Element sample_table overlapping_rows) [] .new).toOption.map
      (fun b => table_layout (provisional_id Adapter.new.next_provisional)
          (b.candidates.drop Adapter.new.candidates.length)) =
        some [(2, [0, 1]), (2, [0]), (1, [0])] := by
    decide +kernel
  have hgrid : Grid.layouts 0 [] (table_spans overlapping_rows) =
      [(2, [0, 1]), (2, [0]), (2, [0])] := by
    decide +kernel
  obtain ⟨b, hwalk, hshown⟩ := ok_of_view hlayout
  refine ⟨b, hwalk, ?_⟩
  rw [hgrid, hshown]
  decide

end Evidence.Corpus.Html
