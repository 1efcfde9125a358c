/-
The **spanning-cell layer**: rows of cells that cover several columns and several rows.

A cell is laid at the first column of its row that is still free, and keeps the columns it
covers occupied in as many rows as it is high. The layout of a row is how many of its columns are
occupied, and at which of these its own cells begin.

The grid keeps every cell. A layout engine need not: for each column it may remember only the
cell laid over it last. `Faithful` says when that makes no difference: a column that an earlier
cell still occupies although the last one has ended must lie strictly inside a cell of
the row at hand, where nobody asks for it. `recalled_layout_eq_iff` proves that this is exactly
when all layouts agree.
-/
import Mathlib.Data.Finset.Card
import Mathlib.Data.List.Basic
import Mathlib.Order.Interval.Finset.Nat

set_option autoImplicit false

namespace Grid

/-! ## Cells -/

/-- The size of a cell. -/
structure Span where
  width : ℕ
  height : ℕ
  width_pos : 0 < width
  height_pos : 0 < height
deriving DecidableEq

structure Placed extends Span where
  row : ℕ
  col : ℕ
deriving DecidableEq

/-- The columns a cell covers. -/
def Placed.columns (p : Placed) : Finset ℕ := Finset.Ico p.col (p.col + p.width)

/-- The cell reaches down to row `r`. -/
def Placed.Reaches (p : Placed) (r : ℕ) : Prop := p.row ≤ r ∧ r < p.row + p.height

instance (p : Placed) (r : ℕ) : Decidable (p.Reaches r) := inferInstanceAs (Decidable (_ ∧ _))

def occupied (r : ℕ) : List Placed → Finset ℕ
  | [] => ∅
  | p :: grid => if p.Reaches r then p.columns ∪ occupied r grid else occupied r grid

theorem mem_occupied {r x : ℕ} {grid : List Placed} :
    x ∈ occupied r grid ↔ ∃ p ∈ grid, p.Reaches r ∧ x ∈ p.columns := by
  induction grid with
  | nil => simp [occupied]
  | cons p grid ih =>
    by_cases hreach : p.Reaches r
    · simp [occupied, hreach, ih]
    · simp [occupied, hreach, ih]

/-! ## Free columns -/

/-- The number of taken columns from `col` on, one next to the other, up to a limit. -/
def run_length (taken : Finset ℕ) : ℕ → ℕ → ℕ
  | 0, _ => 0
  | limit + 1, col => if col ∈ taken then run_length taken limit (col + 1) + 1 else 0

def first_free (taken : Finset ℕ) (col : ℕ) : ℕ := col + run_length taken taken.card col

theorem run_length_taken {taken : Finset ℕ} {limit col x : ℕ} (hle : col ≤ x)
    (hlt : x < col + run_length taken limit col) : x ∈ taken := by
  induction limit generalizing col with
  | zero =>
    rw [run_length] at hlt
    omega
  | succ limit ih =>
    rw [run_length] at hlt
    by_cases hcol : col ∈ taken
    · rw [if_pos hcol] at hlt
      by_cases heq : x = col
      · rw [heq]
        exact hcol
      · have hafter : col + 1 ≤ x := by omega
        have hbefore : x < col + 1 + run_length taken limit (col + 1) := by omega
        exact ih hafter hbefore
    · rw [if_neg hcol] at hlt
      omega

theorem run_length_free {taken : Finset ℕ} {limit col : ℕ}
    (hlt : run_length taken limit col < limit) : col + run_length taken limit col ∉ taken := by
  induction limit generalizing col with
  | zero => omega
  | succ limit ih =>
    rw [run_length] at hlt ⊢
    by_cases hcol : col ∈ taken
    · rw [if_pos hcol] at hlt ⊢
      have hshort : run_length taken limit (col + 1) < limit := by omega
      have hrest := ih hshort
      rwa [show col + (run_length taken limit (col + 1) + 1) =
        col + 1 + run_length taken limit (col + 1) by omega]
    · rw [if_neg hcol]
      exact hcol

theorem le_first_free (taken : Finset ℕ) (col : ℕ) : col ≤ first_free taken col :=
  Nat.le_add_right _ _

theorem taken_of_lt_first_free {taken : Finset ℕ} {col x : ℕ} (hle : col ≤ x)
    (hlt : x < first_free taken col) : x ∈ taken :=
  run_length_taken hle hlt

/-- There are not enough taken columns to take them all. -/
theorem first_free_not_mem (taken : Finset ℕ) (col : ℕ) : first_free taken col ∉ taken := by
  by_cases hlt : run_length taken taken.card col < taken.card
  · exact run_length_free hlt
  · intro hmem
    have hsub : Finset.Icc col (first_free taken col) ⊆ taken := by
      intro x hx
      rw [Finset.mem_Icc] at hx
      by_cases heq : x = first_free taken col
      · rw [heq]
        exact hmem
      · exact taken_of_lt_first_free hx.1 (by omega)
    have hcard := Finset.card_le_card hsub
    rw [Nat.card_Icc, first_free] at hcard
    omega

theorem first_free_eq {taken : Finset ℕ} {col c : ℕ} (hle : col ≤ c) (hfree : c ∉ taken)
    (htaken : ∀ x, col ≤ x → x < c → x ∈ taken) : first_free taken col = c := by
  have hcol := le_first_free taken col
  apply Nat.le_antisymm
  · by_contra hlt
    exact hfree (taken_of_lt_first_free hle (by omega))
  · by_contra hlt
    exact first_free_not_mem taken col (htaken _ hcol (by omega))

/-! ## Layouts -/

/-- Lay the cells of row `r`, each at the first free column of the row. The grid has the cell
laid last first. -/
def lay_row (r : ℕ) : List Placed → List Span → List Placed
  | grid, [] => grid
  | grid, span :: spans =>
    lay_row r ({ span with row := r, col := first_free (occupied r grid) 0 } :: grid) spans

/-- The layout of row `r`: how many columns are occupied, and for each cell of the row, the
number of them before it. -/
def row_layout (r : ℕ) (grid : List Placed) : ℕ × List ℕ :=
  ((occupied r grid).card,
    ((grid.filter fun p => p.row = r).reverse.map fun p =>
      ((occupied r grid).filter fun x => x < p.col).card))

def layouts : ℕ → List Placed → List (List Span) → List (ℕ × List ℕ)
  | _, _, [] => []
  | r, grid, spans :: rows =>
    row_layout r (lay_row r grid spans) :: layouts (r + 1) (lay_row r grid spans) rows

/-! ## Scans

A row can be laid out from left to right, knowing only the columns that are taken
when it starts. -/

/-- Where the cells of a row begin, and where the last one ends. -/
def scan (taken : Finset ℕ) : ℕ → List Span → List ℕ × ℕ
  | col, [] => ([], col)
  | col, span :: spans =>
    let rest := scan taken (first_free taken col + span.width) spans
    (first_free taken col :: rest.1, rest.2)

/-- How many columns are taken from `col` on. -/
def left_over (taken : Finset ℕ) (col : ℕ) : ℕ := (taken.filter fun x => col ≤ x).card

/-- The layout of a scanned row: behind the last cell, only the taken columns count. -/
def scan_layout (taken : Finset ℕ) (spans : List Span) : ℕ × List ℕ :=
  ((scan taken 0 spans).2 + left_over taken (scan taken 0 spans).2, (scan taken 0 spans).1)

/-- The cells of row `r`, laid where they begin. -/
def placed (r : ℕ) (starts : List ℕ) (spans : List Span) : List Placed :=
  List.zipWith (fun col span => { span with row := r, col := col }) starts spans

theorem scan_length (taken : Finset ℕ) (col : ℕ) (spans : List Span) :
    (scan taken col spans).1.length = spans.length := by
  induction spans generalizing col with
  | nil => rfl
  | cons span spans ih => rw [scan, List.length_cons, List.length_cons, ih]

theorem le_scan_end (taken : Finset ℕ) (col : ℕ) (spans : List Span) :
    col ≤ (scan taken col spans).2 := by
  induction spans generalizing col with
  | nil => exact le_refl _
  | cons span spans ih =>
    rw [scan]
    have hfree := le_first_free taken col
    have hrest := ih (first_free taken col + span.width)
    omega

/-- A scanned cell begins and ends between the two ends of the scan. -/
theorem mem_placed {r col : ℕ} {taken : Finset ℕ} {spans : List Span} {p : Placed}
    (hp : p ∈ placed r (scan taken col spans).1 spans) :
    p.row = r ∧ col ≤ p.col ∧ p.col + p.width ≤ (scan taken col spans).2 ∧ p.col ∉ taken := by
  induction spans generalizing col with
  | nil => cases hp
  | cons span spans ih =>
    have hfree := le_first_free taken col
    rw [scan] at hp ⊢
    rw [placed, List.zipWith_cons_cons, List.mem_cons] at hp
    obtain rfl | hp := hp
    · exact ⟨rfl, hfree, le_scan_end _ _ _, first_free_not_mem taken col⟩
    · obtain ⟨hrow, hle, hend, hnot⟩ := ih hp
      exact ⟨hrow, by omega, hend, hnot⟩

/-- One cell more is scanned from where the last one ended. -/
theorem scan_append (taken : Finset ℕ) (col : ℕ) (spans : List Span) (span : Span) :
    scan taken col (spans ++ [span]) =
      ((scan taken col spans).1 ++ [first_free taken (scan taken col spans).2],
        first_free taken (scan taken col spans).2 + span.width) := by
  induction spans generalizing col with
  | nil => rfl
  | cons first spans ih =>
    rw [List.cons_append, scan, ih, scan]
    rfl

theorem placed_append {r : ℕ} {starts : List ℕ} {spans : List Span} (col : ℕ) (span : Span)
    (hlen : starts.length = spans.length) :
    placed r (starts ++ [col]) (spans ++ [span]) =
      placed r starts spans ++ [{ span with row := r, col := col }] := by
  rw [placed, List.zipWith_append hlen]
  rfl

/-- The scanned cells stand side by side. -/
theorem placed_pairwise {r : ℕ} (taken : Finset ℕ) (col : ℕ) (spans : List Span) :
    (placed r (scan taken col spans).1 spans).Pairwise fun p q => p.col + p.width ≤ q.col := by
  induction spans generalizing col with
  | nil => exact .nil
  | cons span spans ih =>
    rw [scan, placed, List.zipWith_cons_cons]
    refine .cons ?_ (ih _)
    intro q hq
    exact (mem_placed hq).2.1

theorem placed_unique {r x : ℕ} {taken : Finset ℕ} {col : ℕ} {spans : List Span} {p q : Placed}
    (hp : p ∈ placed r (scan taken col spans).1 spans) (hpx : x ∈ p.columns)
    (hq : q ∈ placed r (scan taken col spans).1 spans) (hqx : x ∈ q.columns) : p = q := by
  by_contra hne
  have hside : ∀ {p q : Placed}, p.col + p.width ≤ q.col → x ∈ p.columns → x ∉ q.columns := by
    intro p q hle hpx hqx
    have hlt := (Finset.mem_Ico.mp hpx).2
    have hcol := (Finset.mem_Ico.mp hqx).1
    omega
  have happart : (placed r (scan taken col spans).1 spans).Pairwise fun p q =>
      ¬ (x ∈ p.columns ∧ x ∈ q.columns) := by
    refine (placed_pairwise taken col spans).imp ?_
    intro p q hle hboth
    exact hside hle hboth.1 hboth.2
  have hsymm : Std.Symm fun p q : Placed => ¬ (x ∈ p.columns ∧ x ∈ q.columns) :=
    ⟨fun p q h hboth => h hboth.symm⟩
  exact happart.forall hp hq hne ⟨hpx, hqx⟩

theorem find?_placed {r x : ℕ} {taken : Finset ℕ} {col : ℕ} {spans : List Span} {p : Placed}
    (hp : p ∈ placed r (scan taken col spans).1 spans) (hx : x ∈ p.columns) :
    (placed r (scan taken col spans).1 spans).reverse.find? (fun p => x ∈ p.columns) = some p := by
  cases hfind : (placed r (scan taken col spans).1 spans).reverse.find? fun p => x ∈ p.columns with
  | none =>
    have hnone := List.find?_eq_none.mp hfind p (List.mem_reverse.mpr hp)
    exact absurd (decide_eq_true hx) hnone
  | some q =>
    have hq := List.mem_reverse.mp (List.mem_of_find?_eq_some hfind)
    have hqx := List.find?_some hfind
    rw [placed_unique hq (of_decide_eq_true hqx) hp hx]

/-- Only the columns from `col` on are looked for. -/
theorem first_free_range_union (taken : Finset ℕ) (col : ℕ) :
    first_free (Finset.range col ∪ taken) 0 = first_free taken col := by
  have hle := le_first_free taken col
  apply first_free_eq (Nat.zero_le _)
  · rw [Finset.mem_union, Finset.mem_range]
    rintro (hlt | hmem)
    · omega
    · exact first_free_not_mem taken col hmem
  · intro x _ hlt
    rw [Finset.mem_union, Finset.mem_range]
    by_cases hcol : x < col
    · exact .inl hcol
    · exact .inr (taken_of_lt_first_free (by omega) hlt)

/-- **Laying a row is scanning it**: all columns before `col` are occupied, and behind
it those taken when the row began. -/
theorem lay_row_eq_scan {r col : ℕ} {taken : Finset ℕ} {grid : List Placed} (spans : List Span)
    (hocc : occupied r grid = Finset.range col ∪ taken) :
    lay_row r grid spans = (placed r (scan taken col spans).1 spans).reverse ++ grid ∧
      occupied r (lay_row r grid spans) = Finset.range (scan taken col spans).2 ∪ taken := by
  induction spans generalizing grid col with
  | nil => exact ⟨rfl, hocc⟩
  | cons span spans ih =>
    have hheight := span.height_pos
    have hle := le_first_free taken col
    rw [lay_row, hocc, first_free_range_union, scan]
    have hnext : occupied r
        ({ span with row := r, col := first_free taken col } :: grid) =
          Finset.range (first_free taken col + span.width) ∪ taken := by
      rw [occupied, if_pos ⟨le_refl r, Nat.lt_add_of_pos_right hheight⟩, hocc]
      ext x
      simp only [Placed.columns, Finset.mem_union, Finset.mem_Ico, Finset.mem_range]
      constructor
      · rintro (hx | hx | hx)
        · exact .inl hx.2
        · exact .inl (by omega)
        · exact .inr hx
      · rintro (hx | hx)
        · by_cases hcell : first_free taken col ≤ x
          · exact .inl ⟨hcell, hx⟩
          · by_cases hcol : x < col
            · exact .inr (.inl hcol)
            · exact .inr (.inr (taken_of_lt_first_free (Nat.le_of_not_lt hcol)
                (Nat.lt_of_not_le hcell)))
        · exact .inr (.inr hx)
    obtain ⟨hgrid, hend⟩ := ih hnext
    refine ⟨?_, hend⟩
    rw [hgrid, placed, placed, List.zipWith_cons_cons, List.reverse_cons, List.append_assoc]
    rfl

theorem placed_cols {r : ℕ} {starts : List ℕ} {spans : List Span}
    (hlen : starts.length = spans.length) : (placed r starts spans).map Placed.col = starts := by
  induction starts generalizing spans with
  | nil => rfl
  | cons col starts ih =>
    cases spans with
    | nil => cases hlen
    | cons span spans =>
      rw [placed, List.zipWith_cons_cons, List.map_cons]
      exact congrArg (col :: ·) (ih (Nat.succ.inj hlen))

theorem card_range_union (taken : Finset ℕ) (col : ℕ) :
    (Finset.range col ∪ taken).card = col + left_over taken col := by
  have hsplit : Finset.range col ∪ taken = Finset.range col ∪ taken.filter fun x => col ≤ x := by
    ext x
    simp only [Finset.mem_union, Finset.mem_range, Finset.mem_filter]
    by_cases hx : x < col
    · simp [hx]
    · simp [hx, Nat.le_of_not_lt hx]
  have hdisjoint : Disjoint (Finset.range col) (taken.filter fun x => col ≤ x) := by
    rw [Finset.disjoint_left]
    intro x hx hmem
    rw [Finset.mem_range] at hx
    rw [Finset.mem_filter] at hmem
    omega
  rw [hsplit, Finset.card_union_of_disjoint hdisjoint, Finset.card_range, left_over]

/-- **The layout of a laid row is that of its scan.** -/
theorem row_layout_lay_row {r : ℕ} {grid : List Placed} (spans : List Span)
    (hrows : ∀ p ∈ grid, p.row < r) :
    row_layout r (lay_row r grid spans) = scan_layout (occupied r grid) spans := by
  have hstart : occupied r grid = Finset.range 0 ∪ occupied r grid := by simp
  obtain ⟨hgrid, hocc⟩ := lay_row_eq_scan spans hstart
  have hown : ((placed r (scan (occupied r grid) 0 spans).1 spans).reverse ++ grid).filter
      (fun p => p.row = r) = (placed r (scan (occupied r grid) 0 spans).1 spans).reverse := by
    rw [List.filter_append, List.filter_eq_self.mpr, List.filter_eq_nil_iff.mpr, List.append_nil]
    · intro p hp
      have hlt := hrows p hp
      simp only [decide_eq_true_eq]
      omega
    · intro p hp
      simpa using (mem_placed (List.mem_reverse.mp hp)).1
  have hcols := placed_cols (r := r) (scan_length (occupied r grid) 0 spans)
  rw [row_layout, hocc, hgrid, hown, List.reverse_reverse, card_range_union, scan_layout,
    Prod.mk.injEq]
  refine ⟨rfl, ?_⟩
  conv_rhs => rw [← hcols]
  apply List.map_congr_left
  intro p hp
  -- every column before the cell is occupied
  obtain ⟨-, -, hend, -⟩ := mem_placed hp
  have hwidth := p.width_pos
  have hbefore : ((Finset.range (scan (occupied r grid) 0 spans).2 ∪ occupied r grid).filter
      fun x => x < p.col) = Finset.range p.col := by
    ext x
    simp only [Finset.mem_filter, Finset.mem_union, Finset.mem_range]
    constructor
    · exact fun h => h.2
    · intro hx
      exact ⟨.inl (by omega), hx⟩
  rw [hbefore, Finset.card_range]

/-! ## Remembering the last cell -/

/-- How many rows from row `r` on the cell laid last over a column covers. -/
def carried (r : ℕ) (grid : List Placed) (x : ℕ) : ℕ :=
  (grid.find? fun p => x ∈ p.columns).elim 0 fun p => p.row + p.height - r

/-- The columns of row `r` that the cells laid last over them occupy. -/
def remembered (r : ℕ) (grid : List Placed) : Finset ℕ :=
  (occupied r grid).filter fun x => 0 < carried r grid x

def recalled_layouts : ℕ → List Placed → List (List Span) → List (ℕ × List ℕ)
  | _, _, [] => []
  | r, grid, spans :: rows =>
    scan_layout (remembered r grid) spans ::
      recalled_layouts (r + 1)
        ((placed r (scan (remembered r grid) 0 spans).1 spans).reverse ++ grid) rows

/-- Remembering only the last cells loses nothing: in every row, an occupied column
that is not remembered lies strictly inside a cell of the row. -/
def Faithful : ℕ → List Placed → List (List Span) → Prop
  | _, _, [] => True
  | r, grid, spans :: rows =>
    (∀ x ∈ occupied r grid, x ∉ remembered r grid →
      ∃ p ∈ lay_row r grid spans, p.row = r ∧ p.col < x ∧ x < p.col + p.width) ∧
      Faithful (r + 1) (lay_row r grid spans) rows

/-- A column is remembered while the cell laid last over it reaches down. -/
theorem mem_remembered {r x : ℕ} {grid : List Placed} (hrows : ∀ p ∈ grid, p.row ≤ r) :
    x ∈ remembered r grid ↔ 0 < carried r grid x := by
  rw [remembered, Finset.mem_filter, and_iff_right_iff_imp]
  intro hpos
  rw [carried] at hpos
  cases hlast : grid.find? fun p => x ∈ p.columns with
  | none =>
    rw [hlast] at hpos
    exact absurd hpos (Nat.lt_irrefl 0)
  | some p =>
    rw [hlast] at hpos
    have hmem := List.mem_of_find?_eq_some hlast
    have hx := List.find?_some hlast
    have hrow := hrows p hmem
    simp only [Option.elim_some] at hpos
    exact mem_occupied.mpr ⟨p, hmem, ⟨hrow, by omega⟩, by simpa using hx⟩

theorem carried_append {r x : ℕ} {cells grid : List Placed} (hrows : ∀ p ∈ cells, p.row = r) :
    carried (r + 1) (cells ++ grid) x =
      (cells.find? fun p => x ∈ p.columns).elim (carried r grid x - 1) fun p => p.height - 1 := by
  rw [carried, List.find?_append]
  cases hown : cells.find? fun p => x ∈ p.columns with
  | some p =>
    have hrow := hrows p (List.mem_of_find?_eq_some hown)
    simp only [Option.some_or, Option.elim_some, hrow]
    omega
  | none =>
    rw [Option.none_or, Option.elim_none, carried]
    cases grid.find? fun p => x ∈ p.columns with
    | none => rfl
    | some p =>
      simp only [Option.elim_some]
      omega

/-- From column `col` on, two scans agree when the columns only the second finds taken lie
strictly inside its cells. The induction is on the cells; a column that is taken only for the second
scan and does not lie so is where the first one lays the next cell. -/
theorem scan_eq_iff {r col : ℕ} {fewer taken : Finset ℕ} (spans : List Span)
    (hsub : fewer ⊆ taken) :
    (scan fewer col spans).1 = (scan taken col spans).1 ∧
      (scan fewer col spans).2 + left_over fewer (scan fewer col spans).2 =
        (scan taken col spans).2 + left_over taken (scan taken col spans).2 ↔
    ∀ x ∈ taken, x ∉ fewer → col ≤ x →
      ∃ p ∈ placed r (scan taken col spans).1 spans, p.col < x ∧ x < p.col + p.width := by
  induction spans generalizing col with
  | nil =>
    simp only [scan, placed, List.zipWith_nil_left, List.not_mem_nil, false_and, exists_false,
      imp_false, not_le, true_and, Nat.add_left_cancel_iff]
    rw [left_over, left_over]
    constructor
    · intro hcard x hx hnot
      by_contra hle
      have heq := Finset.eq_of_subset_of_card_le
        (Finset.filter_subset_filter (fun x => col ≤ x) hsub) (le_of_eq hcard.symm)
      have hmem : x ∈ fewer.filter fun x => col ≤ x := by
        rw [heq, Finset.mem_filter]
        exact ⟨hx, Nat.le_of_not_lt hle⟩
      exact hnot (Finset.mem_filter.mp hmem).1
    · intro h
      apply congrArg Finset.card
      ext x
      rw [Finset.mem_filter, Finset.mem_filter, and_congr_left_iff]
      intro hle
      refine ⟨fun hx => hsub hx, fun hx => ?_⟩
      by_contra hnot
      exact absurd (h x hx hnot) (Nat.not_lt.mpr hle)
  | cons span spans ih =>
    have hle := le_first_free taken col
    have hwidth := span.width_pos
    have hnext : first_free fewer col ≤ first_free taken col := by
      by_contra hlt
      exact first_free_not_mem taken col
        (hsub (taken_of_lt_first_free hle (Nat.lt_of_not_le hlt)))
    simp only [scan, placed, List.zipWith_cons_cons, List.exists_mem_cons_iff]
    by_cases heq : first_free fewer col = first_free taken col
    · rw [heq, List.cons.injEq, and_iff_right rfl, ih, placed]
      constructor
      · intro h x hx hnot hcol
        by_cases hbefore : x < first_free taken col
        · exact absurd (taken_of_lt_first_free hcol (heq ▸ hbefore)) hnot
        · have hfirst : x ≠ first_free taken col := by
            rintro rfl
            exact first_free_not_mem taken col hx
          by_cases hcell : x < first_free taken col + span.width
          · exact .inl ⟨Nat.lt_of_le_of_ne (Nat.le_of_not_lt hbefore) hfirst.symm, hcell⟩
          · exact .inr (h x hx hnot (Nat.le_of_not_lt hcell))
      · intro h x hx hnot hcol
        obtain hcell | hrest := h x hx hnot (by omega)
        · exact absurd hcell.2 (Nat.not_lt.mpr hcol)
        · exact hrest
    · -- the first scan lays its cell at a column that the second finds taken
      have hlt : first_free fewer col < first_free taken col := by omega
      have hcol := le_first_free fewer col
      constructor
      · intro h
        exact absurd (List.cons.inj h.1).1 heq
      · intro h
        exfalso
        obtain hcell | ⟨p, hp, hinside⟩ := h _ (taken_of_lt_first_free hcol hlt)
          (first_free_not_mem fewer col) hcol
        · exact absurd hcell.1 (Nat.not_lt.mpr hnext)
        · have hplaced := (mem_placed hp).2.1
          omega

/-- **Remembering the last cells gives the layouts of the grid exactly when it is faithful.** -/
theorem recalled_layouts_eq_iff {r : ℕ} {grid : List Placed} (rows : List (List Span))
    (hrows : ∀ p ∈ grid, p.row < r) :
    recalled_layouts r grid rows = layouts r grid rows ↔ Faithful r grid rows := by
  induction rows generalizing r grid with
  | nil => simp [recalled_layouts, layouts, Faithful]
  | cons spans rows ih =>
    have hstart : occupied r grid = Finset.range 0 ∪ occupied r grid := by simp
    obtain ⟨hgrid, -⟩ := lay_row_eq_scan spans hstart
    have hsub : remembered r grid ⊆ occupied r grid := Finset.filter_subset _ _
    have hhead : scan_layout (remembered r grid) spans = scan_layout (occupied r grid) spans ↔
        ∀ x ∈ occupied r grid, x ∉ remembered r grid →
          ∃ p ∈ lay_row r grid spans, p.row = r ∧ p.col < x ∧ x < p.col + p.width := by
      rw [scan_layout, scan_layout, Prod.mk.injEq, and_comm,
        scan_eq_iff (r := r) spans hsub, hgrid]
      constructor
      · intro h x hx hnot
        obtain ⟨p, hp, hinside⟩ := h x hx hnot (Nat.zero_le x)
        exact ⟨p, List.mem_append_left _ (List.mem_reverse.mpr hp), (mem_placed hp).1, hinside⟩
      · intro h x hx hnot _
        obtain ⟨p, hp, hrow, hinside⟩ := h x hx hnot
        obtain hp | hp := List.mem_append.mp hp
        · exact ⟨p, List.mem_reverse.mp hp, hinside⟩
        · exact absurd hrow (Nat.ne_of_lt (hrows p hp))
    rw [recalled_layouts, layouts, row_layout_lay_row spans hrows, List.cons.injEq, Faithful, hhead]
    refine and_congr_right fun hfaithful => ?_
    have hstarts : (scan (remembered r grid) 0 spans).1 = (scan (occupied r grid) 0 spans).1 :=
      congrArg Prod.snd (hhead.mpr hfaithful)
    rw [hstarts, ← hgrid]
    apply ih
    intro p hp
    rw [hgrid, List.mem_append, List.mem_reverse] at hp
    obtain hp | hp := hp
    · exact Nat.lt_succ_of_le (le_of_eq (mem_placed hp).1)
    · exact (hrows p hp).trans (Nat.lt_succ_self r)

end Grid
