/-
One row of an HTML table, against the occupancy grid.

The covered columns that a row starts with say for each column how many rows it
stays covered: `Holds` reads them as a function, with zero for a column that is not there. While
the cells are taken in turn, `Midway` ties the row state to the scan of the cells done so
far, and `row_cells_laid` reads the layout of the row, and what the next one starts
with, off its end.
-/
import Evidence.Corpus.Ingest.Html.Moves
import Evidence.Lib.Grid

set_option autoImplicit false

namespace Evidence.Corpus.Html

open Check Relation

/-! ## What a row shows -/

/-- The path of a node in the document. -/
def Candidate.dom_path (candidate : Candidate) : List UInt32 :=
  match candidate.locator with
  | .Html _ _ _ _ dom_path => dom_path
  | .Markdown _ _ _ _ _ => []
  | .Pdf _ _ _ => []

def cells_under (row : String) (candidates : List Candidate) : List Candidate :=
  candidates.filter fun candidate =>
    candidate.kind == .TableCell && candidate.parent_id == some row

/-- Where cells begin among the nodes from position `i` on: a node is an origin when its path is
the path of a cell, not of the row, and the node before it has another one. -/
def origins (row_path : List UInt32) : Option (List UInt32) → ℕ → List (List UInt32) → List ℕ
  | _, _, [] => []
  | before, i, path :: rest =>
    (if path ≠ row_path ∧ before ≠ some path then [i] else []) ++
      origins row_path (some path) (i + 1) rest

theorem origins_append {row_path : List UInt32} (before : Option (List UInt32)) (i : ℕ)
    (paths : List (List UInt32)) (path : List UInt32) :
    origins row_path before i (paths ++ [path]) = origins row_path before i paths ++
      if path ≠ row_path ∧ paths.getLast?.or before ≠ some path then [i + paths.length]
      else [] := by
  induction paths generalizing before i with
  | nil =>
    rw [List.nil_append, origins, origins, origins, List.append_nil, List.nil_append]
    rfl
  | cons first paths ih =>
    rw [List.cons_append, origins, ih, origins, List.append_assoc, List.getLast?_cons]
    have hlast : paths.getLast?.or (some first) = some (paths.getLast?.getD first) := by
      cases paths.getLast? <;> rfl
    rw [hlast, Option.some_or, List.length_cons, Nat.add_assoc, Nat.add_comm 1]

/-- Placeholders begin no cell. -/
theorem origins_append_placeholders {row_path : List UInt32} (paths : List (List UInt32)) (k : ℕ) :
    origins row_path none 0 (paths ++ List.replicate k row_path) =
      origins row_path none 0 paths := by
  induction k with
  | zero => rw [List.replicate_zero, List.append_nil]
  | succ k ih =>
    rw [List.replicate_succ', ← List.append_assoc, origins_append, ih, if_neg, List.append_nil]
    exact fun h => h.1 rfl

theorem origins_append_further {row_path path : List UInt32} (paths : List (List UInt32)) (k : ℕ) :
    origins row_path none 0 (paths ++ [path] ++ List.replicate k path) =
      origins row_path none 0 (paths ++ [path]) := by
  induction k with
  | zero => rw [List.replicate_zero, List.append_nil]
  | succ k ih =>
    rw [List.replicate_succ', ← List.append_assoc, origins_append, ih, if_neg, List.append_nil]
    rintro ⟨-, hlast⟩
    apply hlast
    rw [List.append_assoc, List.singleton_append, ← List.replicate_succ, List.replicate_succ',
      ← List.append_assoc, List.getLast?_concat, Option.some_or]

/-! ## The nodes of a row in a state -/

/-- The paths of the cell nodes under the `row`-th candidate, behind the first `n`. -/
def Adapter.row_paths (n row : ℕ) (a : Adapter) : List (List UInt32) :=
  (cells_under (provisional_id row) (a.candidates.drop n)).map Candidate.dom_path

variable {s : Setup} {base n id : ℕ} {a b : Adapter}

theorem drop_append_candidates {new : List Candidate} (hn : n ≤ a.candidates.length)
    (h : b.candidates = a.candidates ++ new) :
    b.candidates.drop n = a.candidates.drop n ++ new := by
  rw [h, List.drop_append_of_le_length hn]

theorem row_paths_append {new : List Candidate} (hn : n ≤ a.candidates.length)
    (h : b.candidates = a.candidates ++ new) :
    b.row_paths n id =
      a.row_paths n id ++ (cells_under (provisional_id id) new).map Candidate.dom_path := by
  rw [Adapter.row_paths, drop_append_candidates hn h, cells_under, List.filter_append,
    List.map_append]
  rfl

/-- What later rows emit is no cell of an earlier row. -/
theorem Placing.cells_under_nil {base low high id : ℕ} {new : List Candidate}
    (h : Placing base low high new) (hlt : id < base) :
    cells_under (provisional_id id) new = [] := by
  rw [cells_under, List.filter_eq_nil_iff]
  intro c hc hcell
  rw [Bool.and_eq_true, beq_iff_eq, beq_iff_eq] at hcell
  obtain ⟨row, hle, -, hparent⟩ := h.cells c hc hcell.1
  have hsame := Option.some.inj (hparent.symm.trans hcell.2)
  rw [provisional_id_inj] at hsame
  omega

/-- A walk among later rows leaves a row alone. -/
theorem row_paths_moves (hn : n ≤ a.candidates.length) (hid : id < base)
    (hmoves : Moves s base a b) : b.row_paths n id = a.row_paths n id := by
  obtain ⟨new, hnew, hplacing⟩ := hmoves.placing
  rw [row_paths_append hn hnew, hplacing.cells_under_nil hid, List.map_nil, List.append_nil]

theorem Moves.known (hmoves : Moves s base a b) (hn : n ≤ a.candidates.length) :
    n ≤ b.candidates.length := hn.trans hmoves.candidates_prefix.length_le

/-- One cell node more. -/
theorem emit_cell_row_paths {text : String} {sources : List ℕ} {path : List UInt32}
    (hn : n ≤ a.candidates.length)
    (h : emit_cell s (provisional_id id) text sources path a = .ok b) :
    b.row_paths n id = a.row_paths n id ++ [path] ∧ n ≤ b.candidates.length := by
  obtain ⟨out, hemit, hout⟩ := bind_ok_iff.mp h
  obtain ⟨-, rfl⟩ := emit_ok hemit
  cases hout
  refine ⟨?_, ?_⟩
  · rw [row_paths_append hn rfl, cells_under, List.filter_cons_of_pos]
    · rfl
    · rw [Bool.and_eq_true, beq_iff_eq, beq_iff_eq]
      exact ⟨rfl, rfl⟩
  · rw [Adapter.emitted, List.length_append]
    exact hn.trans (Nat.le_add_right _ _)

theorem emit_blank_cells_row_paths {path : List UInt32} {k : ℕ} (hn : n ≤ a.candidates.length)
    (h : emit_blank_cells s (provisional_id id) path k a = .ok b) :
    b.row_paths n id = a.row_paths n id ++ List.replicate k path ∧ n ≤ b.candidates.length := by
  induction k generalizing a with
  | zero =>
    cases h
    rw [List.replicate_zero, List.append_nil]
    exact ⟨rfl, hn⟩
  | succ k ih =>
    rw [emit_blank_cells] at h
    obtain ⟨c, hcell, hrest⟩ := bind_ok_iff.mp h
    obtain ⟨hpaths, hc⟩ := emit_cell_row_paths hn hcell
    obtain ⟨hall, hb⟩ := ih hc hrest
    refine ⟨?_, hb⟩
    rw [hall, hpaths, List.append_assoc, List.replicate_succ]
    rfl

/-- **A loop over covered columns** gives each a placeholder, and folds over its own state. -/
theorem placeholders_row_paths {σ : Type} {f : σ → ℕ × ℕ → σ} (path : List UInt32)
    {step : σ × Adapter → ℕ × ℕ → Except HtmlIngestError (σ × Adapter)}
    (hstep : ∀ state entry out, step state entry = .ok out →
      out.1 = f state.1 entry ∧ emit_cell s (provisional_id id) "" [] path state.2 = .ok out.2)
    {entries : List (ℕ × ℕ)} {state out : σ × Adapter} (hn : n ≤ state.2.candidates.length)
    (h : entries.foldlM step state = .ok out) :
    out.1 = entries.foldl f state.1 ∧
      out.2.row_paths n id = state.2.row_paths n id ++ List.replicate entries.length path ∧
      n ≤ out.2.candidates.length := by
  induction entries generalizing state with
  | nil =>
    cases h
    rw [List.length_nil, List.replicate_zero, List.append_nil]
    exact ⟨rfl, rfl, hn⟩
  | cons entry entries ih =>
    rw [List.foldlM_cons] at h
    obtain ⟨next, hnext, hrest⟩ := bind_ok_iff.mp h
    obtain ⟨hfold, hcell⟩ := hstep _ _ _ hnext
    obtain ⟨hpaths, hnext⟩ := emit_cell_row_paths hn hcell
    obtain ⟨hout, hall, hn'⟩ := ih hnext hrest
    refine ⟨?_, ?_, hn'⟩
    · rw [hout, hfold, List.foldl_cons]
    · rw [hall, hpaths, List.append_assoc, List.length_cons, List.replicate_succ]
      rfl

/-! ## Covered columns as a function -/

/-- A column that is covered for `rows` further rows; none when that is no row at all. -/
def covering (x rows : ℕ) : Option (ℕ × ℕ) := if 0 < rows then some (x, rows) else none

/-- The covered columns are those a function says, for as many rows as it says. -/
def Holds (covered : Covered) (rows : ℕ → ℕ) : Prop := ∀ x, covered.get x = covering x (rows x)

theorem Holds.empty : Holds Store.empty fun _ => 0 := fun x => Store.get_empty x

theorem Holds.congr {covered : Covered} {rows rows' : ℕ → ℕ} (h : Holds covered rows)
    (heq : ∀ x, rows x = rows' x) : Holds covered rows' := fun x => heq x ▸ h x

theorem covered_get_put (covered : Covered) (entry : ℕ × ℕ) (x : ℕ) :
    (covered.put entry).get x = if x = entry.1 then some entry else covered.get x := by
  rw [Store.get_put]
  by_cases hx : x = entry.1
  · rw [if_pos hx, if_pos hx.symm]
  · rw [if_neg hx, if_neg fun heq => hx heq.symm]

theorem Holds.keep {entries : List (ℕ × ℕ)} {pending : Covered} {rows left : ℕ → ℕ}
    (h : Holds pending rows) (hleft : ∀ e ∈ entries, e.2 = left e.1)
    (hnew : ∀ e ∈ entries, rows e.1 = 0 ∨ rows e.1 = left e.1 - 1) :
    Holds (entries.foldl keep_pending pending) fun x =>
      if x ∈ entries.map Prod.fst then left x - 1 else rows x := by
  induction entries generalizing pending rows with
  | nil => exact h
  | cons entry entries ih =>
    have hentry := hleft entry List.mem_cons_self
    have hfirst : Holds (keep_pending pending entry)
        fun x => if x = entry.1 then left x - 1 else rows x := by
      intro x
      show (keep_pending pending entry).get x =
        covering x (if x = entry.1 then left x - 1 else rows x)
      rw [keep_pending]
      by_cases hmore : entry.2 > 1
      · rw [if_pos hmore, covered_get_put]
        by_cases hx : x = entry.1
        · rw [if_pos hx, if_pos hx, covering, hx, ← hentry, if_pos (by omega)]
        · rw [if_neg hx, if_neg hx, h x]
      · rw [if_neg hmore, h x]
        by_cases hx : x = entry.1
        · -- the last row the column was covered for
          have hrows : rows x = left x - 1 := by
            have hcases := hnew entry List.mem_cons_self
            rw [hx]
            omega
          rw [if_pos hx, hrows]
        · rw [if_neg hx]
    refine (ih hfirst (fun e he => hleft e (List.mem_cons_of_mem _ he)) ?_).congr ?_
    · intro e he
      by_cases hx : e.1 = entry.1
      · rw [if_pos hx]
        exact .inr rfl
      · rw [if_neg hx]
        exact hnew e (List.mem_cons_of_mem _ he)
    · intro x
      by_cases hx : x = entry.1
      · simp only [List.map_cons, List.mem_cons, hx, true_or, if_true, ite_self]
      · simp only [List.map_cons, List.mem_cons, hx, false_or, if_false]

theorem Holds.put {entries : List (ℕ × ℕ)} {pending : Covered} {rows below : ℕ → ℕ}
    (h : Holds pending rows) (hbelow : ∀ e ∈ entries, e.2 = below e.1 ∧ 0 < e.2) :
    Holds (entries.foldl Store.put pending) fun x =>
      if x ∈ entries.map Prod.fst then below x else rows x := by
  induction entries generalizing pending rows with
  | nil => exact h
  | cons entry entries ih =>
    obtain ⟨hentry, hpos⟩ := hbelow entry List.mem_cons_self
    have hfirst : Holds (pending.put entry) fun x => if x = entry.1 then below x else rows x := by
      intro x
      show (pending.put entry).get x = covering x (if x = entry.1 then below x else rows x)
      rw [covered_get_put]
      by_cases hx : x = entry.1
      · rw [if_pos hx, if_pos hx, covering, hx, ← hentry, if_pos hpos]
      · rw [if_neg hx, if_neg hx, h x]
    refine (ih hfirst fun e he => hbelow e (List.mem_cons_of_mem _ he)).congr ?_
    intro x
    by_cases hx : x = entry.1
    · simp only [List.map_cons, List.mem_cons, hx, true_or, if_true, ite_self]
    · simp only [List.map_cons, List.mem_cons, hx, false_or, if_false]

/-! ## Runs of covered columns -/

theorem covered_run_sublist (col : ℕ) (entries : List (ℕ × ℕ)) :
    (covered_run col entries).Sublist entries := by
  induction entries generalizing col with
  | nil => exact .slnil
  | cons entry entries ih =>
    rw [covered_run]
    by_cases hcol : entry.1 = col
    · rw [if_pos hcol]
      exact (ih _).cons_cons _
    · rw [if_neg hcol]
      exact List.nil_sublist _

theorem covered_run_cols (col : ℕ) (entries : List (ℕ × ℕ)) :
    (covered_run col entries).map Prod.fst =
      List.range' col (covered_run col entries).length := by
  induction entries generalizing col with
  | nil => rfl
  | cons entry entries ih =>
    rw [covered_run]
    by_cases hcol : entry.1 = col
    · rw [if_pos hcol, List.map_cons, ih, List.length_cons, List.range'_succ, hcol]
    · rw [if_neg hcol]
      rfl

theorem covered_run_end {col : ℕ} {entries : List (ℕ × ℕ)}
    (hsorted : entries.Pairwise fun d e => d.1 < e.1) (hfrom : ∀ e ∈ entries, col ≤ e.1) :
    col + (covered_run col entries).length ∉ entries.map Prod.fst := by
  induction entries generalizing col with
  | nil => exact List.not_mem_nil
  | cons entry entries ih =>
    have hlater := (List.pairwise_cons.mp hsorted).1
    rw [covered_run, List.map_cons, List.mem_cons]
    by_cases hcol : entry.1 = col
    · rw [if_pos hcol, List.length_cons]
      rintro (heq | hmem)
      · omega
      · have hbehind : ∀ e ∈ entries, col + 1 ≤ e.1 := fun e he => hcol ▸ hlater e he
        have hrest := ih (List.pairwise_cons.mp hsorted).2 hbehind
        rw [Nat.add_assoc, Nat.add_comm 1] at hrest
        exact hrest hmem
    · rw [if_neg hcol, List.length_nil, Nat.add_zero]
      have hentry := hfrom entry List.mem_cons_self
      rintro (heq | hmem)
      · exact hcol heq.symm
      · obtain ⟨e, he, heq⟩ := List.mem_map.mp hmem
        have hlt := hlater e he
        omega


/-! ## A row, cell by cell -/

theorem span_pos {el : Element} {name : String} {max : ℕ} (hmax : 0 < max) :
    0 < span el name max := by
  rw [span, Nat.lt_min]
  refine ⟨?_, hmax⟩
  cases hvalue : ((el.attr name).bind parse_u32).filter fun n => decide (1 ≤ n) with
  | none => exact Nat.one_pos
  | some n =>
    have hn := (Option.filter_eq_some_iff.mp hvalue).2
    exact of_decide_eq_true hn

/-- The size of a cell. -/
def cell_span (el : Element) : Grid.Span where
  width := span el "colspan" MAX_COLSPAN
  height := span el "rowspan" MAX_ROWSPAN
  width_pos := span_pos (by decide)
  height_pos := span_pos (by decide)

/-- The sizes of the cells among a row's children. -/
def cell_spans : List Dom → List Grid.Span
  | [] => []
  | .Element el _ :: rest => if is_cell el then cell_span el :: cell_spans rest else cell_spans rest
  | .Text _ _ :: rest => cell_spans rest
  | .Other :: rest => cell_spans rest

/-- The state with one covered column passed. -/
def RowState.pass (row : RowState) (entry : ℕ × ℕ) : RowState :=
  { row with
    col := row.col + 1
    carry := row.carry.remove entry.1
    pending := keep_pending row.pending entry }

theorem foldl_pass (entries : List (ℕ × ℕ)) (row : RowState) :
    (entries.foldl RowState.pass row).col = row.col + entries.length ∧
      (entries.foldl RowState.pass row).pending = entries.foldl keep_pending row.pending ∧
      (entries.foldl RowState.pass row).new_pending = row.new_pending ∧
      ∀ x ∉ entries.map Prod.fst,
        (entries.foldl RowState.pass row).carry.get x = row.carry.get x := by
  induction entries generalizing row with
  | nil => exact ⟨rfl, rfl, rfl, fun _ _ => rfl⟩
  | cons entry entries ih =>
    obtain ⟨hcol, hpending, hnew, hcarry⟩ := ih (row.pass entry)
    refine ⟨?_, hpending, hnew, ?_⟩
    · rw [List.foldl_cons, hcol, List.length_cons]
      show row.col + 1 + entries.length = row.col + (entries.length + 1)
      omega
    · intro x hx
      rw [List.map_cons, List.mem_cons, not_or] at hx
      rw [List.foldl_cons, hcarry x hx.2, RowState.pass, Store.get_remove, if_neg]
      exact fun heq => hx.1 heq.symm

/-- **A row that has come some way**: `done` are the cells so far, laid out by a scan that takes
the columns the grid remembers. Behind the column the row has reached, it finds covered what it
found covered at its start. -/
structure Midway (r : ℕ) (grid : List Grid.Placed) (n id : ℕ) (row_path : List UInt32)
    (done : List Grid.Span) (index : UInt32) (row : RowState) (a : Adapter) : Prop where
  known : n ≤ a.candidates.length
  col : row.col = (Grid.scan (Grid.remembered r grid) 0 done).2
  length : (a.row_paths n id).length = row.col
  starts : origins row_path none 0 (a.row_paths n id) =
    (Grid.scan (Grid.remembered r grid) 0 done).1
  last : (a.row_paths n id).getLast? ≠ some (row_path ++ [index])
  carry : ∀ x, row.col ≤ x → row.carry.get x = covering x (Grid.carried r grid x)
  pending : Holds row.pending fun x =>
    if x < row.col ∧ ∀ p ∈ Grid.placed r (Grid.scan (Grid.remembered r grid) 0 done).1 done,
      x ∉ p.columns then Grid.carried r grid x - 1 else 0
  new_pending : row.new_pending =
    (Grid.placed r (Grid.scan (Grid.remembered r grid) 0 done).1 done).flatMap fun p =>
      spanned p.col p.width p.height

section Row

variable {r : ℕ} {grid : List Grid.Placed} {row_path : List UInt32} {done : List Grid.Span}
  {index : UInt32} {row : RowState}

theorem Midway.start {pending : Covered} (hn : n ≤ a.candidates.length)
    (hfresh : a.row_paths n id = []) (hcovered : Holds pending (Grid.carried r grid)) :
    Midway r grid n id row_path [] 0 (.start pending) a where
  known := hn
  col := rfl
  length := by
    rw [hfresh]
    rfl
  starts := by
    rw [hfresh]
    rfl
  last := by
    rw [hfresh]
    simp
  carry := fun x _ => hcovered x
  pending := by
    refine Holds.empty.congr fun x => ?_
    rw [if_neg]
    exact fun h => absurd h.1 (Nat.not_lt_zero x)
  new_pending := rfl

/-- What is covered ahead, column by column. -/
theorem Midway.mem_ahead (h : Midway r grid n id row_path done index row a) {e : ℕ × ℕ} :
    e ∈ row.ahead ↔ row.col ≤ e.1 ∧ e.2 = Grid.carried r grid e.1 ∧ 0 < e.2 := by
  rw [RowState.ahead, List.mem_filter, Store.mem_values, decide_eq_true_eq, and_comm]
  refine and_congr_right fun hcol => ?_
  rw [h.carry e.1 hcol, covering]
  by_cases hpos : 0 < Grid.carried r grid e.1
  · rw [if_pos hpos, Option.some.injEq]
    constructor
    · intro heq
      have hcarried := congrArg Prod.snd heq
      exact ⟨hcarried.symm, hcarried ▸ hpos⟩
    · rintro ⟨heq, -⟩
      exact Prod.ext rfl heq.symm
  · rw [if_neg hpos]
    constructor
    · intro heq
      cases heq
    · rintro ⟨heq, he⟩
      exact absurd (heq ▸ he) hpos

theorem Midway.ahead_cols (h : Midway r grid n id row_path done index row a)
    (hrows : ∀ p ∈ grid, p.row ≤ r) {x : ℕ} :
    x ∈ row.ahead.map Prod.fst ↔ row.col ≤ x ∧ x ∈ Grid.remembered r grid := by
  rw [Grid.mem_remembered hrows, List.mem_map]
  constructor
  · rintro ⟨e, he, rfl⟩
    obtain ⟨hcol, heq, hpos⟩ := h.mem_ahead.mp he
    exact ⟨hcol, heq ▸ hpos⟩
  · rintro ⟨hcol, hpos⟩
    exact ⟨(x, Grid.carried r grid x), h.mem_ahead.mpr ⟨hcol, rfl, hpos⟩, rfl⟩

theorem ahead_sorted (row : RowState) : row.ahead.Pairwise fun d e => d.1 < e.1 := by
  refine List.Pairwise.filter _ ?_
  refine row.carry.values_sorted.imp ?_
  intro d e hlt
  exact Nat.compare_eq_lt.mp hlt

theorem Midway.run_end (h : Midway r grid n id row_path done index row a)
    (hrows : ∀ p ∈ grid, p.row ≤ r) :
    row.col + (covered_run row.col row.ahead).length =
      Grid.first_free (Grid.remembered r grid) row.col := by
  refine (Grid.first_free_eq (Nat.le_add_right _ _) ?_ ?_).symm
  · intro hmem
    refine covered_run_end (ahead_sorted row) (fun e he => (h.mem_ahead.mp he).1) ?_
    exact (h.ahead_cols hrows).mpr ⟨Nat.le_add_right _ _, hmem⟩
  · intro x hle hlt
    have hmem : x ∈ (covered_run row.col row.ahead).map Prod.fst := by
      rw [covered_run_cols, List.mem_range'_1]
      exact ⟨hle, hlt⟩
    exact ((h.ahead_cols hrows).mp (((covered_run_sublist _ _).map _).mem hmem)).2

/-- The cell nodes of a state are not changed by what leaves the row alone. -/
theorem Midway.later (h : Midway r grid n id row_path done index row a) (hbase : id < base)
    (hmoves : Moves s base a b) : Midway r grid n id row_path done index row b := by
  have hpaths := row_paths_moves h.known hbase hmoves
  exact ⟨hmoves.known h.known, h.col, hpaths ▸ h.length, hpaths ▸ h.starts, hpaths ▸ h.last,
    h.carry, h.pending, h.new_pending⟩

/-- What is done for one cell: the placeholders before it, its origin, and its further nodes. -/
theorem cell_nodes_row_paths [UnicodeTables] {el : Element} {children : List Dom}
    {cell_path : List UInt32} {out : RowState × Adapter} (hn : n ≤ a.candidates.length)
    (h : cell_nodes s (provisional_id id) row_path el children cell_path row a = .ok out) :
    ∃ passed : RowState, passed = (covered_run row.col row.ahead).foldl RowState.pass row ∧
      out.1 = { passed with
        col := passed.col + (cell_span el).width
        new_pending := passed.new_pending ++
          spanned passed.col (cell_span el).width (cell_span el).height } ∧
      out.2.row_paths n id =
        a.row_paths n id ++ List.replicate (covered_run row.col row.ahead).length row_path ++
          [cell_path] ++ List.replicate ((cell_span el).width - 1) cell_path ∧
      n ≤ out.2.candidates.length := by
  obtain ⟨⟨passed, b⟩, hpass, h⟩ := bind_ok_iff.mp h
  obtain ⟨c, horigin, h⟩ := bind_ok_iff.mp h
  obtain ⟨d, hblank, hout⟩ := bind_ok_iff.mp h
  rw [← Except.ok.inj hout]
  have hstep : ∀ (state : RowState × Adapter) (entry : ℕ × ℕ) (next : RowState × Adapter),
      pass_covered s (provisional_id id) row_path state entry = .ok next →
        next.1 = state.1.pass entry ∧
          emit_cell s (provisional_id id) "" [] row_path state.2 = .ok next.2 := by
    intro state entry next hnext
    obtain ⟨e, hemit, hnext⟩ := bind_ok_iff.mp hnext
    rw [← Except.ok.inj hnext]
    exact ⟨rfl, hemit⟩
  obtain ⟨hpassed, hbpaths, hb⟩ := placeholders_row_paths row_path hstep hn hpass
  have hquiet := collect_quiet false children cell_path b
  have hcollected : n ≤ (collect false children cell_path b).1.candidates.length := by
    rwa [hquiet.candidates]
  obtain ⟨hcpaths, hc⟩ := emit_cell_row_paths hcollected horigin
  obtain ⟨hdpaths, hd⟩ := emit_blank_cells_row_paths hc hblank
  have hsame : (collect false children cell_path b).1.row_paths n id = b.row_paths n id := by
    rw [Adapter.row_paths, hquiet.candidates, Adapter.row_paths]
  refine ⟨passed, hpassed, rfl, ?_, hd⟩
  rw [hdpaths, hcpaths, hsame, hbpaths]
  rfl

/-- Where the nodes of a cell begin, behind placeholders. -/
theorem origins_cell {paths : List (List UInt32)} (k width : ℕ)
    (hlast : paths.getLast? ≠ some (row_path ++ [index])) :
    origins row_path none 0 (paths ++ List.replicate k row_path ++ [row_path ++ [index]] ++
        List.replicate width (row_path ++ [index])) =
      origins row_path none 0 paths ++ [paths.length + k] := by
  have hown : row_path ++ [index] ≠ row_path := by
    intro heq
    have hlen := congrArg List.length heq
    rw [List.length_append, List.length_singleton] at hlen
    omega
  rw [origins_append_further, origins_append, origins_append_placeholders, if_pos, Nat.zero_add,
    List.length_append, List.length_replicate]
  refine ⟨hown, fun heq => ?_⟩
  rw [Option.or_none] at heq
  cases k with
  | zero =>
    rw [List.replicate_zero, List.append_nil] at heq
    exact hlast heq
  | succ k =>
    rw [List.replicate_succ', ← List.append_assoc, List.getLast?_concat, Option.some.injEq] at heq
    exact hown heq.symm

theorem cell_path_ne : some (row_path ++ [index]) ≠ some (row_path ++ [index + 1]) := by
  intro heq
  have hindex := List.head_eq_of_cons_eq (List.append_cancel_left (Option.some.inj heq))
  simp at hindex

/-- Behind a cell, the columns that stay pending are those before, and those it passed. -/
theorem kept_columns {x low : ℕ} (cell : Grid.Placed) {uncovered : Prop}
    [Decidable uncovered] (hle : low ≤ cell.col) (huncovered : low ≤ x → uncovered) (rows : ℕ) :
    (if low ≤ x ∧ x < cell.col then rows else if x < low ∧ uncovered then rows else 0) =
      if x < cell.col + cell.width ∧ uncovered ∧ x ∉ cell.columns then rows else 0 := by
  have hcell : x ∈ cell.columns ↔ cell.col ≤ x ∧ x < cell.col + cell.width := Finset.mem_Ico
  by_cases hlow : low ≤ x
  · have hnot : ¬ (x < low ∧ uncovered) := fun h => Nat.not_lt.mpr hlow h.1
    rw [if_neg hnot]
    by_cases hpassed : x < cell.col
    · have hoff : x ∉ cell.columns := fun h => Nat.not_lt.mpr (hcell.mp h).1 hpassed
      rw [if_pos ⟨hlow, hpassed⟩, if_pos ⟨by omega, huncovered hlow, hoff⟩]
    · have hon : ¬ (x < cell.col + cell.width ∧ uncovered ∧ x ∉ cell.columns) := by
        rintro ⟨hlt, -, hoff⟩
        exact hoff (hcell.mpr ⟨Nat.le_of_not_lt hpassed, hlt⟩)
      rw [if_neg fun h => hpassed h.2, if_neg hon]
  · have hoff : x ∉ cell.columns := fun h => hlow (hle.trans (hcell.mp h).1)
    rw [if_neg fun h => hlow h.1]
    by_cases hopen : uncovered
    · rw [if_pos ⟨by omega, hopen⟩, if_pos ⟨by omega, hopen, hoff⟩]
    · rw [if_neg fun h => hopen h.2, if_neg fun h => hopen h.2.1]

/-- **One cell**: the next of the scan. -/
theorem Midway.cell [UnicodeTables] {el : Element} {children : List Dom}
    {out : RowState × Adapter} (h : Midway r grid n id row_path done index row a)
    (hrows : ∀ p ∈ grid, p.row ≤ r)
    (hcell : cell_nodes s (provisional_id id) row_path el children (row_path ++ [index]) row a =
      .ok out) :
    Midway r grid n id row_path (done ++ [cell_span el]) (index + 1) out.1 out.2 := by
  obtain ⟨passed, hpassed, hout, hpaths, hknown⟩ := cell_nodes_row_paths h.known hcell
  obtain ⟨hcol, hpending, hnew, hcarry⟩ := foldl_pass (covered_run row.col row.ahead) row
  rw [← hpassed] at hcol hpending hnew hcarry
  have hend := h.run_end hrows
  have hfree : passed.col = Grid.first_free (Grid.remembered r grid)
      (Grid.scan (Grid.remembered r grid) 0 done).2 := by
    rw [hcol, hend, h.col]
  have hwidth := (cell_span el).width_pos
  have hscan := Grid.scan_append (Grid.remembered r grid) 0 done (cell_span el)
  have hplaced := Grid.placed_append (r := r) passed.col (cell_span el)
    (Grid.scan_length (Grid.remembered r grid) 0 done)
  rw [← hfree] at hscan
  have hkept : Holds passed.pending fun x =>
      if x < passed.col + (cell_span el).width ∧
        ∀ p ∈ Grid.placed r (Grid.scan (Grid.remembered r grid) 0 done).1 done ++
          [{ cell_span el with row := r, col := passed.col }], x ∉ p.columns
      then Grid.carried r grid x - 1 else 0 := by
    have hleft : ∀ e ∈ covered_run row.col row.ahead, e.2 = Grid.carried r grid e.1 := by
      intro e he
      exact (h.mem_ahead.mp ((covered_run_sublist _ _).mem he)).2.1
    rw [hpending]
    refine (h.pending.keep hleft ?_).congr ?_
    · intro e he
      have hle := (h.mem_ahead.mp ((covered_run_sublist _ _).mem he)).1
      refine .inl (if_neg ?_)
      omega
    · intro x
      have hbefore : ∀ p ∈ Grid.placed r (Grid.scan (Grid.remembered r grid) 0 done).1 done,
          x ∈ p.columns → x < row.col := by
        intro p hp hx
        have hle := (Grid.mem_placed hp).2.2.1
        rw [h.col]
        exact (Finset.mem_Ico.mp hx).2.trans_le hle
      simp only [covered_run_cols, List.mem_range'_1, ← hcol, List.mem_append,
        List.mem_singleton, or_imp, forall_and, forall_eq]
      have hle : row.col ≤ passed.col := hcol ▸ Nat.le_add_right _ _
      let cell : Grid.Placed := { cell_span el with row := r, col := passed.col }
      refine kept_columns cell hle ?_ _
      intro hle p hp hx
      exact Nat.not_lt.mpr hle (hbefore p hp hx)
  refine ⟨hknown, ?_, ?_, ?_, ?_, ?_, ?_, ?_⟩
  · rw [hout, hscan]
  · rw [hout, hpaths, List.length_append, List.length_append, List.length_append, h.length,
      List.length_singleton, List.length_replicate, List.length_replicate, hcol]
    show row.col + _ + 1 + ((cell_span el).width - 1) = row.col + _ + (cell_span el).width
    omega
  · rw [hpaths, origins_cell _ _ h.last, h.starts, h.length, ← hcol, hscan]
  · rw [hpaths, List.append_assoc, List.singleton_append, ← List.replicate_succ,
      List.replicate_succ', ← List.append_assoc, List.getLast?_concat]
    exact cell_path_ne
  · rw [hout]
    intro x hx
    have hbehind : passed.col ≤ x := (Nat.le_add_right _ _).trans hx
    have hrun : x ∉ (covered_run row.col row.ahead).map Prod.fst := by
      rw [covered_run_cols, List.mem_range'_1]
      omega
    have hle : row.col ≤ x := (hcol ▸ Nat.le_add_right _ _ : row.col ≤ passed.col).trans hbehind
    exact (hcarry x hrun).trans (h.carry x hle)
  · rw [hout, hscan, hplaced]
    exact hkept
  · rw [hout, hscan, hplaced, List.flatMap_append, List.flatMap_singleton, ← h.new_pending, ← hnew]

/-- What a row that is done shows, and what the next one finds covered. -/
structure Laid (r : ℕ) (grid : List Grid.Placed) (n id : ℕ) (row_path : List UInt32)
    (spans : List Grid.Span) (out : Covered × Adapter) : Prop where
  known : n ≤ out.2.candidates.length
  layout : ((out.2.row_paths n id).length, origins row_path none 0 (out.2.row_paths n id)) =
    Grid.scan_layout (Grid.remembered r grid) spans
  covered : Holds out.1 (Grid.carried (r + 1)
    ((Grid.placed r (Grid.scan (Grid.remembered r grid) 0 spans).1 spans).reverse ++ grid))

theorem mem_spanned {col width height : ℕ} {e : ℕ × ℕ} :
    e ∈ spanned col width height ↔
      (col ≤ e.1 ∧ e.1 < col + width) ∧ e.2 = height - 1 ∧ 1 < height := by
  rw [spanned]
  by_cases hhigh : height > 1
  · rw [if_pos hhigh, List.mem_map]
    constructor
    · rintro ⟨x, hx, rfl⟩
      exact ⟨List.mem_range'_1.mp hx, rfl, hhigh⟩
    · rintro ⟨hx, heq, -⟩
      exact ⟨e.1, List.mem_range'_1.mpr hx, Prod.ext rfl heq.symm⟩
  · rw [if_neg hhigh]
    constructor
    · intro he
      cases he
    · intro he
      exact absurd he.2.2 hhigh

/-- As many placeholders as the scan leaves over. -/
theorem Midway.ahead_length (h : Midway r grid n id row_path done index row a)
    (hrows : ∀ p ∈ grid, p.row ≤ r) :
    row.ahead.length = Grid.left_over (Grid.remembered r grid) row.col := by
  have hnodup : (row.ahead.map Prod.fst).Nodup := by
    refine List.pairwise_map.mpr ((ahead_sorted row).imp ?_)
    intro d e hlt
    exact Nat.ne_of_lt hlt
  rw [Grid.left_over, ← List.length_map Prod.fst, ← List.toFinset_card_of_nodup hnodup]
  congr 1
  ext x
  rw [List.mem_toFinset, h.ahead_cols hrows, Finset.mem_filter, and_comm]

theorem Midway.mem_new_pending (h : Midway r grid n id row_path done index row a) {e : ℕ × ℕ} :
    e ∈ row.new_pending ↔
      ∃ p ∈ Grid.placed r (Grid.scan (Grid.remembered r grid) 0 done).1 done,
        e.1 ∈ p.columns ∧ e.2 = p.height - 1 ∧ 1 < p.height := by
  rw [h.new_pending, List.mem_flatMap]
  refine exists_congr fun p => and_congr_right fun _ => ?_
  rw [mem_spanned, Grid.Placed.columns, Finset.mem_Ico]

/-- **What the next row finds covered** is what the grid remembers. -/
theorem Midway.covered (h : Midway r grid n id row_path done index row a)
    (hrows : ∀ p ∈ grid, p.row ≤ r) :
    Holds (row.new_pending.foldl Store.put (row.ahead.foldl keep_pending row.pending))
      (Grid.carried (r + 1)
        ((Grid.placed r (Grid.scan (Grid.remembered r grid) 0 done).1 done).reverse ++ grid)) := by
  have hleft : ∀ e ∈ row.ahead, e.2 = Grid.carried r grid e.1 := by
    intro e he
    exact (h.mem_ahead.mp he).2.1
  have hkept := h.pending.keep hleft (by
    intro e he
    have hle := (h.mem_ahead.mp he).1
    exact .inl (if_neg fun hbefore => Nat.not_lt.mpr hle hbefore.1))
  have hown : ∀ p ∈ (Grid.placed r (Grid.scan (Grid.remembered r grid) 0 done).1 done).reverse,
      p.row = r := by
    intro p hp
    exact (Grid.mem_placed (List.mem_reverse.mp hp)).1
  have hbelow : ∀ e ∈ row.new_pending,
      e.2 = Grid.carried (r + 1) ((Grid.placed r
        (Grid.scan (Grid.remembered r grid) 0 done).1 done).reverse ++ grid) e.1 ∧ 0 < e.2 := by
    intro e he
    obtain ⟨p, hp, hx, heq, hhigh⟩ := h.mem_new_pending.mp he
    rw [Grid.carried_append hown, Grid.find?_placed hp hx, Option.elim_some]
    exact ⟨heq, by omega⟩
  refine (hkept.put hbelow).congr fun x => ?_
  by_cases hnew : x ∈ row.new_pending.map Prod.fst
  · rw [if_pos hnew]
  · rw [if_neg hnew, Grid.carried_append hown]
    by_cases hcell : ∃ p ∈ Grid.placed r (Grid.scan (Grid.remembered r grid) 0 done).1 done,
        x ∈ p.columns
    · -- a cell of the row that covers no further row
      obtain ⟨p, hp, hx⟩ := hcell
      have hlow : ¬ 1 < p.height := by
        intro hhigh
        exact hnew (List.mem_map.mpr
          ⟨(x, p.height - 1), h.mem_new_pending.mpr ⟨p, hp, hx, rfl, hhigh⟩, rfl⟩)
      have hbefore : x < row.col := by
        rw [h.col]
        exact (Finset.mem_Ico.mp hx).2.trans_le (Grid.mem_placed hp).2.2.1
      have hahead : x ∉ row.ahead.map Prod.fst :=
        fun hmem => Nat.not_lt.mpr ((h.ahead_cols hrows).mp hmem).1 hbefore
      rw [if_neg hahead, if_neg fun hopen => hopen.2 p hp hx, Grid.find?_placed hp hx,
        Option.elim_some]
      omega
    · -- no cell of the row stands there: the column is passed, before a cell or at the end
      have hnone : (Grid.placed r (Grid.scan (Grid.remembered r grid) 0 done).1
          done).reverse.find? (fun p => decide (x ∈ p.columns)) = none := by
        rw [List.find?_eq_none]
        intro p hp hx
        exact hcell ⟨p, List.mem_reverse.mp hp, of_decide_eq_true hx⟩
      rw [hnone, Option.elim_none]
      by_cases hahead : x ∈ row.ahead.map Prod.fst
      · rw [if_pos hahead]
      · rw [if_neg hahead]
        by_cases hbefore : x < row.col
        · rw [if_pos ⟨hbefore, fun p hp hx => hcell ⟨p, hp, hx⟩⟩]
        · rw [if_neg fun hopen => hbefore hopen.1]
          have hgone : x ∉ Grid.remembered r grid := fun hmem =>
            hahead ((h.ahead_cols hrows).mpr ⟨Nat.le_of_not_lt hbefore, hmem⟩)
          rw [Grid.mem_remembered hrows] at hgone
          omega

/-- **The end of a row.** -/
theorem Midway.finish {out : Covered × Adapter} (h : Midway r grid n id row_path done index row a)
    (hrows : ∀ p ∈ grid, p.row ≤ r)
    (hfinish : finish_row s (provisional_id id) row_path row a = .ok out) :
    Laid r grid n id row_path done out := by
  obtain ⟨⟨pending, b⟩, hloop, hout⟩ := bind_ok_iff.mp hfinish
  rw [← Except.ok.inj hout]
  have hstep : ∀ (state : Covered × Adapter) (entry : ℕ × ℕ) (next : Covered × Adapter),
      (do
        let a ← emit_cell s (provisional_id id) "" [] row_path state.2
        .ok (keep_pending state.1 entry, a)) = Except.ok next →
        next.1 = keep_pending state.1 entry ∧
          emit_cell s (provisional_id id) "" [] row_path state.2 = .ok next.2 := by
    intro state entry next hnext
    obtain ⟨c, hemit, hnext⟩ := bind_ok_iff.mp hnext
    rw [← Except.ok.inj hnext]
    exact ⟨rfl, hemit⟩
  obtain ⟨hpending, hpaths, hknown⟩ := placeholders_row_paths row_path hstep h.known hloop
  refine ⟨hknown, ?_, ?_⟩
  · rw [hpaths, origins_append_placeholders, h.starts, List.length_append, List.length_replicate,
      h.length, h.ahead_length hrows, h.col, Grid.scan_layout]
  · have hcovered := h.covered hrows
    rw [← hpending] at hcovered
    exact hcovered

/-- **The cells of a row, one after the other.** The nested blocks of a cell emit nothing under the
row. -/
theorem row_cells_laid [UnicodeTables] [StrDebug] (nodes : List Dom)
    (hrows : ∀ p ∈ grid, p.row ≤ r) {out : Covered × Adapter}
    (h : Midway r grid n id row_path done index row a) (hhas : a.Has id .TableRow)
    (hcells : row_cells s (provisional_id id) row_path nodes index row a = .ok out) :
    Laid r grid n id row_path (done ++ cell_spans nodes) out := by
  induction nodes generalizing done index row a with
  | nil =>
    rw [cell_spans, List.append_nil]
    exact h.finish hrows hcells
  | cons node rest ih =>
    cases node with
    | Text text_id text => exact ih h hhas hcells
    | Other => exact ih h hhas hcells
    | Element el children =>
      rw [row_cells] at hcells
      rw [cell_spans]
      by_cases hcell : is_cell el = true
      · rw [if_pos hcell] at hcells
        rw [if_pos hcell, ← List.singleton_append, ← List.append_assoc]
        obtain ⟨⟨next, c⟩, hone, hrest⟩ := bind_ok_iff.mp hcells
        rw [row_cell] at hone
        obtain ⟨⟨filled, b⟩, hnodes, hone⟩ := bind_ok_iff.mp hone
        obtain ⟨d, hnested, hone⟩ := bind_ok_iff.mp hone
        cases hone
        have hfilled := h.cell hrows hnodes
        have hmoves := (cell_nodes_ok (le_refl id) hhas hnodes).moves
        have hlater := ((walks s children).nested _ _ _ _ _ (le_refl _) hnested).moves
        have hhas' := hhas.later hmoves
        exact ih (hfilled.later hhas'.1 hlater) (hhas'.later hlater) hrest
      · rw [if_neg hcell] at hcells
        rw [if_neg hcell]
        exact ih h hhas hcells

end Row

end Evidence.Corpus.Html
