/-
The **segment layer**: taking a list apart at the elements of a class.

A reader of a line format does four things to a text: it cuts it into lines at a
terminator, strips a class of symbols from both ends, splits what is left into
runs outside the class, and looks for the last occurrence of a symbol. Each
operation here comes with the lemma that says what it gives on a text that was
put together from parts the class cannot confuse.
-/
import Mathlib.Data.List.Basic
import Mathlib.Data.List.DropRight

set_option autoImplicit false

namespace Segments

variable {α : Type*} {p : α → Bool}

/-! ## Stripping both ends -/

/-- The list without the elements of the class at its two ends. -/
def strip (p : α → Bool) (l : List α) : List α := (l.dropWhile p).rdropWhile p

/-- Elements of the class in front go. -/
theorem strip_append_left {lead : List α} (hlead : ∀ a ∈ lead, p a = true) (l : List α) :
    strip p (lead ++ l) = strip p l := by
  rw [strip, strip, List.dropWhile_append_of_pos hlead]

/-- An element outside the class in front stops the stripping there. -/
theorem strip_cons {a : α} (ha : p a = false) (l : List α) :
    strip p (a :: l) = (a :: l).rdropWhile p := by
  rw [strip, List.dropWhile_cons_of_neg (by rw [ha]; exact Bool.false_ne_true)]

/-- Elements of the class at the end go. -/
theorem rdropWhile_append_of_forall {trail : List α} (htrail : ∀ a ∈ trail, p a = true)
    (l : List α) : (l ++ trail).rdropWhile p = l.rdropWhile p := by
  rw [List.rdropWhile, List.reverse_append,
    List.dropWhile_append_of_pos fun a ha => htrail a (List.mem_reverse.mp ha), List.rdropWhile]

/-- Up to an element outside the class nothing goes at the end. -/
theorem rdropWhile_append_cons {a : α} (ha : p a = false) (l m : List α) :
    (l ++ a :: m).rdropWhile p = l ++ a :: m.rdropWhile p := by
  induction m using List.reverseRecOn with
  | nil =>
    rw [List.rdropWhile_concat_neg p l a (by rw [ha]; exact Bool.false_ne_true)]
    rfl
  | append_singleton m b ih =>
    rw [← List.cons_append, ← List.append_assoc]
    by_cases hb : p b = true
    · rw [List.rdropWhile_concat_pos p _ b hb, List.rdropWhile_concat_pos p m b hb, ih]
    · rw [List.rdropWhile_concat_neg p _ b hb, List.rdropWhile_concat_neg p m b hb,
        List.append_assoc, List.cons_append]

/-- Two elements outside the class keep what is between them. -/
theorem strip_between {a b : α} (ha : p a = false) (hb : p b = false) (l m : List α) :
    strip p (a :: (l ++ b :: m)) = a :: (l ++ b :: m.rdropWhile p) := by
  rw [strip_cons ha, ← List.cons_append, rdropWhile_append_cons hb, List.cons_append]

/-- A list whose ends are outside the class keeps everything. -/
theorem strip_eq_self {l : List α} (hhead : ∀ a ∈ l.head?, p a = false)
    (hlast : ∀ a ∈ l.getLast?, p a = false) : strip p l = l := by
  cases l with
  | nil => rfl
  | cons a l =>
    rw [strip_cons (hhead a rfl), List.rdropWhile_eq_self_iff]
    intro hne
    rw [hlast _ (List.getLast?_eq_some_getLast hne)]
    exact Bool.false_ne_true

/-- So does a list with known ends outside it. -/
theorem strip_framed {l : List α} {a b : α} (hhead : l.head? = some a) (hlast : l.getLast? = some b)
    (ha : p a = false) (hb : p b = false) : strip p l = l := by
  refine strip_eq_self ?_ ?_
  · rw [hhead]
    rintro c ⟨⟩
    exact ha
  · rw [hlast]
    rintro c ⟨⟩
    exact hb

/-- An element of the class at the end is not seen. -/
theorem strip_concat {a : α} (ha : p a = true) (l : List α) : strip p (l ++ [a]) = strip p l := by
  induction l with
  | nil =>
    rw [List.nil_append, strip, List.dropWhile_cons_of_pos ha]
    rfl
  | cons b l ih =>
    by_cases hb : p b = true
    · rw [List.cons_append, strip, List.dropWhile_cons_of_pos hb, ← strip, ih, strip,
        strip, List.dropWhile_cons_of_pos hb]
    · rw [Bool.not_eq_true] at hb
      rw [List.cons_append, strip_cons hb, strip_cons hb, ← List.cons_append,
        rdropWhile_append_of_forall fun c hc => List.mem_singleton.mp hc ▸ ha]

/-! ## Prefixes -/

/-- An element that a pattern does not have ends the search for it. -/
theorem isPrefixOf_append_cons [DecidableEq α] {pattern : List α} {a : α} (ha : a ∉ pattern)
    (l m : List α) : pattern.isPrefixOf (l ++ a :: m) = pattern.isPrefixOf l := by
  induction pattern generalizing l with
  | nil => simp
  | cons b pattern ih =>
    have hba : (b == a) = false := beq_eq_false_iff_ne.mpr fun h => ha (h ▸ List.mem_cons_self)
    cases l with
    | nil => rw [List.nil_append, List.isPrefixOf_cons_cons, hba, Bool.false_and]; rfl
    | cons c l =>
      rw [List.cons_append, List.isPrefixOf_cons_cons, List.isPrefixOf_cons_cons,
        ih fun h => ha (List.mem_cons_of_mem b h)]

/-! ## Runs outside the class -/

/-- The runs of elements outside the class, in order. -/
def tokens (p : α → Bool) (l : List α) : List (List α) :=
  (l.splitOnP p).filter fun run => !run.isEmpty

/-- A run up to an element of the class is the first token. -/
theorem tokens_append_cons {run : List α} (hrun : ∀ a ∈ run, p a = false) (hne : run ≠ [])
    {a : α} (ha : p a = true) (l : List α) :
    tokens p (run ++ a :: l) = run :: tokens p l := by
  rw [tokens, List.splitOnP_append_cons_of_forall_mem hrun a ha,
    List.filter_cons_of_pos (by rwa [Bool.not_eq_true', List.isEmpty_eq_false_iff]), tokens]

theorem tokens_run {run : List α} (hrun : ∀ a ∈ run, p a = false) (hne : run ≠ []) :
    tokens p run = [run] := by
  rw [tokens, List.splitOnP_eq_singleton hrun,
    List.filter_cons_of_pos (by rwa [Bool.not_eq_true', List.isEmpty_eq_false_iff]),
    List.filter_nil]

/-- The first token goes on up to an element of the class. -/
theorem head_tokens_append {run : List α} (hrun : ∀ a ∈ run, p a = false) (hne : run ≠ [])
    (l : List α) :
    (tokens p (run ++ l)).head? = some (run ++ l.takeWhile fun a => !p a) := by
  have hall : ∀ a ∈ run ++ l.takeWhile (fun a => !p a), p a = false := by
    intro a ha
    rcases List.mem_append.mp ha with ha | ha
    · exact hrun a ha
    · simpa using List.all_eq_true.mp (@List.all_takeWhile _ (fun a => !p a) l) a ha
  have hne' : run ++ l.takeWhile (fun a => !p a) ≠ [] := List.append_ne_nil_of_left_ne_nil hne _
  have hsplit := @List.takeWhile_append_dropWhile _ (fun a => !p a) l
  have hstop := List.head?_dropWhile_not (fun a => !p a) l
  rcases hrest : l.dropWhile (fun a => !p a) with _ | ⟨a, rest⟩
  · rw [hrest, List.append_nil] at hsplit
    conv_lhs => rw [← hsplit, tokens_run hall hne']
    rfl
  · rw [hrest, List.head?_cons] at hstop
    rw [hrest] at hsplit
    conv_lhs => rw [← hsplit, ← List.append_assoc,
      tokens_append_cons hall hne' (by simpa using hstop)]
    rfl

/-! ## Segments between separators -/

/-- A segment of a text has only the text's elements, and not the separator. -/
theorem of_mem_splitOn [DecidableEq α] {sep : α} {l segment : List α}
    (h : segment ∈ l.splitOn sep) : sep ∉ segment ∧ segment ⊆ l := by
  induction l generalizing segment with
  | nil =>
    rw [List.splitOn_nil, List.mem_singleton] at h
    rw [h]
    exact ⟨List.not_mem_nil, List.nil_subset _⟩
  | cons a l ih =>
    rw [List.splitOn_cons_eq_if_modifyHead] at h
    by_cases ha : a = sep
    · rw [if_pos (beq_iff_eq.mpr ha)] at h
      rcases List.mem_cons.mp h with rfl | h
      · exact ⟨List.not_mem_nil, List.nil_subset _⟩
      · exact ⟨(ih h).1, List.subset_cons_of_subset a (ih h).2⟩
    · rw [if_neg fun hbeq => ha (beq_iff_eq.mp hbeq)] at h
      rcases hsplit : l.splitOn sep with _ | ⟨first, others⟩
      · exact absurd hsplit (List.splitOn_ne_nil sep l)
      · rw [hsplit] at h ih
        rcases List.mem_cons.mp h with rfl | h
        · obtain ⟨hsep, hsub⟩ := ih List.mem_cons_self
          exact ⟨List.not_mem_cons_of_ne_of_not_mem (Ne.symm ha) hsep,
            List.cons_subset_cons a hsub⟩
        · obtain ⟨hsep, hsub⟩ := ih (List.mem_cons_of_mem first h)
          exact ⟨hsep, List.subset_cons_of_subset a hsub⟩

/-- A separator behind the last segment makes the segments terminated ones. -/
theorem intercalate_append_sep (sep : α) {ls : List (List α)} (hls : ls ≠ []) :
    [sep].intercalate ls ++ [sep] = ls.flatMap (· ++ [sep]) := by
  induction ls with
  | nil => exact absurd rfl hls
  | cons l ls ih =>
    cases ls with
    | nil => rw [List.intercalate_singleton, List.flatMap_singleton]
    | cons m ls =>
      have hrest := ih (List.cons_ne_nil m ls)
      rw [List.intercalate_cons_cons, List.append_assoc, hrest]
      exact (List.flatMap_cons (f := (· ++ [sep]))).symm

theorem map_intercalate {β : Type*} (f : α → β) (sep : List α) (ls : List (List α)) :
    (sep.intercalate ls).map f = (sep.map f).intercalate (ls.map (·.map f)) := by
  induction ls with
  | nil => rfl
  | cons l ls ih =>
    cases ls with
    | nil => rw [List.intercalate_singleton, List.map_singleton, List.intercalate_singleton]
    | cons m ls =>
      rw [List.intercalate_cons_cons, List.map_append, List.map_append, ih]
      exact List.intercalate_cons_cons.symm

/-- A text of segments has no elements but theirs and the separator. -/
theorem not_mem_intercalate {a sep : α} (hsep : a ≠ sep) {ls : List (List α)}
    (hls : ∀ l ∈ ls, a ∉ l) : a ∉ [sep].intercalate ls := by
  induction ls with
  | nil => exact List.not_mem_nil
  | cons l ls ih =>
    have hl := hls l List.mem_cons_self
    have hrest := ih fun m hm => hls m (List.mem_cons_of_mem l hm)
    cases ls with
    | nil => rwa [List.intercalate_singleton]
    | cons m ls =>
      rw [List.intercalate_cons_cons, List.mem_append, List.mem_append, List.mem_singleton]
      rintro ((h | h) | h)
      · exact hl h
      · exact hsep h
      · exact hrest h

/-! ## The last occurrence -/

section LastIndex

variable [DecidableEq α]

/-- The index of the last occurrence of an element. -/
def lastIndex (a : α) (l : List α) : Option ℕ :=
  (l.reverse.findIdx? (· == a)).map fun i => l.length - 1 - i

/-- An occurrence with none behind it is the last one. -/
theorem lastIndex_append_cons {a : α} {m : List α} (hm : a ∉ m) (l : List α) :
    lastIndex a (l ++ a :: m) = some l.length := by
  have hidx : (l ++ a :: m).reverse.findIdx? (· == a) = some m.length := by
    rw [List.reverse_append, List.reverse_cons, List.append_assoc, List.findIdx?_append,
      List.findIdx?_eq_none_iff.mpr fun b hb =>
        beq_eq_false_iff_ne.mpr fun h : b = a => hm (h ▸ List.mem_reverse.mp hb)]
    simp [List.findIdx?_cons]
  rw [lastIndex, hidx, Option.map_some, List.length_append, List.length_cons]
  congr 1
  omega

omit [DecidableEq α] in
theorem exists_last_split {a : α} {l : List α} (h : a ∈ l) :
    ∃ before after, l = before ++ a :: after ∧ a ∉ after := by
  obtain ⟨s, t, hst, hs⟩ := List.eq_append_cons_of_mem (List.mem_reverse.mpr h)
  refine ⟨t.reverse, s.reverse, ?_, fun ha => hs (List.mem_reverse.mp ha)⟩
  rw [← List.reverse_reverse l, hst, List.reverse_append, List.reverse_cons, List.append_assoc]
  rfl

end LastIndex

end Segments
