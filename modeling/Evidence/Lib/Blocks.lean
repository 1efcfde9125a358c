/-
The **block layer**: lists cut into blocks by the items that mark their ends.

An item may open a block under a name, and it may end the one before it; an item
that opens a block ends the one before it as well. The block an item opens is what
follows it up to the next item that marks an end. A list can be read in parts that
begin with such an item.
-/
import Mathlib.Data.List.TakeWhile

set_option autoImplicit false

namespace Blocks

section Blocks

variable {α κ β : Type} (opens : α → Option κ) (ends : α → Bool)

/-- An item at which a block ends. -/
def marks (a : α) : Bool := (opens a).isSome || ends a

/-- The blocks of a list, in order: what each opening item is followed by, up to the
next end. -/
def found : List α → List (κ × List α)
  | [] => []
  | a :: items =>
    match opens a with
    | some k => (k, items.takeWhile fun a => !marks opens ends a) :: found items
    | none => found items

variable {opens ends}

theorem found_cons_none {a : α} (h : opens a = none) (items : List α) :
    found opens ends (a :: items) = found opens ends items := by
  rw [found, h]

theorem found_cons_some {a : α} {k : κ} (h : opens a = some k) (items : List α) :
    found opens ends (a :: items) =
      (k, items.takeWhile fun a => !marks opens ends a) :: found opens ends items := by
  rw [found, h]

theorem found_append_none {lead : List α} (h : ∀ a ∈ lead, opens a = none) (items : List α) :
    found opens ends (lead ++ items) = found opens ends items := by
  induction lead with
  | nil => rfl
  | cons a lead ih =>
    rw [List.cons_append, found_cons_none (h a List.mem_cons_self),
      ih fun b hb => h b (List.mem_cons_of_mem a hb)]

/-- **A list is read in parts** that begin with a marking item. -/
theorem found_append_marks {m : α} (hm : marks opens ends m = true) (first rest : List α) :
    found opens ends (first ++ m :: rest) =
      found opens ends first ++ found opens ends (m :: rest) := by
  induction first with
  | nil => rfl
  | cons a first ih =>
    have hstop : (first ++ m :: rest).takeWhile (fun a => !marks opens ends a) =
        first.takeWhile fun a => !marks opens ends a := by
      rw [List.takeWhile_append]
      split_ifs with hall
      · rw [List.takeWhile_cons_of_neg (by rw [hm]; decide), List.append_nil]
        exact (List.takeWhile_prefix _).eq_of_length hall |>.symm
      · rfl
    cases hopens : opens a with
    | none => rw [List.cons_append, found_cons_none hopens, found_cons_none hopens, ih]
    | some k =>
      rw [List.cons_append, found_cons_some hopens, found_cons_some hopens, hstop, ih,
        List.cons_append]

theorem map_found_concat {read : List α → β} {a : α} (hopens : opens a = none)
    (hread : ∀ body, read (body ++ [a]) = read body) (items : List α) :
    (found opens ends (items ++ [a])).map (fun block => (block.1, read block.2)) =
      (found opens ends items).map fun block => (block.1, read block.2) := by
  induction items with
  | nil => rw [List.nil_append, found_cons_none hopens]
  | cons b items ih =>
    have hbody : read ((items ++ [a]).takeWhile fun a => !marks opens ends a) =
        read (items.takeWhile fun a => !marks opens ends a) := by
      rw [List.takeWhile_append]
      split_ifs with hall
      · have hitems := (List.takeWhile_prefix _).eq_of_length hall
        by_cases hmarks : marks opens ends a = true
        · rw [List.takeWhile_cons_of_neg (by rw [hmarks]; decide), List.append_nil, hitems]
        · rw [List.takeWhile_cons_of_pos (by simpa using hmarks), List.takeWhile_nil, hread, hitems]
      · rfl
    cases hb : opens b with
    | none => rw [List.cons_append, found_cons_none hb, found_cons_none hb, ih]
    | some k =>
      rw [List.cons_append, found_cons_some hb, found_cons_some hb, List.map_cons, List.map_cons,
        hbody, ih]

end Blocks

end Blocks
