/-
`diff.rs` -- what a comparison of two bundles reads, and the verdicts it gives.

An artifact that is absent or does not parse is no error: it loads as `Missing` or
`Unparseable`, and the category decides what that means. A category collects the lines
of its differences and of what it could not examine; its status follows from whether
there are any. Where a category compares entry by entry, it compares two maps: the
entries of one that the other lacks, and those that differ.
-/
import Evidence.Bundle.Signing
import Evidence.Bundle.TestSummary
import Evidence.Lib.LastWins
import Evidence.Lib.Sorting

set_option autoImplicit false

namespace Evidence.Diff

open Std Evidence.Bundle

/-! ## Verdicts -/

inductive DiffCategoryStatus where
  | Equal
  | Added
  | Removed
  | Changed
  | Unverifiable
deriving DecidableEq

structure CategoryDiff where
  category : String
  status : DiffCategoryStatus
  details : List String
deriving DecidableEq

inductive DiffError where
  | BundleNotFound
  | Io (path : String)
deriving DecidableEq

/-- Sort and dedup the detail lines. -/
def finish (diff : CategoryDiff) : CategoryDiff :=
  { diff with details := (Sorting.sortBy compare diff.details).destutter (· ≠ ·) }

@[simp] theorem finish_category (diff : CategoryDiff) : (finish diff).category = diff.category :=
  rfl

@[simp] theorem finish_status (diff : CategoryDiff) : (finish diff).status = diff.status := rfl

def unverifiable (category reason : String) : CategoryDiff where
  category := category
  status := .Unverifiable
  details := ["! " ++ reason]

def presence_label (present : Bool) : String := if present then "present" else "absent"

def status_of (changed unexaminable : Bool) : DiffCategoryStatus :=
  if changed then .Changed else if unexaminable then .Unverifiable else .Equal

/-! ## Loading -/

/-- A file that loaded, is absent, or is present but does not parse. -/
inductive Load (α : Type) where
  | Ok (value : α)
  | Missing
  | Unparseable
deriving DecidableEq

structure EvidenceIndex where
  test_summary : Option TestSummary
deriving DecidableEq

/-- One side of the comparison. -/
structure Side where
  root : FileTree
  index : Load EvidenceIndex

/-- `root.join(rel).is_file()`. -/
def is_file (root : FileTree) (rel : String) : Bool :=
  match root.resolve_text rel.toList with
  | some (.File _) => true
  | _ => false

/-- `root.join(rel).is_dir()`. -/
def is_dir (root : FileTree) (rel : String) : Bool :=
  match root.resolve_text rel.toList with
  | some .Dir => true
  | _ => false

def file_exists (side : Side) (rel : String) : Bool := is_file side.root rel

/-- A file that exists is read, or the comparison ends; what it holds is parsed. -/
def load {β α : Type} (read : FileTree → String → Option β) (parse : β → Option α)
    (root : FileTree) (rel : String) : Except DiffError (Load α) :=
  if !root.exists_text rel.toList then .ok .Missing
  else
    match read root rel with
    | none => .error (.Io rel)
    | some content =>
      match parse content with
      | some value => .ok (.Ok value)
      | none => .ok .Unparseable

/-- Read and parse one JSON artifact. -/
def read_json_file {α : Type} (from_slice : List UInt8 → Option α) :
    FileTree → String → Except DiffError (Load α) :=
  load read_bytes from_slice

/-! ## Findings -/

/-- What a part of a category notes. -/
structure Findings where
  changed : Bool
  unexaminable : Bool
  details : List String
deriving DecidableEq

namespace Findings

/-- Differences, one a line; without a line there is none. -/
def differences (details : List String) : Findings where
  changed := !details.isEmpty
  unexaminable := false
  details := details

/-- A part that could not be examined. -/
def unexamined (detail : String) : Findings where
  changed := false
  unexaminable := true
  details := [detail]

/-- One part after another. -/
def add (f g : Findings) : Findings where
  changed := f.changed || g.changed
  unexaminable := f.unexaminable || g.unexaminable
  details := f.details ++ g.details

/-- Nothing was found, and everything could be examined. -/
def Silent (f : Findings) : Prop := f.changed = false ∧ f.unexaminable = false

/-- The category, from what its parts note. -/
def report (f : Findings) (category : String) : CategoryDiff where
  category := category
  status := status_of f.changed f.unexaminable
  details := f.details

@[simp] theorem differences_silent {details : List String} :
    (differences details).Silent ↔ details = [] := by
  simp [Silent, differences]

@[simp] theorem unexamined_not_silent (detail : String) : ¬ (unexamined detail).Silent := by
  simp [Silent, unexamined]

@[simp] theorem add_silent {f g : Findings} : (f.add g).Silent ↔ f.Silent ∧ g.Silent := by
  simp only [Silent, add, Bool.or_eq_false_iff]
  exact and_and_and_comm

/-- Parts note nothing when none of them does. -/
theorem foldr_add_silent {fs : List Findings} {g : Findings} :
    (fs.foldr add g).Silent ↔ (∀ f ∈ fs, f.Silent) ∧ g.Silent := by
  induction fs with
  | nil => simp
  | cons f fs ih => simp [ih, and_assoc]

/-- **A category is equal exactly when its parts note nothing.** -/
theorem report_equal_iff {f : Findings} {category : String} :
    (f.report category).status = .Equal ↔ f.Silent := by
  unfold report status_of Silent
  cases f.changed <;> cases f.unexaminable <;> simp

theorem report_status {f : Findings} {category : String} :
    (f.report category).status ≠ .Added ∧ (f.report category).status ≠ .Removed := by
  unfold report status_of
  cases f.changed <;> cases f.unexaminable <;> simp

end Findings

/-! ## Maps -/

section Entries

variable {κ ν : Type} [Ord κ] [TransOrd κ] [LawfulEqOrd κ] {key : ν → κ}

/-- Two maps, entry by entry: what only the first has, what differs, what only the second has. -/
def diff_entries (differs : ν → ν → Bool) (removed : ν → String) (changed : ν → ν → String)
    (added : ν → String) (map_a map_b : Store key) : List String :=
  (map_a.values.filterMap fun a =>
    match map_b.get (key a) with
    | none => some (removed a)
    | some b => if differs a b then some (changed a b) else none) ++
  map_b.values.filterMap fun b => if (map_a.get (key b)).isNone then some (added b) else none

/-- **Two maps show no difference exactly when no key does.** -/
theorem diff_entries_eq_nil_iff {differs : ν → ν → Bool} {removed added : ν → String}
    {changed : ν → ν → String} {map_a map_b : Store key} :
    diff_entries differs removed changed added map_a map_b = [] ↔
      ∀ k, Option.Rel (fun a b => differs a b = false) (map_a.get k) (map_b.get k) := by
  rw [diff_entries, List.append_eq_nil_iff, List.filterMap_eq_nil_iff, List.filterMap_eq_nil_iff]
  constructor
  · rintro ⟨hleft, hright⟩ k
    cases ha : map_a.get k with
    | some a =>
      have hline := hleft a (Store.mem_values_of_get ha)
      rw [Store.key_of_get ha] at hline
      cases hb : map_b.get k with
      | none =>
        rw [hb] at hline
        simp at hline
      | some b =>
        rw [hb] at hline
        refine .some ?_
        by_cases hd : differs a b = true
        · simp [hd] at hline
        · exact Bool.eq_false_iff.mpr hd
    | none =>
      cases hb : map_b.get k with
      | none => exact .none
      | some b =>
        have hline := hright b (Store.mem_values_of_get hb)
        rw [Store.key_of_get hb, ha] at hline
        simp at hline
  · intro h
    refine ⟨fun a ha => ?_, fun b hb => ?_⟩
    · have hk := h (key a)
      rw [Store.mem_values.mp ha] at hk
      cases hb : map_b.get (key a) with
      | none =>
        rw [hb] at hk
        cases hk
      | some b =>
        rw [hb] at hk
        cases hk with
        | some hab => simp [hab]
    · have hk := h (key b)
      rw [Store.mem_values.mp hb] at hk
      cases ha : map_a.get (key b) with
      | none =>
        rw [ha] at hk
        cases hk
      | some a => simp

end Entries

end Evidence.Diff
