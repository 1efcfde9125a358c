/-
`boundary_check.rs` -- the boundary rules, checked on cargo's metadata.

Three rules are checked: that no crate in scope depends on a workspace crate that is not,
over however many packages, and that no crate in scope has a build script or exposes a
procedural macro. Packages are known by their ids and crates by their names; the maps from
one to the other, and from a node to those it depends on, are collected from lists, so
that a later entry replaces an earlier one of the same key.

The search from a crate keeps a queue and the ids seen. `fuel` bounds the ids it pops from
the queue; a search that would pop more is `none`.
-/
import Mathlib.Data.Finset.Insert
import Mathlib.Data.String.Basic
import Evidence.Lib.Sorting
import Evidence.Lib.Store

set_option autoImplicit false

namespace Evidence.BoundaryCheck

open Std Sorting

/-! ## Cargo's metadata -/

structure Target where
  kind : List String
deriving DecidableEq

structure Package where
  name : String
  id : String
  targets : List Target
  links : Option String
deriving DecidableEq

structure NodeDep where
  pkg : String
deriving DecidableEq

structure Node where
  id : String
  deps : List NodeDep
deriving DecidableEq

structure Resolve where
  nodes : List Node
deriving DecidableEq

structure Metadata where
  packages : List Package
  workspace_members : List String
  resolve : Resolve
deriving DecidableEq

/-! ## Violations -/

structure BoundaryViolation where
  rule : String
  crate_name : String
  offending_dep : String
deriving DecidableEq

/-- `Ord`: by rule, crate and dependency. -/
def BoundaryViolation.cmp : BoundaryViolation → BoundaryViolation → Ordering :=
  compareLex (compareOn BoundaryViolation.rule)
    (compareLex (compareOn BoundaryViolation.crate_name)
      (compareOn BoundaryViolation.offending_dep))

structure BuildRsViolation where
  crate_name : String
  links : Option String
deriving DecidableEq

/-- `Ord`: by crate, then by `links`. -/
def BuildRsViolation.cmp : BuildRsViolation → BuildRsViolation → Ordering :=
  compareLex (compareOn BuildRsViolation.crate_name) (compareOn BuildRsViolation.links)

structure ProcMacroViolation where
  crate_name : String
deriving DecidableEq

/-- `Ord`: by crate. -/
def ProcMacroViolation.cmp : ProcMacroViolation → ProcMacroViolation → Ordering :=
  compareOn ProcMacroViolation.crate_name

inductive BoundaryCheckError where
  | UnknownInScopeCrate (crate_name : String)
deriving DecidableEq

/-! ## Dependencies out of scope -/

def ws_member_ids (metadata : Metadata) : Finset String := metadata.workspace_members.toFinset

def id_to_name (metadata : Metadata) : Store (Prod.fst : String × String → String) :=
  .ofList (metadata.packages.map fun p => (p.id, p.name))

/-- The workspace members by name. -/
def name_to_id (metadata : Metadata) : Store (Prod.fst : String × String → String) :=
  .ofList ((metadata.packages.filter fun p => p.id ∈ ws_member_ids metadata).map fun p =>
    (p.name, p.id))

/-- Adjacency list. -/
def adj (metadata : Metadata) : Store (Prod.fst : String × List String → String) :=
  .ofList (metadata.resolve.nodes.map fun n => (n.id, n.deps.map NodeDep.pkg))

structure Search where
  seen : Finset String
  queue : List String
  violations : List BoundaryViolation

/-- A child of the node that was popped. -/
def Search.child (metadata : Metadata) (in_scope_set : Finset String) (crate_name : String)
    (s : Search) (child : String) : Search :=
  if child ∈ s.seen then s
  else
    let violations :=
      if child ∈ ws_member_ids metadata then
        let child_name := (((id_to_name metadata).get child).map Prod.snd).getD "<unknown>"
        if child_name ∈ in_scope_set then s.violations
        else s.violations ++
          [{ rule := "no_out_of_scope_deps", crate_name, offending_dep := child_name }]
      else s.violations
    { seen := insert child s.seen, queue := s.queue ++ [child], violations }

/-- Breadth-first search from one crate. -/
def search (metadata : Metadata) (in_scope_set : Finset String) (crate_name : String) :
    ℕ → Search → Option (List BoundaryViolation)
  | _, ⟨_, [], violations⟩ => some violations
  | 0, ⟨_, _ :: _, _⟩ => none
  | fuel + 1, ⟨seen, node :: queue, violations⟩ =>
    match (adj metadata).get node with
    | none => search metadata in_scope_set crate_name fuel ⟨seen, queue, violations⟩
    | some entry =>
      search metadata in_scope_set crate_name fuel
        (entry.2.foldl (Search.child metadata in_scope_set crate_name) ⟨seen, queue, violations⟩)

/-- The searches from the crates in scope, up to one that no workspace member is named. -/
def search_crates (fuel : ℕ) (metadata : Metadata) (in_scope_set : Finset String) :
    List String → List BoundaryViolation →
      Option (Except BoundaryCheckError (List BoundaryViolation))
  | [], violations => some (.ok violations)
  | crate_name :: in_scope, violations =>
    match (name_to_id metadata).get crate_name with
    | none => some (.error (.UnknownInScopeCrate crate_name))
    | some start =>
      match search metadata in_scope_set crate_name fuel ⟨{start.2}, [start.2], violations⟩ with
      | none => none
      | some violations => search_crates fuel metadata in_scope_set in_scope violations

/-- Pure dep-graph walk. -/
def find_out_of_scope_deps (fuel : ℕ) (in_scope : List String) (metadata : Metadata) :
    Option (Except BoundaryCheckError (List BoundaryViolation)) :=
  (search_crates fuel metadata in_scope.toFinset in_scope []).map fun result =>
    result.map fun violations => (sortBy BoundaryViolation.cmp violations).destutter (· ≠ ·)

/-! ## Build scripts and procedural macros -/

def target_is_build_rs (t : Target) : Bool := t.kind.any fun k => k == "custom-build"

def target_is_proc_macro (t : Target) : Bool := t.kind.any fun k => k == "proc-macro"

/-- Pure walk over the packages. -/
def find_build_rs_violations (in_scope : List String) (metadata : Metadata) :
    Except BoundaryCheckError (List BuildRsViolation) :=
  let out := ((metadata.packages.filter fun p => p.name ∈ in_scope.toFinset).filter fun p =>
    p.targets.any target_is_build_rs).map fun p =>
      ({ crate_name := p.name, links := p.links } : BuildRsViolation)
  .ok ((sortBy BuildRsViolation.cmp out).destutter (· ≠ ·))

/-- Pure walk over the packages for proc-macro detection. -/
def find_proc_macro_violations (in_scope : List String) (metadata : Metadata) :
    Except BoundaryCheckError (List ProcMacroViolation) :=
  let out := ((metadata.packages.filter fun p => p.name ∈ in_scope.toFinset).filter fun p =>
    p.targets.any target_is_proc_macro).map fun p => ({ crate_name := p.name } : ProcMacroViolation)
  .ok ((sortBy ProcMacroViolation.cmp out).destutter (· ≠ ·))

/-! ## The orders -/

instance : TransCmp BoundaryViolation.cmp :=
  inferInstanceAs (TransCmp (compareLex (compareOn BoundaryViolation.rule)
    (compareLex (compareOn BoundaryViolation.crate_name)
      (compareOn BoundaryViolation.offending_dep))))

instance : LawfulEqCmp BoundaryViolation.cmp where
  eq_of_compare {a b} h := by
    obtain ⟨hrule, hrest⟩ := Ordering.then_eq_eq.mp h
    obtain ⟨hname, hdep⟩ := Ordering.then_eq_eq.mp hrest
    obtain ⟨rule, crate_name, offending_dep⟩ := a
    obtain ⟨rule', crate_name', offending_dep'⟩ := b
    rw [BoundaryViolation.mk.injEq]
    exact ⟨LawfulEqCmp.eq_of_compare hrule, LawfulEqCmp.eq_of_compare hname,
      LawfulEqCmp.eq_of_compare hdep⟩

end Evidence.BoundaryCheck
