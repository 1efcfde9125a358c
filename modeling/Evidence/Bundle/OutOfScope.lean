/-
What the **dependency rule** reports.

The search from a crate is a breadth-first walk over the ids, in which some of the keys
found are reported. It ends, whatever the graph, and what it finds is what a path of at
least one edge leads to; so the violations are the workspace members that a crate in
scope depends on, over any packages, and whose name is not in scope.

Ids and names stand for what the maps keep of a list: the last node of an id, the last
package of an id, and the last workspace member of a name. Where ids are distinct there is
only one, and an edge is a dependency of a node (`depends_on_iff`).
-/
import Evidence.Bundle.BoundaryCheck
import Evidence.Lib.BreadthFirst
import Evidence.Lib.LastWins

set_option autoImplicit false

namespace Evidence.BoundaryCheck

open Std Sorting BreadthFirst

/-! ## What is to be reported -/

def IsMemberName (metadata : Metadata) (name : String) : Prop :=
  ∃ p ∈ metadata.packages, p.id ∈ metadata.workspace_members ∧ p.name = name

def node_of (metadata : Metadata) (id : String) : Option Node :=
  (metadata.resolve.nodes.filter fun n => n.id = id).getLast?

def package_of (metadata : Metadata) (id : String) : Option Package :=
  (metadata.packages.filter fun p => p.id = id).getLast?

/-- The workspace member of a name: a crate's own package. -/
def own_package (metadata : Metadata) (name : String) : Option Package :=
  (metadata.packages.filter fun p =>
    p.id ∈ metadata.workspace_members ∧ p.name = name).getLast?

/-- What a package is called; one that is not listed has no name. -/
def display_name (metadata : Metadata) (id : String) : String :=
  ((package_of metadata id).map Package.name).getD "<unknown>"

/-- A dependency edge. -/
def DependsOn (metadata : Metadata) (a b : String) : Prop :=
  ∃ node, node_of metadata a = some node ∧ ∃ dep ∈ node.deps, dep.pkg = b

/-- A crate in scope depends, over one or more edges through any packages, on a workspace
member other than its own package, and that member's name is not in scope. -/
def OutOfScope (metadata : Metadata) (in_scope : List String) (crate_name dep : String) : Prop :=
  crate_name ∈ in_scope ∧ dep ∉ in_scope ∧
    ∃ own, own_package metadata crate_name = some own ∧
      ∃ d ∈ metadata.workspace_members, d ≠ own.id ∧
        Relation.TransGen (DependsOn metadata) own.id d ∧ display_name metadata d = dep

/-- **The rule's exact result**: an unknown crate is refused, and otherwise each pair is
listed once, in order. -/
structure ReportsExactly (metadata : Metadata) (in_scope : List String)
    (result : Except BoundaryCheckError (List BoundaryViolation)) : Prop where
  unknown_iff : (∃ name, result = .error (.UnknownInScopeCrate name)) ↔
    ∃ name ∈ in_scope, ¬ IsMemberName metadata name
  unknown_named : ∀ name, result = .error (.UnknownInScopeCrate name) →
    name ∈ in_scope ∧ ¬ IsMemberName metadata name
  sorted : ∀ violations, result = .ok violations →
    violations.Pairwise fun a b => a.cmp b = .lt
  mem_iff : ∀ violations, result = .ok violations → ∀ v, v ∈ violations ↔
    v.rule = "no_out_of_scope_deps" ∧ OutOfScope metadata in_scope v.crate_name v.offending_dep

/-! ## The maps -/

theorem get_name_to_id (metadata : Metadata) (name : String) :
    (name_to_id metadata).get name =
      (own_package metadata name).map fun p => (p.name, p.id) := by
  rw [name_to_id, Store.get_ofList_map, List.filter_filter, own_package]
  refine congrArg (fun l => (List.getLast? l).map fun p : Package => (p.name, p.id)) ?_
  refine List.filter_congr fun p _ => ?_
  simp only [ws_member_ids, List.mem_toFinset, Bool.decide_and, Bool.and_comm]

theorem own_package_eq_none_iff {metadata : Metadata} {name : String} :
    own_package metadata name = none ↔ ¬ IsMemberName metadata name := by
  rw [own_package, List.getLast?_eq_none_iff, List.filter_eq_nil_iff, IsMemberName]
  simp only [decide_eq_true_eq, not_exists, not_and]

/-- The ids a node leads to. -/
def children (metadata : Metadata) (node : String) : List String :=
  (((adj metadata).get node).map Prod.snd).getD []

/-- **Children are the ends of dependency edges.** -/
theorem mem_children_iff {metadata : Metadata} {a b : String} :
    b ∈ children metadata a ↔ DependsOn metadata a b := by
  have hadj : (adj metadata).get a =
      (node_of metadata a).map fun n => (n.id, n.deps.map NodeDep.pkg) :=
    Store.get_ofList_map _ _ _ _
  rw [children, hadj, DependsOn]
  rcases node_of metadata a with _ | node
  · simp only [Option.map_none, Option.getD_none, List.not_mem_nil, reduceCtorEq, false_and,
      exists_false]
  · simp only [Option.map_some, Option.getD_some, List.mem_map, Option.some.injEq,
      exists_eq_left']

/-! ## One search -/

/-- The ends of all edges. -/
def targets (metadata : Metadata) : List String :=
  metadata.resolve.nodes.flatMap fun n => n.deps.map NodeDep.pkg

/-- What is reported of a key that was found. -/
def offender (metadata : Metadata) (in_scope_set : Finset String) (crate_name child : String) :
    Option BoundaryViolation :=
  if child ∈ ws_member_ids metadata ∧ display_name metadata child ∉ in_scope_set then
    some { rule := "no_out_of_scope_deps", crate_name,
           offending_dep := display_name metadata child }
  else none

def search_at (metadata : Metadata) (in_scope_set : Finset String) (crate_name : String)
    (violations : List BoundaryViolation) (w : Walk String) : Search :=
  { seen := w.seen, queue := w.queue,
    violations := violations ++ w.found.filterMap (offender metadata in_scope_set crate_name) }

section Searching

variable (metadata : Metadata) (in_scope_set : Finset String) (crate_name : String)
  (violations : List BoundaryViolation)

/-- **A child is met as by the walk**, and reported if it is an offender. -/
theorem child_search_at (w : Walk String) (child : String) :
    (search_at metadata in_scope_set crate_name violations w).child metadata in_scope_set
        crate_name child =
      search_at metadata in_scope_set crate_name violations (w.meet child) := by
  have hname : (((id_to_name metadata).get child).map Prod.snd).getD "<unknown>" =
      display_name metadata child := by
    rw [id_to_name, Store.get_ofList_map, display_name, package_of, Option.map_map]
    rfl
  rw [Search.child, Walk.meet, hname]
  by_cases hseen : child ∈ w.seen
  · rw [if_pos hseen, if_pos (show child ∈ (search_at _ _ _ _ w).seen from hseen)]
  · rw [if_neg hseen, if_neg (show child ∉ (search_at _ _ _ _ w).seen from hseen)]
    simp only [search_at, List.filterMap_append, List.filterMap_cons, List.filterMap_nil,
      Search.mk.injEq, true_and, offender]
    by_cases hmember : child ∈ ws_member_ids metadata
    · by_cases hscope : display_name metadata child ∈ in_scope_set
      · simp only [hmember, hscope, if_true, not_true, and_false, if_false, List.append_nil]
      · simp only [hmember, hscope, if_true, not_false_eq_true, and_self, if_false,
          List.append_assoc]
    · simp only [hmember, false_and, if_false, List.append_nil]

theorem foldl_child_search_at (children : List String) (w : Walk String) :
    children.foldl (Search.child metadata in_scope_set crate_name)
        (search_at metadata in_scope_set crate_name violations w) =
      search_at metadata in_scope_set crate_name violations (children.foldl Walk.meet w) := by
  induction children generalizing w with
  | nil => rfl
  | cons child children ih =>
    rw [List.foldl_cons, List.foldl_cons, child_search_at, ih]

/-- **The search is a breadth-first walk** that reports the offenders it finds. -/
theorem search_eq_run (fuel : ℕ) (w : Walk String) :
    search metadata in_scope_set crate_name fuel
        (search_at metadata in_scope_set crate_name violations w) =
      (run (children metadata) fuel w).map fun found =>
        violations ++ found.filterMap (offender metadata in_scope_set crate_name) := by
  induction fuel generalizing w with
  | zero =>
    obtain ⟨_ | ⟨node, queue⟩, seen, found⟩ := w
    · rfl
    · rfl
  | succ fuel ih =>
    obtain ⟨_ | ⟨node, queue⟩, seen, found⟩ := w
    · rfl
    · rw [run, ← ih, ← foldl_child_search_at, children, search_at, search]
      rcases (adj metadata).get node with _ | entry
      · rfl
      · rfl

/-- **From a root the search ends**, with what is to be reported of the ids reached. -/
theorem exists_search (start : String) :
    ∃ found : List String, (∀ fuel, (targets metadata).length + 1 ≤ fuel →
        search metadata in_scope_set crate_name fuel ⟨{start}, [start], violations⟩ =
          some (violations ++ found.filterMap (offender metadata in_scope_set crate_name))) ∧
      ∀ k, k ∈ found ↔ k ≠ start ∧ Relation.TransGen (DependsOn metadata) start k := by
  have hnext : ∀ k, ∀ j ∈ children metadata k,
      j ∈ (targets metadata).toFinset := by
    intro k j hj
    obtain ⟨node, hnode, dep, hdep, rfl⟩ := mem_children_iff.mp hj
    have hmem := (List.mem_filter.mp (List.mem_of_getLast? hnode)).1
    exact List.mem_toFinset.mpr
      (List.mem_flatMap.mpr ⟨node, hmem, List.mem_map_of_mem hdep⟩)
  obtain ⟨found, hrun, -, hfound⟩ := run_start hnext start
  have hedges : (fun a b => b ∈ children metadata a) = DependsOn metadata := by
    funext a b
    exact propext mem_children_iff
  refine ⟨found, fun fuel hfuel => ?_, fun k => ?_⟩
  · have hcard := List.toFinset_card_le (targets metadata)
    have hsearch := search_eq_run metadata in_scope_set crate_name violations fuel (.start start)
    rw [hrun fuel (by omega)] at hsearch
    rw [search_at, Walk.start, List.filterMap_nil, List.append_nil] at hsearch
    exact hsearch
  · rw [hfound, Reaches, hedges]

end Searching

/-! ## All searches -/

def Reported (metadata : Metadata) (in_scope_set : Finset String) (crate_name : String)
    (v : BoundaryViolation) : Prop :=
  ∃ own, own_package metadata crate_name = some own ∧ ∃ d, d ≠ own.id ∧
    Relation.TransGen (DependsOn metadata) own.id d ∧
    offender metadata in_scope_set crate_name d = some v

/-- **The searches end**, at the first crate that no workspace member is named, or with what
is reported of each crate. -/
theorem exists_search_crates (metadata : Metadata) (in_scope_set : Finset String)
    (in_scope : List String) (violations : List BoundaryViolation) :
    ∃ result, (∀ fuel, (targets metadata).length + 1 ≤ fuel →
        search_crates fuel metadata in_scope_set in_scope violations = some result) ∧
      ((∃ name ∈ in_scope, ¬ IsMemberName metadata name ∧
          result = .error (.UnknownInScopeCrate name)) ∨
        ((∀ name ∈ in_scope, IsMemberName metadata name) ∧ ∃ all, result = .ok all ∧
          ∀ v, v ∈ all ↔ v ∈ violations ∨
            ∃ name ∈ in_scope, Reported metadata in_scope_set name v)) := by
  induction in_scope generalizing violations with
  | nil =>
    refine ⟨.ok violations, fun fuel _ => rfl, .inr ⟨fun _ h => absurd h List.not_mem_nil,
      violations, rfl, fun v => ?_⟩⟩
    refine (or_iff_left ?_).symm
    rintro ⟨name, h, -⟩
    exact List.not_mem_nil h
  | cons name in_scope ih =>
    rcases hown : own_package metadata name with _ | own
    · -- no workspace member has the name
      refine ⟨.error (.UnknownInScopeCrate name), fun fuel _ => ?_,
        .inl ⟨name, List.mem_cons_self, own_package_eq_none_iff.mp hown, rfl⟩⟩
      rw [search_crates, get_name_to_id, hown]
      rfl
    · have hmember : IsMemberName metadata name := by
        by_contra h
        rw [own_package_eq_none_iff.mpr h] at hown
        cases hown
      obtain ⟨found, hsearch, hfound⟩ :=
        exists_search metadata in_scope_set name violations own.id
      obtain ⟨result, hrest, hresult⟩ :=
        ih (violations ++ found.filterMap (offender metadata in_scope_set name))
      refine ⟨result, fun fuel hfuel => ?_, ?_⟩
      · rw [search_crates, get_name_to_id, hown]
        simp only [Option.map_some, hsearch fuel hfuel, hrest fuel hfuel]
      · rcases hresult with ⟨other, hother, hunknown, hresult⟩ | ⟨hknown, all, hresult, hall⟩
        · exact .inl ⟨other, List.mem_cons_of_mem _ hother, hunknown, hresult⟩
        · refine .inr ⟨List.forall_mem_cons.mpr ⟨hmember, hknown⟩, all, hresult, fun v => ?_⟩
          have hreported : v ∈ found.filterMap (offender metadata in_scope_set name) ↔
              Reported metadata in_scope_set name v := by
            rw [List.mem_filterMap, Reported]
            constructor
            · rintro ⟨d, hd, hv⟩
              obtain ⟨hne, hpath⟩ := (hfound d).mp hd
              exact ⟨own, hown, d, hne, hpath, hv⟩
            · rintro ⟨own', hown', d, hne, hpath, hv⟩
              rw [hown, Option.some.injEq] at hown'
              subst hown'
              exact ⟨d, (hfound d).mpr ⟨hne, hpath⟩, hv⟩
          rw [hall v, List.mem_append, hreported, List.exists_mem_cons_iff, or_assoc]

theorem reported_iff {metadata : Metadata} {in_scope : List String} {v : BoundaryViolation} :
    (∃ name ∈ in_scope, Reported metadata in_scope.toFinset name v) ↔
      v.rule = "no_out_of_scope_deps" ∧
        OutOfScope metadata in_scope v.crate_name v.offending_dep := by
  constructor
  · rintro ⟨name, hname, own, hown, d, hne, hpath, hv⟩
    rw [offender] at hv
    split_ifs at hv with h
    rw [← Option.some.inj hv]
    rw [ws_member_ids, List.mem_toFinset, List.mem_toFinset] at h
    exact ⟨rfl, hname, h.2, own, hown, d, h.1, hne, hpath, rfl⟩
  · rintro ⟨hrule, hname, hdep, own, hown, d, hd, hne, hpath, hdisplay⟩
    refine ⟨v.crate_name, hname, own, hown, d, hne, hpath, ?_⟩
    have hout : d ∈ ws_member_ids metadata ∧ display_name metadata d ∉ in_scope.toFinset := by
      rw [ws_member_ids, List.mem_toFinset, List.mem_toFinset, hdisplay]
      exact ⟨hd, hdep⟩
    obtain ⟨rule, crate_name, offending_dep⟩ := v
    rw [offender, if_pos hout, Option.some.injEq, BoundaryViolation.mk.injEq]
    exact ⟨hrule.symm, rfl, hdisplay⟩

/-- **The dependency rule ends on any metadata, and reports exactly what is out of scope**: an
unknown crate is refused exactly if a name in scope is not that of a workspace member, and
otherwise the violations are the pairs of a crate in scope and the name, not in scope, of a
workspace member it depends on, each once and in order. -/
theorem find_out_of_scope_deps_exact (in_scope : List String) (metadata : Metadata) :
    ∃ bound result,
      (∀ fuel, bound ≤ fuel → find_out_of_scope_deps fuel in_scope metadata = some result) ∧
        ReportsExactly metadata in_scope result := by
  obtain ⟨result, hsearch, hresult⟩ :=
    exists_search_crates metadata in_scope.toFinset in_scope []
  refine ⟨_, _, fun fuel hfuel => by rw [find_out_of_scope_deps, hsearch fuel hfuel]; rfl, ?_⟩
  rcases hresult with ⟨name, hname, hunknown, rfl⟩ | ⟨hknown, all, rfl, hall⟩
  · refine ⟨iff_of_true ⟨name, rfl⟩ ⟨name, hname, hunknown⟩, fun other h => ?_,
      fun violations h => ?_, fun violations h => ?_⟩
    · obtain rfl := BoundaryCheckError.UnknownInScopeCrate.inj (Except.error.inj h)
      exact ⟨hname, hunknown⟩
    · cases h
    · cases h
  · refine ⟨iff_of_false ?_ ?_, fun other h => ?_, fun violations h => ?_,
      fun violations h v => ?_⟩
    · rintro ⟨name, h⟩
      cases h
    · rintro ⟨name, hname, hunknown⟩
      exact hunknown (hknown name hname)
    · cases h
    · rw [← Except.ok.inj h]
      exact destutter_sortBy_sorted all
    · rw [← Except.ok.inj h, mem_destutter_ne, mem_sortBy, hall v,
        or_iff_right List.not_mem_nil, reported_iff]
  

/-- A crate that depends, in a circle through a package of a registry, on two others. -/
example : find_out_of_scope_deps 5 ["alpha"]
    { packages := [⟨"alpha", "path#alpha", [], none⟩, ⟨"serde", "registry#serde", [], none⟩,
        ⟨"beta", "path#beta", [], none⟩, ⟨"gamma", "path#gamma", [], none⟩],
      workspace_members := ["path#alpha", "path#beta", "path#gamma"],
      resolve := ⟨[⟨"path#alpha", [⟨"registry#serde"⟩, ⟨"path#gamma"⟩]⟩,
        ⟨"registry#serde", [⟨"path#beta"⟩]⟩, ⟨"path#beta", [⟨"path#alpha"⟩, ⟨"path#gamma"⟩]⟩]⟩ } =
      some (.ok [⟨"no_out_of_scope_deps", "alpha", "beta"⟩,
        ⟨"no_out_of_scope_deps", "alpha", "gamma"⟩]) := by
  decide +kernel

end Evidence.BoundaryCheck
