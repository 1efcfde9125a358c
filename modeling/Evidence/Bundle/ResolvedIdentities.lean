/-
`cargo_metadata.rs` -- which packages the resolved graph keeps apart.

The projection names a package by `"name version"`, and refuses a graph in which two nodes
have one name. Only the names of nodes pass that check: a package that occurs in the graph as a
dependency and has no node of its own may share its name with another one, and the
projection merges the two without saying so. This is the one way in which it does not
keep the graph as it is.
-/
import Evidence.Bundle.CargoMetadata

set_option autoImplicit false

namespace Evidence.Bundle

open Collect

/-! ## The graph and its image -/

/-- The name of the package with an id: that of the last package listed under it. -/
def identity_of (packages : List RawPackage) (id : String) : Option String :=
  ((id_to_identity packages).get id).map Prod.snd

/-- The ids that occur in the resolved graph, as nodes and as dependencies. -/
def package_ids (raw : RawMetadata) : List String :=
  raw.resolve.nodes.flatMap fun node => node.id :: node.deps.map RawNodeDep.pkg

/-- The names keep the packages of the graph apart. -/
def KeptApart (raw : RawMetadata) : Prop :=
  ∀ id ∈ package_ids raw, ∀ other ∈ package_ids raw,
    identity_of raw.packages id = identity_of raw.packages other → id = other

def dependency_names (packages : List RawPackage) (node : RawNode) : List (Option String) :=
  node.deps.map fun dep => identity_of packages dep.pkg

/-- **The graph under the names**: every node is there with the names of its dependencies, and
nothing else is. -/
def IsImage (raw : RawMetadata) (graph : ResolvedGraph) : Prop :=
  ∀ entry, entry ∈ graph.values ↔ ∃ node ∈ raw.resolve.nodes,
    identity_of raw.packages node.id = some entry.1 ∧
      ∀ name, name ∈ entry.2 ↔ some name ∈ dependency_names raw.packages node

/-! ## What the projection refuses -/

/-- An id of the graph that no package has, or two nodes of one name. -/
def Refused (raw : RawMetadata) : Prop :=
  (∃ id ∈ package_ids raw, identity_of raw.packages id = none) ∨
    ¬ (raw.resolve.nodes.map fun node => identity_of raw.packages node.id).Nodup

/-- A package that has no node of its own shares its name with no other. -/
def LeavesApart (raw : RawMetadata) : Prop :=
  ∀ id ∈ package_ids raw, (∀ node ∈ raw.resolve.nodes, node.id ≠ id) →
    ∀ other ∈ package_ids raw,
      identity_of raw.packages id = identity_of raw.packages other → id = other

section Projection

variable {raw : RawMetadata}

theorem node_id_mem {node : RawNode} (hnode : node ∈ raw.resolve.nodes) :
    node.id ∈ package_ids raw :=
  List.mem_flatMap.mpr ⟨node, hnode, List.mem_cons_self⟩

theorem dep_id_mem {node : RawNode} (hnode : node ∈ raw.resolve.nodes) {dep : RawNodeDep}
    (hdep : dep ∈ node.deps) : dep.pkg ∈ package_ids raw :=
  List.mem_flatMap.mpr ⟨node, hnode, List.mem_cons_of_mem _ (List.mem_map_of_mem hdep)⟩

theorem resolve_identity_iff {packages : List RawPackage} {id name : String} :
    resolve_identity packages id = .ok name ↔ identity_of packages id = some name := by
  rw [resolve_identity, identity_of]
  cases (id_to_identity packages).get id with
  | none =>
    constructor
    · intro h
      cases h
    · intro h
      cases h
  | some entry =>
    rw [Option.map_some, Except.ok.injEq, Option.some.injEq]

theorem exists_map_some {names : List (Option String)} (h : ∀ name ∈ names, name ≠ none) :
    ∃ list : List String, names = list.map some := by
  induction names with
  | nil => exact ⟨[], rfl⟩
  | cons name names ih =>
    obtain ⟨first, hfirst⟩ := Option.ne_none_iff_exists'.mp (h name List.mem_cons_self)
    obtain ⟨rest, hrest⟩ := ih fun other hother => h other (List.mem_cons_of_mem _ hother)
    exact ⟨first :: rest, by rw [List.map_cons, hfirst, hrest]⟩

theorem resolve_deps_iff {packages : List RawPackage} {node : RawNode} {names : List String} :
    (node.deps.mapM fun dep => resolve_identity packages dep.pkg) = .ok names ↔
      dependency_names packages node = names.map some := by
  simp only [Check.mapM_ok_iff, resolve_identity_iff]
  rw [← List.forall₂_eq_eq_eq, dependency_names, List.forall₂_map_left_iff,
    List.forall₂_map_right_iff]

/-- **A node is projected to its name and the names of its dependencies**, if all of them
have one. -/
theorem project_node_iff {packages : List RawPackage} {node : RawNode} {v : ResolvedNode} :
    project_node packages node = .ok v ↔ identity_of packages node.id = some v.1 ∧
      (∀ name ∈ dependency_names packages node, name ≠ none) ∧
        ∀ name, name ∈ v.2 ↔ some name ∈ dependency_names packages node := by
  simp only [project_node, Check.bind_ok_iff, resolve_identity_iff, resolve_deps_iff,
    Except.ok.injEq]
  constructor
  · rintro ⟨identity, hidentity, names, hnames, rfl⟩
    refine ⟨hidentity, ?_, ?_⟩
    · rw [hnames]
      intro name hname
      obtain ⟨found, -, rfl⟩ := List.mem_map.mp hname
      exact Option.some_ne_none found
    · intro name
      rw [hnames, List.mem_toFinset, List.mem_map_of_injective (Option.some_injective _)]
  · rintro ⟨hidentity, hfound, hmem⟩
    obtain ⟨names, hnames⟩ := exists_map_some hfound
    refine ⟨v.1, hidentity, names, hnames, Prod.ext rfl ?_⟩
    ext name
    rw [hmem, hnames, List.mem_toFinset, List.mem_map_of_injective (Option.some_injective _)]

theorem exists_project_node {node : RawNode} (hnode : node ∈ raw.resolve.nodes)
    (hfound : ∀ id ∈ package_ids raw, identity_of raw.packages id ≠ none) :
    ∃ v, project_node raw.packages node = .ok v := by
  obtain ⟨identity, hidentity⟩ := Option.ne_none_iff_exists'.mp (hfound _ (node_id_mem hnode))
  have hdeps : ∀ name ∈ dependency_names raw.packages node, name ≠ none := by
    intro name hname
    obtain ⟨dep, hdep, rfl⟩ := List.mem_map.mp hname
    exact hfound _ (dep_id_mem hnode hdep)
  obtain ⟨names, hnames⟩ := exists_map_some hdeps
  refine ⟨(identity, names.toFinset), project_node_iff.mpr ⟨hidentity, hdeps, fun name => ?_⟩⟩
  rw [hnames, List.mem_toFinset, List.mem_map_of_injective (Option.some_injective _)]

/-! ## What is projected -/

theorem projected_names {nodes : List RawNode} {vs : List ResolvedNode}
    (h : List.Forall₂ (fun node v => project_node raw.packages node = .ok v) nodes vs) :
    (nodes.map fun node => identity_of raw.packages node.id) = (vs.map Prod.fst).map some := by
  induction h with
  | nil => rfl
  | cons hnode _ ih => rw [List.map_cons, ih, (project_node_iff.mp hnode).1]; rfl

/-- **A graph is projected exactly when it is not refused.** -/
theorem projected_iff : (∃ graph, project_resolved_graph raw = .ok graph) ↔ ¬ Refused raw := by
  constructor
  · rintro ⟨graph, hgraph⟩
    obtain ⟨vs, hvs, hnodup, -⟩ := collect_ok_iff.mp hgraph
    rintro (⟨id, hid, hnone⟩ | hdouble)
    · obtain ⟨node, hnode, hid⟩ := List.mem_flatMap.mp hid
      obtain ⟨v, -, hv⟩ := exists_of_mem_left hvs hnode
      obtain ⟨hidentity, hdeps, -⟩ := project_node_iff.mp hv
      rcases List.mem_cons.mp hid with rfl | hpkg
      · rw [hnone] at hidentity
        cases hidentity
      · obtain ⟨dep, hdep, rfl⟩ := List.mem_map.mp hpkg
        exact hdeps _ (List.mem_map_of_mem hdep) hnone
    · rw [projected_names hvs] at hdouble
      exact hdouble (hnodup.map (Option.some_injective _))
  · intro haccepted
    rw [Refused, not_or, not_exists, not_not] at haccepted
    obtain ⟨hfound, hnodup⟩ := haccepted
    have hfound : ∀ id ∈ package_ids raw, identity_of raw.packages id ≠ none :=
      fun id hid hnone => hfound id ⟨hid, hnone⟩
    obtain ⟨vs, hvs⟩ := exists_forall₂ fun node hnode => exists_project_node hnode hfound
    rw [projected_names hvs] at hnodup
    exact ⟨_, collect_ok_iff.mpr ⟨vs, hvs, hnodup.of_map, rfl⟩⟩

/-- **What is projected is the image of the graph.** -/
theorem projected_image {graph : ResolvedGraph} (h : project_resolved_graph raw = .ok graph) :
    IsImage raw graph := by
  obtain ⟨vs, hvs, hnodup, rfl⟩ := collect_ok_iff.mp h
  intro entry
  rw [Store.mem_values_ofList hnodup]
  constructor
  · intro hentry
    obtain ⟨node, hnode, hproject⟩ := exists_of_mem_right hvs hentry
    obtain ⟨hidentity, -, hdeps⟩ := project_node_iff.mp hproject
    exact ⟨node, hnode, hidentity, hdeps⟩
  · rintro ⟨node, hnode, hidentity, hdeps⟩
    obtain ⟨v, hv, hproject⟩ := exists_of_mem_left hvs hnode
    obtain ⟨hname, -, hnames⟩ := project_node_iff.mp hproject
    have hsame : v = entry := by
      refine Prod.ext (Option.some.inj (hname.symm.trans hidentity)) ?_
      ext name
      rw [hnames, hdeps]
    exact hsame ▸ hv

/-! ## The claim -/

/-- **The projection keeps packages apart exactly when no dependency without a node shares a
name**, or one of its own checks refuses the graph. What it projects is always the image of the
graph under the names. -/
theorem project_resolved_graph_faithful_iff (raw : RawMetadata) :
    ((∀ graph, project_resolved_graph raw = .ok graph → KeptApart raw ∧ IsImage raw graph) ↔
      Refused raw ∨ LeavesApart raw) ∧
    ((∃ error, project_resolved_graph raw = .error error) ↔ Refused raw) := by
  constructor
  · constructor
    · intro hkept
      by_cases hrefused : Refused raw
      · exact .inl hrefused
      · obtain ⟨graph, hgraph⟩ := projected_iff.mpr hrefused
        exact .inr fun id hid _ => (hkept graph hgraph).1 id hid
    · rintro (hrefused | hleaves) graph hgraph
      · exact absurd hrefused (projected_iff.mp ⟨graph, hgraph⟩)
      · refine ⟨?_, projected_image hgraph⟩
        intro id hid other hother hsame
        by_cases hnode : ∀ node ∈ raw.resolve.nodes, node.id ≠ id
        · exact hleaves id hid hnode other hother hsame
        · by_cases hnode' : ∀ node ∈ raw.resolve.nodes, node.id ≠ other
          · exact (hleaves other hother hnode' id hid hsame.symm).symm
          · -- two nodes of one name are refused
            push Not at hnode hnode'
            obtain ⟨node, hnode, rfl⟩ := hnode
            obtain ⟨node', hnode', rfl⟩ := hnode'
            have haccepted := projected_iff.mp ⟨graph, hgraph⟩
            rw [Refused, not_or, not_not] at haccepted
            rw [List.inj_on_of_nodup_map haccepted.2 hnode hnode' hsame]
  · constructor
    · rintro ⟨error, herror⟩
      by_contra haccepted
      obtain ⟨graph, hgraph⟩ := projected_iff.mpr haccepted
      rw [herror] at hgraph
      cases hgraph
    · intro hrefused
      cases h : project_resolved_graph raw with
      | error error => exact ⟨error, rfl⟩
      | ok graph => exact absurd hrefused (projected_iff.mp ⟨graph, h⟩)

end Projection

/-! ## Two dependencies of one name -/

/-- A workspace crate whose two dependencies have one name and version, from two sources, and
no nodes of their own. -/
def forked_dependency : RawMetadata :=
  { packages :=
      [⟨"app", "path+file:///app", "1.0.0", [], none⟩,
        ⟨"ring", "registry+https://a#ring@0.17.8", "0.17.8", [], none⟩,
        ⟨"ring", "git+https://b#ring@0.17.8", "0.17.8", [], none⟩],
    resolve := { nodes := [⟨"path+file:///app",
      [⟨"registry+https://a#ring@0.17.8"⟩, ⟨"git+https://b#ring@0.17.8"⟩]⟩] } }

/-- **Two dependencies of one name are merged.** -/
theorem project_resolved_graph_merges :
    ∃ graph, project_resolved_graph forked_dependency = .ok graph ∧
      ¬ KeptApart forked_dependency := by
  have haccepted : ¬ Refused forked_dependency := by
    have hfound : ∀ id ∈ package_ids forked_dependency,
        identity_of forked_dependency.packages id ≠ none := by
      decide +kernel
    rintro (⟨id, hid, hnone⟩ | hdouble)
    · exact hfound id hid hnone
    · exact hdouble (by decide +kernel)
  obtain ⟨graph, hgraph⟩ := projected_iff.mpr haccepted
  refine ⟨graph, hgraph, fun hkept => ?_⟩
  have hsame := hkept "registry+https://a#ring@0.17.8" (by decide +kernel)
    "git+https://b#ring@0.17.8" (by decide +kernel) (by decide +kernel)
  exact absurd hsame (by decide)

end Evidence.Bundle
