/-
`cargo_metadata.rs` -- the projection of cargo's metadata that a bundle carries.

Of the packages it keeps name, targets and `links`, sorted by name; of the resolved
graph, each package's `"name version"` with the set of those it depends on. Cargo is
free to list packages, nodes and dependencies in any order, and two hosts must give
the same bytes. The graph goes through ordered maps and keeps no order. The packages
are sorted by name alone, and the sort is stable: two packages of one name stay in
the order cargo listed them, so the versions of a crate that differ in a target or in
`links` can be told apart.
-/
import Mathlib.Data.Finset.Sort
import Mathlib.Data.String.Basic
import Evidence.Lib.Collect
import Evidence.Lib.Json
import Evidence.Lib.Sorting

set_option autoImplicit false

namespace Evidence.Bundle

open Std Sorting Collect

/-! ## Cargo's output -/

structure RawTarget where
  kind : List String
deriving DecidableEq

structure RawPackage where
  name : String
  id : String
  version : String
  targets : List RawTarget
  links : Option String
deriving DecidableEq

structure RawNodeDep where
  pkg : String
deriving DecidableEq

structure RawNode where
  id : String
  deps : List RawNodeDep
deriving DecidableEq

structure RawResolve where
  nodes : List RawNode
deriving DecidableEq

structure RawMetadata where
  packages : List RawPackage
  resolve : RawResolve
deriving DecidableEq

/-! ## The projection -/

structure TargetProjection where
  kind : List String
deriving DecidableEq

structure PackageProjection where
  name : String
  targets : List TargetProjection
  links : Option String
deriving DecidableEq

/-- A `"name version"` with those it depends on. -/
abbrev ResolvedNode := String × Finset String

/-- The resolved graph, by `"name version"`. -/
abbrev ResolvedGraph := Store (Prod.fst : ResolvedNode → String)

structure CargoMetadataProjection where
  packages : List PackageProjection
  dependencies : ResolvedGraph

/-- `ProjectionError`, for a value that was parsed. -/
inductive ProjectionError where
  | UnresolvablePackageId (id : String)
  | AmbiguousPackageIdentity (identity : String)
deriving DecidableEq

/-- `format!("{} {}", p.name, p.version)`. -/
def RawPackage.identity (p : RawPackage) : String :=
  p.name ++ " " ++ p.version

def RawPackage.project (p : RawPackage) : PackageProjection :=
  { name := p.name, targets := p.targets.map fun t => { kind := t.kind }, links := p.links }

/-- `Ord` of a package: by name. -/
def PackageProjection.cmp (a b : PackageProjection) : Ordering :=
  compare a.name b.name

def id_to_identity (packages : List RawPackage) : Store (Prod.fst : String × String → String) :=
  Store.ofList (packages.map fun p => (p.id, p.identity))

def resolve_identity (packages : List RawPackage) (id : String) : Except ProjectionError String :=
  match (id_to_identity packages).get id with
  | some entry => .ok entry.2
  | none => .error (.UnresolvablePackageId id)

/-- One node of the graph. -/
def project_node (packages : List RawPackage) (node : RawNode) :
    Except ProjectionError ResolvedNode := do
  let identity ← resolve_identity packages node.id
  let deps ← node.deps.mapM fun d => resolve_identity packages d.pkg
  .ok (identity, deps.toFinset)

/-- The nodes are inserted one by one, and an identity that is there already is refused. -/
def project_resolved_graph (raw : RawMetadata) : Except ProjectionError ResolvedGraph :=
  collect (project_node raw.packages) .AmbiguousPackageIdentity raw.resolve.nodes

def from_raw_metadata (raw : RawMetadata) : Except ProjectionError CargoMetadataProjection := do
  let dependencies ← project_resolved_graph raw
  .ok { packages := sortBy PackageProjection.cmp (raw.packages.map RawPackage.project),
        dependencies }

/-- A package, with `links` only where it is declared. -/
def PackageProjection.to_json (p : PackageProjection) : Json.Value :=
  .object ([("name", .string p.name),
      ("targets", .array (p.targets.map fun t =>
        .object [("kind", .array (t.kind.map .string))]))] ++
    (p.links.map fun links => ("links", .string links)).toList)

def to_canonical_json (projection : CargoMetadataProjection) : String :=
  Json.to_string_pretty (.object
    [("packages", .array (projection.packages.map PackageProjection.to_json)),
      ("dependencies", .object (projection.dependencies.values.map fun node =>
        (node.1, .array ((node.2.sort (· ≤ ·)).map .string))))])

def projection_value (projection : CargoMetadataProjection) : Json.Value :=
  .object
    [("packages", .array (projection.packages.map PackageProjection.to_json)),
      ("dependencies", .object (projection.dependencies.values.map fun node =>
        (node.1, .array ((node.2.sort (· ≤ ·)).map .string))))]

/-- The dependencies, in the order of the set. -/
def sorted_dependencies (dependencies : Finset String) : List String := dependencies.sort (· ≤ ·)

/-! ## The order of the listing -/

/-- Nodes that list the same dependencies, in some order. -/
def RawNode.Alike (n n' : RawNode) : Prop :=
  n.id = n'.id ∧ n.deps.Perm n'.deps

/-- Cargo's output in another order. -/
structure RawMetadata.Reordered (raw raw' : RawMetadata) : Prop where
  packages : raw.packages.Perm raw'.packages
  nodes : Collect.Reordered RawNode.Alike raw.resolve.nodes raw'.resolve.nodes

/-- The projection does not depend on the order, and neither do the bytes written. -/
def OrderIndependent (raw : RawMetadata) : Prop :=
  ∀ raw', raw.Reordered raw' → from_raw_metadata raw' = from_raw_metadata raw ∧
    (from_raw_metadata raw').map to_canonical_json = (from_raw_metadata raw).map to_canonical_json

def Dangling (packages : List RawPackage) (id : String) : Prop :=
  ∀ p ∈ packages, p.id ≠ id

/-- The defects of a resolved graph: a node whose id no package has, a dependency of such an id,
and two nodes, with nothing dangling, whose packages share name and version. -/
inductive Defect (raw : RawMetadata) : ProjectionError → Prop where
  | node {n : RawNode} (hn : n ∈ raw.resolve.nodes) (hid : Dangling raw.packages n.id) :
    Defect raw (.UnresolvablePackageId n.id)
  | dependency {n : RawNode} {d : RawNodeDep} (hn : n ∈ raw.resolve.nodes)
    (hid : ¬ Dangling raw.packages n.id) (hd : d ∈ n.deps) (hpkg : Dangling raw.packages d.pkg) :
    Defect raw (.UnresolvablePackageId d.pkg)
  | doubled {m n : RawNode} {rest : List RawNode} {p q : RawPackage}
    (hnodes : raw.resolve.nodes.Perm (m :: n :: rest))
    (hp : p ∈ raw.packages) (hm : p.id = m.id)
    (hmdeps : ∀ d ∈ m.deps, ¬ Dangling raw.packages d.pkg)
    (hq : q ∈ raw.packages) (hn : q.id = n.id)
    (hndeps : ∀ d ∈ n.deps, ¬ Dangling raw.packages d.pkg)
    (hidentity : p.identity = q.identity) :
    Defect raw (.AmbiguousPackageIdentity q.identity)

/-! ## Resolving ids -/

section Resolving

variable {packages : List RawPackage} (hids : (packages.map RawPackage.id).Nodup)
include hids

theorem mem_id_to_identity {entry : String × String} :
    entry ∈ (id_to_identity packages).values ↔ ∃ p ∈ packages, (p.id, p.identity) = entry := by
  have hnodup : ((packages.map fun p => (p.id, p.identity)).map Prod.fst).Nodup := by
    rw [List.map_map]
    exact hids
  rw [id_to_identity, Store.mem_values_ofList hnodup, List.mem_map]

theorem resolve_identity_ok_iff {id identity : String} :
    resolve_identity packages id = .ok identity ↔
      ∃ p ∈ packages, p.id = id ∧ p.identity = identity := by
  have hmem := @mem_id_to_identity packages hids (id, identity)
  simp only [Store.mem_values, Prod.mk.injEq] at hmem
  rw [← hmem, resolve_identity]
  constructor
  · intro h
    split at h
    · next entry hget =>
      rw [hget, ← Except.ok.inj h, ← Store.key_of_get hget]
    · cases h
  · intro hget
    rw [hget]

theorem resolve_identity_error_iff {id : String} {e : ProjectionError} :
    resolve_identity packages id = .error e ↔
      Dangling packages id ∧ e = .UnresolvablePackageId id := by
  constructor
  · intro h
    have herror : e = .UnresolvablePackageId id := by
      rw [resolve_identity] at h
      split at h
      · cases h
      · exact (Except.error.inj h).symm
    refine ⟨fun p hp hid => ?_, herror⟩
    rw [(resolve_identity_ok_iff hids).mpr ⟨p, hp, hid, rfl⟩] at h
    cases h
  · rintro ⟨hdangling, rfl⟩
    cases h : resolve_identity packages id with
    | error e =>
      rw [resolve_identity] at h
      split at h
      · cases h
      · rw [← Except.error.inj h]
    | ok identity =>
      obtain ⟨p, hp, hid, -⟩ := (resolve_identity_ok_iff hids).mp h
      exact absurd hid (hdangling p hp)

/-- The order of the packages does not matter. -/
theorem id_to_identity_perm {packages' : List RawPackage} (hperm : packages.Perm packages') :
    id_to_identity packages' = id_to_identity packages := by
  have hids' : (packages'.map RawPackage.id).Nodup := (hperm.map _).nodup_iff.mp hids
  refine Store.ext_values fun entry => ?_
  simp only [mem_id_to_identity hids', mem_id_to_identity hids, hperm.mem_iff]

theorem resolve_of_not_dangling {id : String} (h : ¬ Dangling packages id) :
    ∃ identity, resolve_identity packages id = .ok identity := by
  cases hresolve : resolve_identity packages id with
  | error e => exact absurd ((resolve_identity_error_iff hids).mp hresolve).1 h
  | ok identity => exact ⟨identity, rfl⟩

/-! ## Projecting nodes -/

theorem project_node_ok_iff {n : RawNode} {v : ResolvedNode} :
    project_node packages n = .ok v ↔
      (∃ p ∈ packages, p.id = n.id ∧ p.identity = v.1) ∧
        ∃ deps, List.Forall₂ (fun d identity => resolve_identity packages d.pkg = .ok identity)
          n.deps deps ∧ deps.toFinset = v.2 := by
  simp only [project_node, Check.bind_ok_iff, Check.mapM_ok_iff]
  rw [← resolve_identity_ok_iff hids]
  constructor
  · rintro ⟨identity, hidentity, deps, hdeps, hv⟩
    rw [← Except.ok.inj hv]
    exact ⟨hidentity, deps, hdeps, rfl⟩
  · rintro ⟨hidentity, deps, hdeps, hv⟩
    exact ⟨_, hidentity, deps, hdeps, congrArg Except.ok (Prod.ext rfl hv)⟩

theorem project_node_of_closed {n : RawNode} {p : RawPackage} (hp : p ∈ packages)
    (hid : p.id = n.id) (hdeps : ∀ d ∈ n.deps, ¬ Dangling packages d.pkg) :
    ∃ v, project_node packages n = .ok v ∧ v.1 = p.identity := by
  have hresolved : ∃ deps, List.Forall₂
      (fun d identity => resolve_identity packages d.pkg = .ok identity) n.deps deps :=
    exists_forall₂ fun d hd => resolve_of_not_dangling hids (hdeps d hd)
  obtain ⟨deps, hresolved⟩ := hresolved
  exact ⟨(p.identity, deps.toFinset),
    (project_node_ok_iff hids).mpr ⟨⟨p, hp, hid, rfl⟩, deps, hresolved, rfl⟩, rfl⟩

theorem closed_of_project_node {n : RawNode} {v : ResolvedNode}
    (h : project_node packages n = .ok v) :
    (∃ p ∈ packages, p.id = n.id ∧ p.identity = v.1) ∧
      ∀ d ∈ n.deps, ¬ Dangling packages d.pkg := by
  obtain ⟨hp, deps, hdeps, -⟩ := (project_node_ok_iff hids).mp h
  refine ⟨hp, fun d hd hdangling => ?_⟩
  obtain ⟨identity, -, hresolve⟩ := Collect.exists_of_mem_left hdeps hd
  obtain ⟨q, hq, hid, -⟩ := (resolve_identity_ok_iff hids).mp hresolve
  exact hdangling q hq hid

theorem project_node_alike {n n' : RawNode} {v : ResolvedNode} (halike : n.Alike n')
    (h : project_node packages n = .ok v) : project_node packages n' = .ok v := by
  obtain ⟨hp, deps, hdeps, hv⟩ := (project_node_ok_iff hids).mp h
  obtain ⟨deps', hdeps', hperm⟩ := List.perm_comp_forall₂ halike.2.symm hdeps
  refine (project_node_ok_iff hids).mpr ⟨halike.1 ▸ hp, deps', hdeps', ?_⟩
  rw [← hv]
  exact List.toFinset_eq_of_perm _ _ hperm

theorem project_node_error {n : RawNode} {e : ProjectionError}
    (h : project_node packages n = .error e) :
    (Dangling packages n.id ∧ e = .UnresolvablePackageId n.id) ∨
      (¬ Dangling packages n.id ∧
        ∃ d ∈ n.deps, Dangling packages d.pkg ∧ e = .UnresolvablePackageId d.pkg) := by
  rcases Check.bind_error_iff.mp h with hid | ⟨identity, hidentity, hdeps⟩
  · exact .inl ((resolve_identity_error_iff hids).mp hid)
  · obtain ⟨p, hp, hid, -⟩ := (resolve_identity_ok_iff hids).mp hidentity
    refine .inr ⟨fun hdangling => hdangling p hp hid, ?_⟩
    rcases Check.bind_error_iff.mp hdeps with hdep | ⟨deps, -, hpure⟩
    · obtain ⟨d, hd, hresolve⟩ := Check.mapM_error hdep
      exact ⟨d, hd, (resolve_identity_error_iff hids).mp hresolve⟩
    · cases hpure

theorem project_node_dangling {n : RawNode} (h : Dangling packages n.id) :
    project_node packages n = .error (.UnresolvablePackageId n.id) :=
  Check.bind_error_iff.mpr (.inl ((resolve_identity_error_iff hids).mpr ⟨h, rfl⟩))

theorem project_node_dangling_dependency {n : RawNode} {d : RawNodeDep} {rest : List RawNodeDep}
    (hid : ¬ Dangling packages n.id) (hdeps : n.deps = d :: rest)
    (hpkg : Dangling packages d.pkg) :
    project_node packages n = .error (.UnresolvablePackageId d.pkg) := by
  obtain ⟨identity, hidentity⟩ := resolve_of_not_dangling hids hid
  refine Check.bind_error_iff.mpr (.inr ⟨identity, hidentity, ?_⟩)
  rw [hdeps, List.mapM_cons]
  refine Check.bind_error_iff.mpr (.inl (Check.bind_error_iff.mpr (.inl ?_)))
  exact (resolve_identity_error_iff hids).mpr ⟨hpkg, rfl⟩

end Resolving

/-! ## The graph -/

theorem RawNode.alike_equivalence : Equivalence RawNode.Alike where
  refl _ := ⟨rfl, .refl _⟩
  symm h := ⟨h.1.symm, h.2.symm⟩
  trans h h' := ⟨h.1.trans h'.1, h.2.trans h'.2⟩

section Graph

variable {raw : RawMetadata} (hids : (raw.packages.map RawPackage.id).Nodup)
include hids

/-- **The faults of the graph's run are the defects of the graph.** -/
theorem fault_iff_defect {e : ProjectionError} :
    Fault Prod.fst (project_node raw.packages) .AmbiguousPackageIdentity RawNode.Alike
        raw.resolve.nodes e ↔ Defect raw e := by
  constructor
  · intro h
    cases h with
    | @refused n n' e hn halike he =>
      rcases project_node_error hids he with ⟨hid, rfl⟩ | ⟨hid, d, hd, hpkg, rfl⟩
      · rw [← halike.1] at hid ⊢
        exact .node hn hid
      · rw [← halike.1] at hid
        exact .dependency hn hid (halike.2.mem_iff.mpr hd) hpkg
    | @doubled m n rest v w hnodes hv hw hkey =>
      obtain ⟨⟨p, hp, hm, hpv⟩, hmdeps⟩ := closed_of_project_node hids hv
      obtain ⟨⟨q, hq, hn, hqw⟩, hndeps⟩ := closed_of_project_node hids hw
      rw [← hqw]
      exact .doubled hnodes hp hm hmdeps hq hn hndeps (hpv.trans (hkey.trans hqw.symm))
  · intro h
    cases h with
    | node hn hid =>
      exact .refused hn (RawNode.alike_equivalence.refl _) (project_node_dangling hids hid)
    | @dependency n d hn hid hd hpkg =>
      obtain ⟨b, b', hdeps⟩ := List.append_of_mem hd
      -- the node is refused for the dependency once that is listed first
      have halike : n.Alike { n with deps := d :: (b ++ b') } := ⟨rfl, hdeps ▸ List.perm_middle⟩
      exact .refused hn halike (project_node_dangling_dependency hids hid rfl hpkg)
    | @doubled m n rest p q hnodes hp hm hmdeps hq hn hndeps hidentity =>
      obtain ⟨v, hv, hvp⟩ := project_node_of_closed hids hp hm hmdeps
      obtain ⟨w, hw, hwq⟩ := project_node_of_closed hids hq hn hndeps
      rw [← hwq]
      exact .doubled hnodes hv hw (hvp.trans (hidentity.trans hwq.symm))

theorem project_resolved_graph_packages {packages : List RawPackage}
    (hperm : raw.packages.Perm packages) (resolve : RawResolve) :
    project_resolved_graph { packages, resolve } =
      project_resolved_graph { packages := raw.packages, resolve } := by
  have hresolve : resolve_identity packages = resolve_identity raw.packages := by
    funext id
    rw [resolve_identity, id_to_identity_perm hids hperm, resolve_identity]
  have hnode : project_node packages = project_node raw.packages := by
    funext n
    rw [project_node, hresolve, project_node]
  rw [project_resolved_graph, project_resolved_graph, hnode]

theorem project_resolved_graph_ok_iff :
    (∃ graph, project_resolved_graph raw = .ok graph) ↔ ∀ e, ¬ Defect raw e := by
  constructor
  · rintro ⟨graph, hgraph⟩ e hdefect
    refine no_fault_of_collect_ok (fun n n' v halike => ?_) hgraph
      ((fault_iff_defect hids).mpr hdefect)
    exact project_node_alike hids halike
  · intro hnone
    cases h : project_resolved_graph raw with
    | error e =>
      have hfault := fault_of_collect_error RawNode.alike_equivalence h
      exact absurd ((fault_iff_defect hids).mp hfault) (hnone e)
    | ok graph => exact ⟨graph, rfl⟩

end Graph

/-! ## The projection -/

instance : TransCmp PackageProjection.cmp :=
  inferInstanceAs (TransCmp (compareOn PackageProjection.name))

theorem cmp_eq_iff {a b : PackageProjection} : a.cmp b = .eq ↔ a.name = b.name := by
  rw [PackageProjection.cmp, LawfulEqCmp.compare_eq_iff_eq]

/-- What the listing must be for its order not to show: at most one defect to report, and, where
the graph has none, one projection for each name. -/
structure Determined (raw : RawMetadata) : Prop where
  one_defect : ∀ e e', Defect raw e → Defect raw e' → e = e'
  one_projection : (∀ e, ¬ Defect raw e) → ∀ p ∈ raw.packages, ∀ q ∈ raw.packages,
    p.name = q.name → p.project = q.project

theorem from_raw_metadata_eq (raw : RawMetadata) :
    from_raw_metadata raw = (project_resolved_graph raw).map fun dependencies =>
      { packages := sortBy PackageProjection.cmp (raw.packages.map RawPackage.project),
        dependencies } := by
  rw [from_raw_metadata]
  cases project_resolved_graph raw <;> rfl

theorem exists_packages_of_perm {packages : List RawPackage} {l : List PackageProjection}
    (h : (packages.map RawPackage.project).Perm l) :
    ∃ packages', packages.Perm packages' ∧ packages'.map RawPackage.project = l := by
  have hcomp := congrFun₂ (List.eq_map_comp_perm RawPackage.project) l packages
  obtain ⟨packages', hl, hperm⟩ := hcomp.mpr h.symm
  exact ⟨packages', hperm.symm, hl.symm⟩

section Projection

variable {raw : RawMetadata} (hids : (raw.packages.map RawPackage.id).Nodup)
include hids

theorem project_resolved_graph_reordered (hone : ∀ e e', Defect raw e → Defect raw e' → e = e')
    {raw' : RawMetadata} (h : raw.Reordered raw') :
    project_resolved_graph raw' = project_resolved_graph raw := by
  obtain ⟨packages, resolve⟩ := raw'
  rw [project_resolved_graph_packages hids h.packages]
  refine (collect_reordered_iff RawNode.alike_equivalence
    fun n n' v halike => project_node_alike hids halike).mpr ?_ _ h.nodes
  intro e e' he he'
  exact hone e e' ((fault_iff_defect hids).mp he) ((fault_iff_defect hids).mp he')

/-- **The bundled metadata forget cargo's order exactly when the listing determines them**: the
packages of one name are projected alike, and a graph that is refused has one defect only. -/
theorem from_raw_metadata_order_independent_iff : OrderIndependent raw ↔ Determined raw := by
  constructor
  · intro hsame
    constructor
    · intro e e' he he'
      refine (collect_reordered_iff RawNode.alike_equivalence
        fun n n' v halike => project_node_alike hids halike).mp ?_ e e'
          ((fault_iff_defect hids).mpr he) ((fault_iff_defect hids).mpr he')
      intro nodes hnodes
      have hraw := (hsame { packages := raw.packages, resolve := { nodes } } ⟨.refl _, hnodes⟩).1
      rw [from_raw_metadata_eq, from_raw_metadata_eq] at hraw
      have hgraph : project_resolved_graph { packages := raw.packages, resolve := { nodes } } =
          project_resolved_graph raw := by
        revert hraw
        cases project_resolved_graph { packages := raw.packages, resolve := { nodes } } <;>
          cases project_resolved_graph raw <;> simp [Except.map]
      exact hgraph
    · intro hnone p hp q hq hname
      obtain ⟨graph, hgraph⟩ := (project_resolved_graph_ok_iff hids).mpr hnone
      refine (@sortBy_reordered_iff _ PackageProjection.cmp _ _ _).mp ?_ _
        (List.mem_map_of_mem hp) _ (List.mem_map_of_mem hq) ?_
      · intro l hl
        obtain ⟨packages, hperm, rfl⟩ := exists_packages_of_perm hl
        have hraw := (hsame { packages, resolve := raw.resolve }
          ⟨hperm, _, .refl _, List.forall₂_same.mpr fun n _ => ⟨rfl, .refl _⟩⟩).1
        rw [from_raw_metadata_eq, from_raw_metadata_eq,
          project_resolved_graph_packages hids hperm] at hraw
        simp only [hgraph, Except.map, Except.ok.injEq, CargoMetadataProjection.mk.injEq] at hraw
        exact hraw.1
      · exact cmp_eq_iff.mpr hname
  · intro hdetermined raw' h
    have hgraph := project_resolved_graph_reordered hids hdetermined.one_defect h
    have hraw : from_raw_metadata raw' = from_raw_metadata raw := by
      rw [from_raw_metadata_eq, from_raw_metadata_eq, hgraph]
      cases hproject : project_resolved_graph raw with
      | error e => rfl
      | ok graph =>
        have hnone := (project_resolved_graph_ok_iff hids).mp ⟨graph, hproject⟩
        have htied : ∀ a ∈ raw.packages.map RawPackage.project,
            ∀ b ∈ raw.packages.map RawPackage.project, PackageProjection.cmp a b = .eq → a = b := by
          simp only [List.forall_mem_map]
          intro p hp q hq hcmp
          exact hdetermined.one_projection hnone p hp q hq
            (cmp_eq_iff.mp hcmp)
        simp only [Except.map, sortBy_congr (h.packages.map RawPackage.project) htied]
    exact ⟨hraw, by rw [hraw]⟩

end Projection

/-! ## Two versions of a crate -/

section Witness

/-- A package without targets, of a version and with a `links` of its own. -/
def crate_version (version : String) (links : Option String) : RawPackage :=
  { name := "ring", id := "ring@" ++ version, version, targets := [], links }

/-- Two versions of one crate, resolved, neither with a dependency. -/
def two_versions (p q : RawPackage) : RawMetadata :=
  { packages := [p, q], resolve := { nodes := [⟨p.id, []⟩, ⟨q.id, []⟩] } }

theorem two_versions_graph {p q : RawPackage} (hids : p.id ≠ q.id)
    (hversions : p.identity ≠ q.identity) :
    ∃ graph, project_resolved_graph (two_versions p q) = .ok graph := by
  have hnodup : ((two_versions p q).packages.map RawPackage.id).Nodup := by
    simp [two_versions, hids]
  have hnode : ∀ r ∈ [p, q], project_node [p, q] ⟨r.id, []⟩ = .ok (r.identity, ∅) := fun r hr =>
    (project_node_ok_iff hnodup).mpr ⟨⟨r, hr, rfl, rfl⟩, [], .nil, rfl⟩
  refine ⟨_, collect_ok_iff.mpr ⟨[(p.identity, ∅), (q.identity, ∅)], ?_, ?_, rfl⟩⟩
  · exact .cons (hnode p (by simp)) (.cons (hnode q (by simp)) .nil)
  · simp [hversions]

/-- `from_raw_metadata_order_independent_iff` on two versions that are projected alike. -/
theorem from_raw_metadata_order_independent_alike :
    OrderIndependent
      (two_versions (crate_version "0.16.20" none) (crate_version "0.17.8" none)) := by
  have hnodup : ((two_versions (crate_version "0.16.20" none)
      (crate_version "0.17.8" none)).packages.map RawPackage.id).Nodup := by
    decide
  have hnone := (project_resolved_graph_ok_iff hnodup).mp
    (two_versions_graph (by decide) (by decide))
  refine (from_raw_metadata_order_independent_iff hnodup).mpr
    ⟨fun e _ he => absurd he (hnone e), ?_⟩
  intro _
  decide

/-- **Two versions of a crate show cargo's order** where they differ in `links`: the two listings
are projected to different lists of packages. -/
theorem from_raw_metadata_shows_order :
    ((two_versions (crate_version "0.16.20" (some "ring-asm"))
        (crate_version "0.17.8" (some "ring_core_0_17_8_"))).packages.map RawPackage.id).Nodup ∧
      ¬ OrderIndependent (two_versions (crate_version "0.16.20" (some "ring-asm"))
        (crate_version "0.17.8" (some "ring_core_0_17_8_"))) := by
  have hnodup : ((two_versions (crate_version "0.16.20" (some "ring-asm"))
      (crate_version "0.17.8" (some "ring_core_0_17_8_"))).packages.map RawPackage.id).Nodup := by
    decide
  refine ⟨hnodup, fun hsame => ?_⟩
  obtain ⟨graph, hgraph⟩ := @two_versions_graph (crate_version "0.16.20" (some "ring-asm"))
    (crate_version "0.17.8" (some "ring_core_0_17_8_")) (by decide) (by decide)
  have hraw := (hsame { packages := [_, _], resolve := _ } ⟨List.Perm.swap _ _ _, _, .refl _,
    List.forall₂_same.mpr fun n _ => ⟨rfl, .refl _⟩⟩).1
  rw [from_raw_metadata_eq, from_raw_metadata_eq,
    project_resolved_graph_packages hnodup (List.Perm.swap _ _ _)] at hraw
  simp only [hgraph, Except.map, Except.ok.injEq, CargoMetadataProjection.mk.injEq] at hraw
  exact absurd hraw.1 (by decide)

end Witness

end Evidence.Bundle
