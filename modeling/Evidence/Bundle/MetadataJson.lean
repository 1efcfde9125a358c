/-
`boundary_check/metadata.rs`, `cargo_metadata.rs` -- cargo's metadata and its projection
on the wire.

The boundary checks and the projection each declare the fields of cargo's output that
they read: the checks know of the workspace's members and of no versions, the projection
of versions and of no members. What both read, the packages with their targets and
`links`, is the same in any value that both accept (`packages_views`). The projection as
it is written is read back as it was (`from_projection_value`).
-/
import Evidence.Bundle.BoundaryCheck
import Evidence.Bundle.CargoMetadata
import Evidence.Lib.Json

set_option autoImplicit false

namespace Evidence.BoundaryCheck

open Std Sorting Json Evidence.Bundle

/-! ## The metadata the checks read -/

def Target.from_value (v : Value) : Option Target := do
  let stated ← fields ["kind"] v
  let kind ← defaulted (vec Value.as_str) [] stated "kind"
  some { kind }

def Package.from_value (v : Value) : Option Package := do
  let stated ← fields ["name", "id", "targets", "links"] v
  let name ← required Value.as_str stated "name"
  let id ← required Value.as_str stated "id"
  let targets ← defaulted (vec Target.from_value) [] stated "targets"
  let links ← defaulted (nullable Value.as_str) none stated "links"
  some { name, id, targets, links }

def NodeDep.from_value (v : Value) : Option NodeDep := do
  let stated ← fields ["pkg"] v
  let pkg ← required Value.as_str stated "pkg"
  some { pkg }

def Node.from_value (v : Value) : Option Node := do
  let stated ← fields ["id", "deps"] v
  let id ← required Value.as_str stated "id"
  let deps ← required (vec NodeDep.from_value) stated "deps"
  some { id, deps }

def Resolve.from_value (v : Value) : Option Resolve := do
  let stated ← fields ["nodes"] v
  let nodes ← required (vec Node.from_value) stated "nodes"
  some { nodes }

def Metadata.from_value (v : Value) : Option Metadata := do
  let stated ← fields ["packages", "workspace_members", "resolve"] v
  let packages ← required (vec Package.from_value) stated "packages"
  let workspace_members ← required (vec Value.as_str) stated "workspace_members"
  let resolve ← required Resolve.from_value stated "resolve"
  some { packages, workspace_members, resolve }

/-! ## The metadata that is projected -/

def RawTarget.from_value (v : Value) : Option RawTarget := do
  let stated ← fields ["kind"] v
  let kind ← defaulted (vec Value.as_str) [] stated "kind"
  some { kind }

def RawPackage.from_value (v : Value) : Option RawPackage := do
  let stated ← fields ["name", "id", "version", "targets", "links"] v
  let name ← required Value.as_str stated "name"
  let id ← required Value.as_str stated "id"
  let version ← required Value.as_str stated "version"
  let targets ← defaulted (vec RawTarget.from_value) [] stated "targets"
  let links ← defaulted (nullable Value.as_str) none stated "links"
  some { name, id, version, targets, links }

def RawNodeDep.from_value (v : Value) : Option RawNodeDep := do
  let stated ← fields ["pkg"] v
  let pkg ← required Value.as_str stated "pkg"
  some { pkg }

def RawNode.from_value (v : Value) : Option RawNode := do
  let stated ← fields ["id", "deps"] v
  let id ← required Value.as_str stated "id"
  let deps ← required (vec RawNodeDep.from_value) stated "deps"
  some { id, deps }

def RawResolve.from_value (v : Value) : Option RawResolve := do
  let stated ← fields ["nodes"] v
  let nodes ← required (vec RawNode.from_value) stated "nodes"
  some { nodes }

def RawMetadata.from_value (v : Value) : Option RawMetadata := do
  let stated ← fields ["packages", "resolve"] v
  let packages ← required (vec RawPackage.from_value) stated "packages"
  let resolve ← required RawResolve.from_value stated "resolve"
  some { packages, resolve }

/-! ## The projection -/

def TargetProjection.from_value (v : Value) : Option TargetProjection := do
  let stated ← fields ["kind"] v
  let kind ← required (vec Value.as_str) stated "kind"
  some { kind }

def PackageProjection.from_value (v : Value) : Option PackageProjection := do
  let stated ← fields ["name", "targets", "links"] v
  let name ← required Value.as_str stated "name"
  let targets ← required (vec TargetProjection.from_value) stated "targets"
  let links ← defaulted (nullable Value.as_str) none stated "links"
  some { name, targets, links }

/-- One entry of the graph: an identity, and a set of identities. -/
def node_from_member (member : String × Value) : Option ResolvedNode :=
  (vec Value.as_str member.2).map fun deps => (member.1, deps.toFinset)

/-- The graph: a map, in which a later entry replaces an earlier one. -/
def graph_from_value : Value → Option ResolvedGraph
  | .object members => (members.mapM node_from_member).map Store.ofList
  | _ => none

def CargoMetadataProjection.from_value (v : Value) : Option CargoMetadataProjection := do
  let stated ← fields ["packages", "dependencies"] v
  let packages ← required (vec PackageProjection.from_value) stated "packages"
  let dependencies ← required graph_from_value stated "dependencies"
  some { packages, dependencies }

/-! ## What both read -/

def Package.project (p : Package) : PackageProjection :=
  { name := p.name, targets := p.targets.map fun t => { kind := t.kind }, links := p.links }

theorem target_views (v : Value) (t : Target) (r : RawTarget) (ht : Target.from_value v = some t)
    (hr : RawTarget.from_value v = some r) :
    ({ kind := t.kind } : TargetProjection) = { kind := r.kind } := by
  simp only [Target.from_value, Option.bind_eq_bind, Option.bind_eq_some_iff] at ht
  simp only [RawTarget.from_value, Option.bind_eq_bind, Option.bind_eq_some_iff] at hr
  obtain ⟨stated, hstated, kind, hkind, ht⟩ := ht
  obtain ⟨stated', hstated', kind', hkind', hr⟩ := hr
  rw [hstated, Option.some.injEq] at hstated'
  rw [← hstated', hkind, Option.some.injEq] at hkind'
  rw [← Option.some.inj ht, ← Option.some.inj hr, hkind']

theorem targets_views {stated stated' : List (String × Value)}
    (hlookup : stated.lookup "targets" = stated'.lookup "targets") {targets : List Target}
    {targets' : List RawTarget}
    (htargets : defaulted (vec Target.from_value) [] stated "targets" = some targets)
    (htargets' : defaulted (vec RawTarget.from_value) [] stated' "targets" = some targets') :
    (targets.map fun t => ({ kind := t.kind } : TargetProjection)) =
      targets'.map fun t => { kind := t.kind } := by
  rw [defaulted, hlookup] at htargets
  rw [defaulted] at htargets'
  rcases hstated : stated'.lookup "targets" with _ | v
  · rw [hstated, Option.elim_none] at htargets htargets'
    rw [← Option.some.inj htargets, ← Option.some.inj htargets']
    rfl
  · rw [hstated, Option.elim_some] at htargets htargets'
    exact vec_views target_views htargets htargets'

/-- **A package's name, targets and `links` are the same.** Read by the places of its fields,
a package is accepted by one of the two at most: what follows its id is a version or a
list. -/
theorem package_views (v : Value) (p : Package) (r : RawPackage)
    (hp : Package.from_value v = some p) (hr : RawPackage.from_value v = some r) :
    p.project = r.project := by
  simp only [Package.from_value, Option.bind_eq_bind, Option.bind_eq_some_iff] at hp
  simp only [RawPackage.from_value, Option.bind_eq_bind, Option.bind_eq_some_iff] at hr
  obtain ⟨stated, hstated, name, hname, id, -, targets, htargets, links, hlinks, hp⟩ := hp
  obtain ⟨stated', hstated', name', hname', id', -, version, hversion, targets', htargets',
    links', hlinks', hr⟩ := hr
  rw [← Option.some.inj hp, ← Option.some.inj hr]
  cases v with
  | object members =>
    have hlookup (field : String) (h : field ∈ ["name", "id", "targets", "links"])
        (h' : field ∈ ["name", "id", "version", "targets", "links"]) :
        stated.lookup field = stated'.lookup field :=
      (lookup_fields hstated h).trans (lookup_fields hstated' h').symm
    rw [required, hlookup "name" (by decide) (by decide), ← required, hname',
      Option.some.injEq] at hname
    have hlinks_eq : links' = links := by
      rw [defaulted, hlookup "links" (by decide) (by decide)] at hlinks
      rw [defaulted, hlinks, Option.some.injEq] at hlinks'
      exact hlinks'.symm
    rw [Package.project, RawPackage.project, PackageProjection.mk.injEq]
    exact ⟨hname.symm, targets_views (hlookup "targets" (by decide) (by decide)) htargets htargets',
      hlinks_eq.symm⟩
  | array items =>
    -- the third item is both a version and a list of targets
    rw [fields] at hstated hstated'
    split_ifs at hstated hstated'
    rw [← Option.some.inj hstated] at htargets
    rw [← Option.some.inj hstated'] at hversion
    rcases items with _ | ⟨first, _ | ⟨second, _ | ⟨third, items⟩⟩⟩
    · cases hversion
    · simp [required, List.lookup_cons] at hversion
    · simp [required, List.lookup_cons] at hversion
    · have htext : third.as_str = some version := by
        simpa [required, List.lookup_cons] using hversion
      have hlist : vec Target.from_value third = some targets := by
        simpa [defaulted, List.lookup_cons] using htargets
      obtain ⟨list, rfl, -⟩ := vec_eq_some hlist
      cases htext
  | _ => cases hstated

/-- **The packages both read are the same.** -/
theorem packages_views {v : Value} {metadata : Metadata} {raw : RawMetadata}
    (hmetadata : Metadata.from_value v = some metadata)
    (hraw : RawMetadata.from_value v = some raw) :
    metadata.packages.map Package.project = raw.packages.map RawPackage.project := by
  simp only [Metadata.from_value, Option.bind_eq_bind, Option.bind_eq_some_iff] at hmetadata
  simp only [RawMetadata.from_value, Option.bind_eq_bind, Option.bind_eq_some_iff] at hraw
  obtain ⟨stated, hstated, packages, hpackages, members, -, resolve, hresolve, hmetadata⟩ :=
    hmetadata
  obtain ⟨stated', hstated', packages', hpackages', resolve', hresolve', hraw⟩ := hraw
  rw [← Option.some.inj hmetadata, ← Option.some.inj hraw]
  cases v with
  | object members =>
    have hlookup : stated.lookup "packages" = stated'.lookup "packages" :=
      (lookup_fields hstated (by decide)).trans (lookup_fields hstated' (by decide)).symm
    rw [required, hlookup] at hpackages
    rw [required] at hpackages'
    obtain ⟨list, hlist, hpackages⟩ := Option.bind_eq_some_iff.mp hpackages
    rw [hlist, Option.bind_some] at hpackages'
    exact vec_views package_views hpackages hpackages'
  | array items =>
    -- two items are too few for the one, and three too many for the other
    rw [fields] at hstated hstated'
    split_ifs at hstated hstated' with hlength hlength'
    rw [← Option.some.inj hstated] at hresolve
    rcases items with _ | ⟨first, _ | ⟨second, _ | ⟨third, items⟩⟩⟩
    · cases hresolve
    · simp [required, List.lookup_cons] at hresolve
    · simp [required, List.lookup_cons] at hresolve
    · simp at hlength'
  | _ => cases hstated

/-! ## Reading back -/

/-- Texts are read back. -/
theorem vec_as_str (texts : List String) :
    vec Value.as_str (.array (texts.map .string)) = some texts :=
  @vec_array _ Value.as_str .string (fun _ => rfl) texts

/-- A target is read back. -/
theorem target_from_value (t : TargetProjection) :
    TargetProjection.from_value (.object [("kind", .array (t.kind.map .string))]) = some t := by
  simp [TargetProjection.from_value, fields, required, vec_as_str]

/-- A package is read back, with or without `links`. -/
theorem package_from_value (p : PackageProjection) :
    PackageProjection.from_value p.to_json = some p := by
  have htargets : vec TargetProjection.from_value (.array (p.targets.map fun t =>
      .object [("kind", .array (t.kind.map .string))])) = some p.targets :=
    vec_array target_from_value p.targets
  obtain ⟨name, targets, links⟩ := p
  rcases links with _ | links
  · simp [PackageProjection.from_value, PackageProjection.to_json, fields, required, defaulted,
      List.lookup_cons, htargets, Value.as_str]
  · simp [PackageProjection.from_value, PackageProjection.to_json, fields, required, defaulted,
      List.lookup_cons, htargets, Value.as_str, nullable]

theorem ofList_values (graph : ResolvedGraph) : Store.ofList graph.values = graph := by
  refine Store.ext_values fun v => ?_
  rw [Store.mem_values_ofList (Store.values_keys_nodup graph)]

/-- The graph is read back. -/
theorem graph_from_value_values (graph : ResolvedGraph) :
    graph_from_value (.object (graph.values.map fun node =>
      (node.1, .array ((node.2.sort (· ≤ ·)).map .string)))) = some graph := by
  have hnode (node : ResolvedNode) :
      node_from_member (node.1, .array ((node.2.sort (· ≤ ·)).map .string)) = some node := by
    rw [node_from_member, vec_as_str, Option.map_some, Finset.sort_toFinset]
  have hmembers (nodes : List ResolvedNode) :
      (nodes.map fun node : ResolvedNode =>
        ((node.1, .array ((node.2.sort (· ≤ ·)).map .string)) : String × Value)).mapM
          node_from_member = some nodes := by
    induction nodes with
    | nil => rfl
    | cons node nodes ih =>
      rw [List.map_cons, List.mapM_cons, hnode, ih]
      rfl
  rw [graph_from_value, hmembers, Option.map_some, ofList_values]

/-- **The projection that was written is read back.** -/
theorem from_projection_value (projection : CargoMetadataProjection) :
    CargoMetadataProjection.from_value (projection_value projection) = some projection := by
  have hpackages : vec PackageProjection.from_value
      (.array (projection.packages.map PackageProjection.to_json)) = some projection.packages :=
    vec_array package_from_value projection.packages
  have hgraph := graph_from_value_values projection.dependencies
  simp only [CargoMetadataProjection.from_value, projection_value, fields]
  simp [required, List.lookup_cons, hpackages, hgraph]

end Evidence.BoundaryCheck
