/-
`corpus/legacy.rs` -- the entries of a trace as nodes of the corpus graph.

Every entry becomes one node: a requirement of its file's layer, with its links as
`DerivesFrom` edges, or a test, with its links as `Verifies` edges. What the graph
itself does not hold goes into the trace metadata under the node's uid. An entry
without a uid is an error, and the nodes are inserted one by one, so the graph's
own checks of identity and of repeated edges apply.
-/
import Evidence.Corpus.ReviewChains
import Evidence.Lib.Collect
import Evidence.Lib.Lists
import Evidence.Trace.Entries

set_option autoImplicit false

namespace Evidence.Corpus

open Std Check Sorting Trace

/-! ## Adapted nodes -/

structure AdaptedNode where
  node : Node
  metadata : TraceMetadata
deriving DecidableEq

def require_uid (uid : Option String) (id : String) : Except CorpusError String :=
  match uid with
  | some uid => .ok uid
  | none => .error (.LegacyMissingUid id)

def derives_from_edges (traces_to : List String) : List Edge :=
  traces_to.map fun target => (.DerivesFrom, target)

/-- A system or a high-level requirement; the layer is the file's. -/
def requirement_from_hlr_entry (entry : HlrEntry) (layer : RequirementLayer) :
    Except CorpusError AdaptedNode := do
  let uid ← require_uid entry.uid entry.id
  .ok
    { node := .Requirement
        { uid := uid, id := entry.id, title := entry.title, layer := layer
          edges := derives_from_edges entry.traces_to
          description := entry.description, rationale := entry.rationale
          scope := entry.scope, category := entry.category, source := entry.source
          verification_methods := canonical_strings entry.verification_methods
          safety_impact := none }
      metadata := .Requirement
        { «namespace» := entry.ns, sort_key := entry.sort_key, scope := entry.scope
          category := entry.category, source := entry.source, modules := []
          surfaces := canonical_strings entry.surfaces, emits := []
          verification_methods := canonical_strings entry.verification_methods } }

def requirement_from_llr_entry (entry : LlrEntry) : Except CorpusError AdaptedNode := do
  let uid ← require_uid entry.uid entry.id
  .ok
    { node := .Requirement
        { uid := uid, id := entry.id, title := entry.title, layer := .Llr
          edges := derives_from_edges entry.traces_to
          description := entry.description, rationale := none, scope := none, category := none
          source := entry.source
          verification_methods := canonical_strings entry.verification_methods
          safety_impact := none }
      metadata := .Requirement
        { «namespace» := entry.ns, sort_key := entry.sort_key, scope := none, category := none
          source := entry.source, modules := entry.modules, surfaces := []
          emits := canonical_strings entry.emits
          verification_methods := canonical_strings entry.verification_methods } }

def requirement_from_derived_entry (entry : DerivedEntry) : Except CorpusError AdaptedNode := do
  let uid ← require_uid entry.uid entry.id
  .ok
    { node := .Requirement
        { uid := uid, id := entry.id, title := entry.title, layer := .Derived, edges := []
          description := entry.description, rationale := entry.rationale, scope := none
          category := none, source := entry.source, verification_methods := []
          safety_impact := entry.safety_impact }
      metadata := .Requirement
        { «namespace» := none, sort_key := entry.sort_key, scope := none, category := none
          source := entry.source, modules := [], surfaces := [], emits := []
          verification_methods := [] } }

def test_from_entry (entry : TestEntry) : Except CorpusError AdaptedNode := do
  let uid ← require_uid entry.uid entry.id
  .ok
    { node := .Test
        { uid := uid, id := entry.id, title := entry.title, selectors := entry.all_selectors
          edges := entry.traces_to.map fun target => (.Verifies, target) }
      metadata := .Test
        { «namespace» := entry.ns, sort_key := entry.sort_key, category := entry.category
          source := entry.source, primary_selector := entry.test_selector } }

/-! ## The graph of a trace -/

def insert_adapted (graph : CorpusGraph) (adapted : AdaptedNode) :
    Except CorpusError CorpusGraph :=
  graph.insert_with_trace_metadata adapted.node adapted.metadata

def insert_entries {α : Type} (adapt : α → Except CorpusError AdaptedNode) (graph : CorpusGraph)
    (entries : List α) : Except CorpusError CorpusGraph :=
  entries.foldlM (fun graph entry => do insert_adapted graph (← adapt entry)) graph

def graph_from_trace_parts (sys hlrs : List HlrEntry) (llrs : List LlrEntry)
    (tests : List TestEntry) (derived : List DerivedEntry) : Except CorpusError CorpusGraph := do
  let graph ← insert_entries (requirement_from_hlr_entry · .Sys) .new sys
  let graph ← insert_entries (requirement_from_hlr_entry · .Hlr) graph hlrs
  let graph ← insert_entries requirement_from_llr_entry graph llrs
  let graph ← insert_entries requirement_from_derived_entry graph derived
  insert_entries test_from_entry graph tests

def derived_entries (files : TraceFiles) : List DerivedEntry :=
  match files.derived with
  | none => []
  | some derived => derived.requirements

def graph_from_trace_files (files : TraceFiles) : Except CorpusError CorpusGraph :=
  graph_from_trace_parts files.sys.requirements files.hlr.requirements files.llr.requirements
    files.tests.tests (derived_entries files)

/-! ## Edges -/

instance : TransCmp CorpusGraph.edge_cmp :=
  inferInstanceAs (TransCmp (compareLex (compareOn fun edge : Edge => edge.1.rank)
    (compareOn Prod.snd)))

theorem EdgeKind.rank_inj {a b : EdgeKind} (h : a.rank = b.rank) : a = b := by
  cases a <;> cases b <;> simp [EdgeKind.rank] at h ⊢

instance : LawfulEqCmp CorpusGraph.edge_cmp where
  eq_of_compare := by
    intro a b h
    obtain ⟨hrank, htarget⟩ := compareLex_eq_eq.mp h
    have hkind : compare a.1.rank b.1.rank = .eq := hrank
    have hname : compare a.2 b.2 = .eq := htarget
    exact Prod.ext (EdgeKind.rank_inj (LawfulEqOrd.compare_eq_iff_eq.mp hkind))
      (LawfulEqOrd.compare_eq_iff_eq.mp hname)

/-- No edge is found repeated exactly when no two neighbours are equal. -/
theorem repeated_eq_none_iff {edges : List Edge} :
    CorpusGraph.repeated edges = none ↔ edges.IsChain (· ≠ ·) := by
  induction edges with
  | nil => simp [CorpusGraph.repeated]
  | cons first rest ih =>
    cases rest with
    | nil => simp [CorpusGraph.repeated]
    | cons second rest =>
      rw [CorpusGraph.repeated, List.isChain_cons_cons]
      by_cases h : first = second
      · simp [h]
      · rw [if_neg h, ih]
        exact (and_iff_right h).symm

theorem repeated_sortBy_eq_none_iff {edges : List Edge} :
    CorpusGraph.repeated (sortBy CorpusGraph.edge_cmp edges) = none ↔ edges.Nodup :=
  repeated_eq_none_iff.trans distinct_neighbours_sortBy_iff

/-! ## Insertion -/

namespace AdaptedNode

/-- The node under its canonical edges, as the graph holds it. -/
def stored (a : AdaptedNode) : Node := CorpusGraph.canonical a.node

def entry (a : AdaptedNode) : MetadataEntry := (a.node.uid, a.metadata)

end AdaptedNode

/-- The graph that holds the nodes and nothing else. -/
def graph_of (nodes : List AdaptedNode) : CorpusGraph where
  nodes := Store.ofList (nodes.map AdaptedNode.stored)
  trace_metadata := Store.ofList (nodes.map AdaptedNode.entry)
  source_graphs := Store.empty
  source_patches := Store.empty

/-- Nodes that a graph can hold: the identities are unique, and no edge is repeated. -/
structure Insertable (nodes : List AdaptedNode) : Prop where
  uids : (nodes.map (·.node.uid)).Nodup
  ids : (nodes.map fun a => (a.node.kind, a.node.id)).Nodup
  edges : ∀ a ∈ nodes, a.node.edges.Nodup

theorem map_stored_uid (nodes : List AdaptedNode) :
    (nodes.map AdaptedNode.stored).map Node.uid = nodes.map (·.node.uid) := by
  rw [List.map_map]
  exact List.map_congr_left fun a _ => CorpusGraph.canonical_uid a.node

theorem mem_graph_of {nodes : List AdaptedNode} (huids : (nodes.map (·.node.uid)).Nodup)
    {node : Node} : node ∈ (graph_of nodes).nodes.values ↔ ∃ a ∈ nodes, a.stored = node := by
  rw [graph_of, Store.mem_values_ofList (by rwa [map_stored_uid]), List.mem_map]

theorem graph_of_get {nodes : List AdaptedNode} (huids : (nodes.map (·.node.uid)).Nodup)
    {uid : String} {node : Node} :
    (graph_of nodes).get uid = some node ↔ ∃ a ∈ nodes, a.stored = node ∧ a.node.uid = uid := by
  constructor
  · intro h
    obtain ⟨a, ha, rfl⟩ := (mem_graph_of huids).mp (Store.mem_values_of_get h)
    have hkey := Store.key_of_get h
    rw [AdaptedNode.stored, CorpusGraph.canonical_uid] at hkey
    exact ⟨a, ha, rfl, hkey⟩
  · rintro ⟨a, ha, rfl, rfl⟩
    have hmem := (mem_graph_of huids).mpr ⟨a, ha, rfl⟩
    rw [Store.mem_values, AdaptedNode.stored, CorpusGraph.canonical_uid] at hmem
    exact hmem

theorem graph_of_snoc (nodes : List AdaptedNode) (a : AdaptedNode) :
    graph_of (nodes ++ [a]) =
      { graph_of nodes with
        nodes := (graph_of nodes).nodes.put a.stored
        trace_metadata := (graph_of nodes).trace_metadata.put a.entry } := by
  simp only [graph_of, Store.ofList, List.map_append, List.map_cons, List.map_nil,
    List.foldl_append, List.foldl_cons, List.foldl_nil]

theorem insert_adapted_ok_iff {graph graph' : CorpusGraph} {a : AdaptedNode} :
    insert_adapted graph a = .ok graph' ↔
      graph.nodes.get a.node.uid = none ∧
      (∀ existing ∈ graph.nodes.values,
        ¬ (existing.kind = a.node.kind ∧ existing.id = a.node.id)) ∧
      a.node.edges.Nodup ∧
      graph' = { graph with
        nodes := graph.nodes.put a.stored
        trace_metadata := graph.trace_metadata.put a.entry } := by
  rw [insert_adapted, CorpusGraph.insert_with_trace_metadata, bind_ok_iff]
  simp only [CorpusGraph.insert_ok_iff, repeated_sortBy_eq_none_iff, Except.ok.injEq]
  constructor
  · rintro ⟨_, ⟨hget, hids, hedges, rfl⟩, rfl⟩
    exact ⟨hget, hids, hedges, rfl⟩
  · rintro ⟨hget, hids, hedges, rfl⟩
    exact ⟨_, ⟨hget, hids, hedges, rfl⟩, rfl⟩

theorem insertable_snoc {nodes : List AdaptedNode} {a : AdaptedNode} :
    Insertable (nodes ++ [a]) ↔ Insertable nodes ∧ a.node.uid ∉ nodes.map (·.node.uid) ∧
      (a.node.kind, a.node.id) ∉ nodes.map (fun a => (a.node.kind, a.node.id)) ∧
      a.node.edges.Nodup := by
  constructor
  · rintro ⟨huids, hids, hedges⟩
    rw [List.map_append, List.map_singleton, Lists.nodup_snoc] at huids hids
    refine ⟨⟨huids.1, hids.1, fun b hb => hedges b (List.mem_append_left _ hb)⟩, huids.2, hids.2, ?_⟩
    exact hedges a (List.mem_append_right _ (List.mem_singleton_self a))
  · rintro ⟨⟨huids, hids, hedges⟩, huid, hid, hedge⟩
    refine ⟨?_, ?_, fun b hb => ?_⟩
    · rw [List.map_append, List.map_singleton, Lists.nodup_snoc]
      exact ⟨huids, huid⟩
    · rw [List.map_append, List.map_singleton, Lists.nodup_snoc]
      exact ⟨hids, hid⟩
    · rcases List.mem_append.mp hb with hb | hb
      · exact hedges b hb
      · rwa [List.mem_singleton.mp hb]

/-- **One insertion.** -/
theorem insert_adapted_graph_of {nodes : List AdaptedNode} (h : Insertable nodes)
    {a : AdaptedNode} {graph : CorpusGraph} :
    insert_adapted (graph_of nodes) a = .ok graph ↔
      Insertable (nodes ++ [a]) ∧ graph = graph_of (nodes ++ [a]) := by
  have hget : (graph_of nodes).nodes.get a.node.uid = none ↔
      a.node.uid ∉ nodes.map (·.node.uid) := by
    rw [Option.eq_none_iff_forall_ne_some, List.mem_map]
    constructor
    · rintro hnone ⟨b, hb, huid⟩
      exact hnone _ ((graph_of_get h.uids).mpr ⟨b, hb, rfl, huid⟩)
    · intro hnot node hnode
      obtain ⟨b, hb, -, huid⟩ := (graph_of_get h.uids).mp hnode
      exact hnot ⟨b, hb, huid⟩
  have hids : (∀ existing ∈ (graph_of nodes).nodes.values,
      ¬ (existing.kind = a.node.kind ∧ existing.id = a.node.id)) ↔
        (a.node.kind, a.node.id) ∉ nodes.map fun a => (a.node.kind, a.node.id) := by
    rw [List.mem_map]
    constructor
    · rintro hnone ⟨b, hb, hsame⟩
      rw [Prod.mk.injEq] at hsame
      refine hnone b.stored ((mem_graph_of h.uids).mpr ⟨b, hb, rfl⟩) ?_
      rwa [AdaptedNode.stored, CorpusGraph.canonical_kind, CorpusGraph.canonical_id]
    · rintro hnot existing hexisting hsame
      obtain ⟨b, hb, rfl⟩ := (mem_graph_of h.uids).mp hexisting
      rw [AdaptedNode.stored, CorpusGraph.canonical_kind, CorpusGraph.canonical_id] at hsame
      exact hnot ⟨b, hb, Prod.ext hsame.1 hsame.2⟩
  rw [insert_adapted_ok_iff, hget, hids, insertable_snoc, graph_of_snoc, and_iff_right h]
  simp only [and_assoc]

/-- **Every insertion is accepted exactly when the nodes are insertable**, and the graph
then holds the nodes. -/
theorem insert_all_adapted_ok_iff {nodes : List AdaptedNode} {graph : CorpusGraph} :
    nodes.foldlM insert_adapted .new = .ok graph ↔ Insertable nodes ∧ graph = graph_of nodes := by
  induction nodes using List.reverseRecOn generalizing graph with
  | nil =>
    constructor
    · intro h
      exact ⟨⟨List.nodup_nil, List.nodup_nil, fun a ha => absurd ha List.not_mem_nil⟩,
        (Except.ok.inj h).symm⟩
    · rintro ⟨-, rfl⟩
      rfl
  | append_singleton nodes a ih =>
    rw [List.foldlM_append, bind_ok_iff]
    constructor
    · rintro ⟨before, hbefore, hlast⟩
      obtain ⟨hnodes, rfl⟩ := ih.mp hbefore
      simp only [List.foldlM_cons, List.foldlM_nil, bind_pure] at hlast
      exact (insert_adapted_graph_of hnodes).mp hlast
    · rintro ⟨hnodes, hgraph⟩
      have hbefore : Insertable nodes := (insertable_snoc.mp hnodes).1
      refine ⟨graph_of nodes, ih.mpr ⟨hbefore, rfl⟩, ?_⟩
      simp only [List.foldlM_cons, List.foldlM_nil, bind_pure]
      exact (insert_adapted_graph_of hbefore).mpr ⟨hnodes, hgraph⟩

theorem insert_entries_ok_iff {α : Type} {adapt : α → Except CorpusError AdaptedNode}
    {entries : List α} {graph graph' : CorpusGraph} :
    insert_entries adapt graph entries = .ok graph' ↔
      ∃ nodes, List.Forall₂ (fun entry a => adapt entry = .ok a) entries nodes ∧
        nodes.foldlM insert_adapted graph = .ok graph' := by
  induction entries generalizing graph with
  | nil =>
    constructor
    · intro h
      exact ⟨[], .nil, h⟩
    · rintro ⟨nodes, hnodes, h⟩
      rw [List.forall₂_nil_left_iff.mp hnodes] at h
      exact h
  | cons entry entries ih =>
    rw [insert_entries, List.foldlM_cons, bind_ok_iff]
    constructor
    · rintro ⟨next, hfirst, hrest⟩
      obtain ⟨a, ha, hinsert⟩ := bind_ok_iff.mp hfirst
      obtain ⟨nodes, hnodes, hrun⟩ := ih.mp hrest
      refine ⟨a :: nodes, .cons ha hnodes, ?_⟩
      rw [List.foldlM_cons, bind_ok_iff]
      exact ⟨next, hinsert, hrun⟩
    · rintro ⟨nodes, hnodes, hrun⟩
      obtain ⟨a, rest, ha, hrest, rfl⟩ := List.forall₂_cons_left_iff.mp hnodes
      rw [List.foldlM_cons, bind_ok_iff] at hrun
      obtain ⟨next, hinsert, hrun⟩ := hrun
      exact ⟨next, bind_ok_iff.mpr ⟨a, ha, hinsert⟩, ih.mpr ⟨rest, hrest, hrun⟩⟩

/-! ## The graph, from the entries -/

def adapt : TraceItem → Except CorpusError AdaptedNode
  | .Sys entry => requirement_from_hlr_entry entry .Sys
  | .Hlr entry => requirement_from_hlr_entry entry .Hlr
  | .Llr entry => requirement_from_llr_entry entry
  | .Test entry => test_from_entry entry
  | .Derived entry => requirement_from_derived_entry entry

def inserted_items (sys hlrs : List HlrEntry) (llrs : List LlrEntry) (tests : List TestEntry)
    (derived : List DerivedEntry) : List TraceItem :=
  sys.map .Sys ++ hlrs.map .Hlr ++ llrs.map .Llr ++ derived.map .Derived ++ tests.map .Test

theorem inserted_items_perm (sys hlrs : List HlrEntry) (llrs : List LlrEntry)
    (tests : List TestEntry) (derived : List DerivedEntry) :
    (inserted_items sys hlrs llrs tests derived).Perm
      (trace_items sys hlrs llrs tests derived) := by
  simp only [inserted_items, trace_items, List.append_assoc]
  exact ((List.perm_append_comm.append_left _).append_left _).append_left _

theorem insert_entries_append {α : Type} {adapt : α → Except CorpusError AdaptedNode}
    {graph : CorpusGraph} {entries more : List α} :
    insert_entries adapt graph (entries ++ more) =
      (insert_entries adapt graph entries >>= fun graph => insert_entries adapt graph more) :=
  List.foldlM_append

theorem insert_entries_map {α β : Type} {adapt : β → Except CorpusError AdaptedNode} {f : α → β}
    {graph : CorpusGraph} {entries : List α} :
    insert_entries adapt graph (entries.map f) =
      insert_entries (fun entry => adapt (f entry)) graph entries :=
  List.foldlM_map

theorem graph_from_trace_parts_eq (sys hlrs : List HlrEntry) (llrs : List LlrEntry)
    (tests : List TestEntry) (derived : List DerivedEntry) :
    graph_from_trace_parts sys hlrs llrs tests derived =
      insert_entries adapt .new (inserted_items sys hlrs llrs tests derived) := by
  simp only [inserted_items, insert_entries_append, insert_entries_map, bind_assoc]
  rfl

/-- **The graph of a trace holds the nodes of its entries**, if it can. -/
theorem graph_from_trace_parts_ok_iff {sys hlrs : List HlrEntry} {llrs : List LlrEntry}
    {tests : List TestEntry} {derived : List DerivedEntry} {graph : CorpusGraph} :
    graph_from_trace_parts sys hlrs llrs tests derived = .ok graph ↔
      ∃ nodes, List.Forall₂ (fun item a => adapt item = .ok a)
          (inserted_items sys hlrs llrs tests derived) nodes ∧
        Insertable nodes ∧ graph = graph_of nodes := by
  rw [graph_from_trace_parts_eq, insert_entries_ok_iff]
  simp only [insert_all_adapted_ok_iff]

def node_kind : EntryKind → NodeKind
  | .TEST => .Test
  | _ => .Requirement

def link_kind : EntryKind → EdgeKind
  | .TEST => .Verifies
  | _ => .DerivesFrom

/-- What the node of an entry shows of it. -/
structure Represents (item : TraceItem) (a : AdaptedNode) : Prop where
  uid : item.uid = some a.node.uid
  kind : a.node.kind = node_kind item.kind
  id : a.node.id = item.id
  edges : a.node.edges = item.links.map fun target => (link_kind item.kind, target)

theorem require_uid_ok_iff {uid : Option String} {id found : String} :
    require_uid uid id = .ok found ↔ uid = some found := by
  cases uid <;> simp [require_uid]

/-- An entry is adapted exactly when it has a uid, and its node shows it. -/
theorem represents_of_adapt {item : TraceItem} {a : AdaptedNode} (h : adapt item = .ok a) :
    Represents item a := by
  cases item with
  | Sys entry | Hlr entry | Llr entry | Test entry | Derived entry =>
    obtain ⟨uid, huid, hnode⟩ := bind_ok_iff.mp h
    rw [← Except.ok.inj hnode]
    exact ⟨require_uid_ok_iff.mp huid, rfl, rfl, rfl⟩

theorem exists_adapt {item : TraceItem} (h : item.uid.isSome = true) : ∃ a, adapt item = .ok a := by
  cases item with
  | Sys entry | Hlr entry | Llr entry | Test entry | Derived entry =>
    obtain ⟨uid, huid⟩ := Option.isSome_iff_exists.mp h
    exact ⟨_, bind_ok_iff.mpr ⟨uid, require_uid_ok_iff.mpr huid, rfl⟩⟩

/-- What a graph of nodes asks for, of the entries. -/
structure Graphable (items : List TraceItem) : Prop where
  uids : ∀ item ∈ items, item.uid.isSome = true
  unique : (items.map TraceItem.uid).Nodup
  ids : (items.map fun item => (node_kind item.kind, item.id)).Nodup
  links : ∀ item ∈ items, item.links.Nodup

theorem Graphable.of_perm {items items' : List TraceItem} (h : items.Perm items')
    (hitems : Graphable items) : Graphable items' where
  uids item hitem := hitems.uids item (h.mem_iff.mpr hitem)
  unique := (h.map _).nodup_iff.mp hitems.unique
  ids := (h.map _).nodup_iff.mp hitems.ids
  links item hitem := hitems.links item (h.mem_iff.mpr hitem)

theorem insertable_iff {items : List TraceItem} {nodes : List AdaptedNode}
    (h : List.Forall₂ Represents items nodes) : Insertable nodes ↔ Graphable items := by
  have huids : items.map TraceItem.uid = nodes.map fun a => some a.node.uid :=
    List.forall₂_eq_eq_eq ▸ (List.forall₂_map_left_iff.mpr
      (List.forall₂_map_right_iff.mpr (h.imp fun _ _ hr => hr.uid)))
  have hids : (items.map fun item => (node_kind item.kind, item.id)) =
      nodes.map fun a => (a.node.kind, a.node.id) :=
    List.forall₂_eq_eq_eq ▸ (List.forall₂_map_left_iff.mpr
      (List.forall₂_map_right_iff.mpr (h.imp fun _ _ hr => by rw [hr.kind, hr.id])))
  have hnodup : (items.map TraceItem.uid).Nodup ↔ (nodes.map (·.node.uid)).Nodup := by
    have hmap : (nodes.map fun a => some a.node.uid) = (nodes.map (·.node.uid)).map some := by
      rw [List.map_map]
      rfl
    rw [huids, hmap, List.nodup_map_iff (Option.some_injective _)]
  have hlinks : ∀ {item : TraceItem} {a : AdaptedNode}, Represents item a →
      (a.node.edges.Nodup ↔ item.links.Nodup) := by
    intro item a hr
    rw [hr.edges, List.nodup_map_iff fun _ _ heq => (Prod.mk.inj heq).2]
  constructor
  · rintro ⟨hu, hi, he⟩
    refine ⟨fun item hitem => ?_, hnodup.mpr hu, hids ▸ hi, fun item hitem => ?_⟩
    · obtain ⟨a, -, hr⟩ := Collect.exists_of_mem_left h hitem
      rw [hr.uid]
      rfl
    · obtain ⟨a, ha, hr⟩ := Collect.exists_of_mem_left h hitem
      exact (hlinks hr).mp (he a ha)
  · rintro ⟨-, hu, hi, hl⟩
    refine ⟨hnodup.mp hu, hids ▸ hi, fun a ha => ?_⟩
    obtain ⟨item, hitem, hr⟩ := Collect.exists_of_mem_right h ha
    exact (hlinks hr).mpr (hl item hitem)

/-- **A trace has a graph exactly when** its entries are graphable. -/
theorem graph_exists_iff {sys hlrs : List HlrEntry} {llrs : List LlrEntry}
    {tests : List TestEntry} {derived : List DerivedEntry} :
    (∃ graph, graph_from_trace_parts sys hlrs llrs tests derived = .ok graph) ↔
      Graphable (trace_items sys hlrs llrs tests derived) := by
  have hperm := inserted_items_perm sys hlrs llrs tests derived
  constructor
  · rintro ⟨graph, hgraph⟩
    obtain ⟨nodes, hadapt, hnodes, rfl⟩ := graph_from_trace_parts_ok_iff.mp hgraph
    exact ((insertable_iff (hadapt.imp fun _ _ => represents_of_adapt)).mp hnodes).of_perm hperm
  · intro hgraphable
    have hitems := hgraphable.of_perm hperm.symm
    obtain ⟨nodes, hadapt⟩ := Collect.exists_forall₂ fun item hitem =>
      exists_adapt (hitems.uids item hitem)
    have hnodes := (insertable_iff (hadapt.imp fun _ _ => represents_of_adapt)).mpr hitems
    exact ⟨graph_of nodes, graph_from_trace_parts_ok_iff.mpr ⟨nodes, hadapt, hnodes, rfl⟩⟩

/-! ## Validation -/

/-- Every link is the uid of a requirement. -/
def LinksResolve (items : List TraceItem) : Prop :=
  ∀ item ∈ items, ∀ link ∈ item.links, ∃ target ∈ items,
    target.kind ≠ .TEST ∧ target.uid = some link

theorem LinksResolve.of_perm {items items' : List TraceItem} (h : items.Perm items')
    (hitems : LinksResolve items) : LinksResolve items' := by
  intro item hitem link hlink
  obtain ⟨target, htarget, hresolved⟩ := hitems item (h.mem_iff.mpr hitem) link hlink
  exact ⟨target, h.mem_iff.mp htarget, hresolved⟩

theorem AdaptedNode.stored_edges (a : AdaptedNode) :
    a.stored.edges = sortBy CorpusGraph.edge_cmp a.node.edges := by
  rw [AdaptedNode.stored, CorpusGraph.canonical]
  cases a.node <;> rfl

/-- The edges of an entry may join any requirement, and nothing else. -/
theorem edge_kinds_match_iff (source target : EntryKind) :
    edge_kinds_match (node_kind source) (link_kind source) (node_kind target) = true ↔
      target ≠ .TEST := by
  cases source <;> cases target <;> decide

section Nodes

variable {items : List TraceItem} {nodes : List AdaptedNode}

/-- The nodes of entries are requirements and tests. -/
theorem kind_of_mem (h : List.Forall₂ Represents items nodes) (hnodes : Insertable nodes)
    {node : Node} (hnode : node ∈ (graph_of nodes).nodes.values) :
    ∃ item ∈ items, node.kind = node_kind item.kind ∧ item.uid = some node.uid ∧
      ∀ edge, edge ∈ node.edges ↔ ∃ link ∈ item.links, edge = (link_kind item.kind, link) := by
  obtain ⟨a, ha, rfl⟩ := (mem_graph_of hnodes.uids).mp hnode
  obtain ⟨item, hitem, hr⟩ := Collect.exists_of_mem_right h ha
  refine ⟨item, hitem, ?_, ?_, fun edge => ?_⟩
  · rw [AdaptedNode.stored, CorpusGraph.canonical_kind, hr.kind]
  · rw [AdaptedNode.stored, CorpusGraph.canonical_uid, hr.uid]
  · rw [AdaptedNode.stored_edges, mem_sortBy, hr.edges, List.mem_map]
    exact ⟨fun ⟨link, hlink, heq⟩ => ⟨link, hlink, heq.symm⟩,
      fun ⟨link, hlink, heq⟩ => ⟨link, hlink, heq.symm⟩⟩

/-- A uid is looked up exactly when an entry has it. -/
theorem get_graph_of_iff (h : List.Forall₂ Represents items nodes) (hnodes : Insertable nodes)
    {uid : String} {kind : NodeKind} :
    (∃ node, (graph_of nodes).get uid = some node ∧ node.kind = kind) ↔
      ∃ item ∈ items, item.uid = some uid ∧ node_kind item.kind = kind := by
  constructor
  · rintro ⟨node, hget, rfl⟩
    obtain ⟨a, ha, rfl, rfl⟩ := (graph_of_get hnodes.uids).mp hget
    obtain ⟨item, hitem, hr⟩ := Collect.exists_of_mem_right h ha
    exact ⟨item, hitem, hr.uid, by rw [AdaptedNode.stored, CorpusGraph.canonical_kind, hr.kind]⟩
  · rintro ⟨item, hitem, huid, rfl⟩
    obtain ⟨a, ha, hr⟩ := Collect.exists_of_mem_left h hitem
    have hsame : a.node.uid = uid := Option.some.inj (hr.uid.symm.trans huid)
    refine ⟨a.stored, (graph_of_get hnodes.uids).mpr ⟨a, ha, rfl, hsame⟩, ?_⟩
    rw [AdaptedNode.stored, CorpusGraph.canonical_kind, hr.kind]

theorem validate_edges_graph_of_iff (h : List.Forall₂ Represents items nodes)
    (hnodes : Insertable nodes) :
    validate_edges (graph_of nodes) = .ok () ↔ LinksResolve items := by
  have hedge : ∀ (node : Node) (edge : Edge), node.kind ≠ .Review →
      (validate_edge (graph_of nodes) node edge = .ok () ↔
        ∃ target, (graph_of nodes).get edge.2 = some target ∧
          edge_kinds_match node.kind edge.1 target.kind = true) := by
    intro node edge hkind
    unfold validate_edge
    cases hget : (graph_of nodes).get edge.2 with
    | none => simp [failIf_ok_iff, hkind]
    | some target => simp [failIf_ok_iff]
  have hreview : ∀ kind, node_kind kind ≠ .Review := by
    intro kind
    cases kind <;> decide
  simp only [validate_edges, forM_ok_iff]
  constructor
  · intro hvalid item hitem link hlink
    obtain ⟨a, ha, hr⟩ := Collect.exists_of_mem_left h hitem
    have hstored := (mem_graph_of hnodes.uids).mpr ⟨a, ha, rfl⟩
    have hkind : a.stored.kind = node_kind item.kind := by
      rw [AdaptedNode.stored, CorpusGraph.canonical_kind, hr.kind]
    have hmem : (link_kind item.kind, link) ∈ a.stored.edges := by
      rw [AdaptedNode.stored_edges, mem_sortBy, hr.edges]
      exact List.mem_map_of_mem hlink
    obtain ⟨target, hget, hmatch⟩ :=
      (hedge _ _ (hkind ▸ hreview item.kind)).mp (hvalid _ hstored _ hmem)
    obtain ⟨found, hfound, huid, hfoundkind⟩ :=
      (get_graph_of_iff h hnodes).mp ⟨target, hget, rfl⟩
    rw [hkind, ← hfoundkind, edge_kinds_match_iff] at hmatch
    exact ⟨found, hfound, hmatch, huid⟩
  · intro hlinks node hnode edge hedges
    obtain ⟨item, hitem, hkind, -, hmem⟩ := kind_of_mem h hnodes hnode
    obtain ⟨link, hlink, rfl⟩ := (hmem edge).mp hedges
    obtain ⟨found, hfound, htest, huid⟩ := hlinks item hitem link hlink
    obtain ⟨target, hget, htarget⟩ := (get_graph_of_iff h hnodes).mpr ⟨found, hfound, huid, rfl⟩
    refine (hedge _ _ (hkind ▸ hreview item.kind)).mpr ⟨target, hget, ?_⟩
    rw [hkind, htarget, edge_kinds_match_iff]
    exact htest

theorem validate_graph_of_iff [Sha256] [F64Display] (h : List.Forall₂ Represents items nodes)
    (hnodes : Insertable nodes) : (graph_of nodes).validate = .ok () ↔ LinksResolve items := by
  have hkinds : ∀ node ∈ (graph_of nodes).nodes.values,
      node.as_review = none ∧ node.as_source_revision = none := by
    intro node hnode
    obtain ⟨item, -, hkind, -⟩ := kind_of_mem h hnodes hnode
    have hentry : node.kind = .Requirement ∨ node.kind = .Test := by
      rw [hkind]
      cases item.kind <;> decide
    cases node with
    | Requirement _ | Test _ => exact ⟨rfl, rfl⟩
    | Review _ | SourceRevision _ => simp [Node.kind] at hentry
  have hreviews : (graph_of nodes).reviews = [] :=
    List.filterMap_eq_nil_iff.mpr fun node hnode => (hkinds node hnode).1
  have hrevisions : (graph_of nodes).source_revisions = [] :=
    List.filterMap_eq_nil_iff.mpr fun node hnode => (hkinds node hnode).2
  rw [CorpusGraph.validate_ok_iff, validate_edges_graph_of_iff h hnodes]
  refine and_iff_left ⟨?_, ?_, ?_, ?_, ?_⟩
  · rw [validate_review_nodes, hreviews]
    rfl
  · simp only [validate_review_supersession, review_chains, hreviews]
    rfl
  · have hkeys : document_keys (graph_of nodes) = [] := by
      rw [document_keys, hrevisions]
      rfl
    simp only [validate_source_lineage, source_chains, hrevisions, reject_multiple_roots,
      reject_multiple_heads, reject_multiple, hkeys]
    rfl
  · exact forM_ok_iff.mpr fun committed hmem => absurd hmem (Store.not_mem_values_empty committed)
  · exact forM_ok_iff.mpr fun patch hmem => absurd hmem (Store.not_mem_values_empty patch)

end Nodes

/-- **A trace has a valid graph exactly when** its entries have uids and unique identities, no
entry repeats a link, and every link is the uid of a requirement. -/
theorem valid_graph_iff [Sha256] [F64Display] {sys hlrs : List HlrEntry} {llrs : List LlrEntry}
    {tests : List TestEntry} {derived : List DerivedEntry} :
    (∃ graph, graph_from_trace_parts sys hlrs llrs tests derived = .ok graph ∧
        graph.validate = .ok ()) ↔
      Graphable (trace_items sys hlrs llrs tests derived) ∧
        LinksResolve (trace_items sys hlrs llrs tests derived) := by
  have hperm := inserted_items_perm sys hlrs llrs tests derived
  constructor
  · rintro ⟨graph, hgraph, hvalid⟩
    refine ⟨graph_exists_iff.mp ⟨graph, hgraph⟩, ?_⟩
    obtain ⟨nodes, hadapt, hnodes, rfl⟩ := graph_from_trace_parts_ok_iff.mp hgraph
    have hr := hadapt.imp fun _ _ => represents_of_adapt
    exact ((validate_graph_of_iff hr hnodes).mp hvalid).of_perm hperm
  · rintro ⟨hgraphable, hlinks⟩
    obtain ⟨graph, hgraph⟩ := graph_exists_iff.mpr hgraphable
    refine ⟨graph, hgraph, ?_⟩
    obtain ⟨nodes, hadapt, hnodes, rfl⟩ := graph_from_trace_parts_ok_iff.mp hgraph
    have hr := hadapt.imp fun _ _ => represents_of_adapt
    exact (validate_graph_of_iff hr hnodes).mpr (hlinks.of_perm hperm.symm)

end Evidence.Corpus
