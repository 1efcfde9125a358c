/-
Building the corpus graph does not depend on the order of the records.

Two accepted insertions may change places, in the node plane (`CorpusGraph.insert_swap`) and in the
source-graph plane (`insert_source_node_swap`): what each checks of the other is symmetric. A run
of insertions is then accepted in every order or in none, and leaves the same graph. The edges
of a node are sorted before they are stored, so that their order is lost as well.
-/
import Evidence.Corpus.Legacy

set_option autoImplicit false

namespace Evidence.Corpus

open Check Sorting

/-! ## Source graphs -/

/-- Two accepted insertions into one source graph may change places. -/
theorem SourceGraph.insert_swap {graph next last : SourceGraph} {a b : SourceNode}
    (ha : graph.insert a = .ok next) (hb : next.insert b = .ok last) :
    ∃ next', graph.insert b = .ok next' ∧ next'.insert a = .ok last := by
  obtain ⟨hgeta, hfreea, rfl⟩ := SourceGraph.insert_ok_iff.mp ha
  obtain ⟨hgetb, hfreeb, rfl⟩ := SourceGraph.insert_ok_iff.mp hb
  have hne : a.uid ≠ b.uid := by
    intro heq
    rw [Store.get_put, if_pos heq] at hgetb
    cases hgetb
  have hold : graph.get b.uid = none := by
    rwa [Store.get_put, if_neg hne] at hgetb
  have hstored : ∀ m ∈ graph.values, m ∈ (graph.put a).values := by
    intro m hm
    rw [Store.mem_values_put]
    refine .inr ⟨?_, hm⟩
    intro huid
    rw [← huid, Store.mem_values.mp hm] at hgeta
    cases hgeta
  refine ⟨graph.put b, SourceGraph.insert_ok_iff.mpr ⟨hold, ?_, rfl⟩,
    SourceGraph.insert_ok_iff.mpr ⟨?_, ?_, ?_⟩⟩
  · intro m hm
    exact hfreeb m (hstored m hm)
  · rw [Store.get_put, if_neg (Ne.symm hne)]
    exact hgeta
  · intro m hm hsame
    obtain rfl | ⟨-, hm⟩ := Store.mem_values_put.mp hm
    · exact hfreeb a (Store.mem_values_put.mpr (.inl rfl)) hsame.symm
    · exact hfreea m hm hsame
  · apply Store.ext
    intro uid
    rw [Store.get_put, Store.get_put, Store.get_put, Store.get_put]
    by_cases huid : a.uid = uid
    · rw [if_pos huid, if_neg fun hb => hne (huid.trans hb.symm), if_pos huid]
    · rw [if_neg huid, if_neg huid]

namespace CorpusGraph

theorem ext_source_graphs {graph other : CorpusGraph} (hnodes : graph.nodes = other.nodes)
    (hmetadata : graph.trace_metadata = other.trace_metadata)
    (hpatches : graph.source_patches = other.source_patches)
    (hgraphs : ∀ revision_uid, graph.source_graph revision_uid = other.source_graph revision_uid) :
    graph = other := by
  have hplane : graph.source_graphs = other.source_graphs := by
    apply Store.ext
    intro revision_uid
    have hsame := hgraphs revision_uid
    rw [source_graph, source_graph] at hsame
    cases hget : graph.source_graphs.get revision_uid with
    | none =>
      rw [hget, Option.map_none, eq_comm, Option.map_eq_none_iff] at hsame
      exact hsame.symm
    | some committed =>
      rw [hget, Option.map_some, eq_comm, Option.map_eq_some_iff] at hsame
      obtain ⟨found, hfound, hgraph⟩ := hsame
      have hkey : committed.revision_uid = found.revision_uid :=
        (Store.key_of_get hget).trans (Store.key_of_get hfound).symm
      rw [hfound]
      cases committed
      cases found
      cases hgraph
      cases hkey
      rfl
  cases graph
  cases other
  cases hnodes
  cases hmetadata
  cases hpatches
  cases hplane
  rfl

/-- **What an accepted source node changes**: the graph of its own revision. -/
theorem insert_source_node_ok {graph graph' : CorpusGraph} {node : SourceNode}
    (h : graph.insert_source_node node = .ok graph') :
    ∃ inserted, (graph.parser_graph node.source_revision_uid).insert node = .ok inserted ∧
      graph'.nodes = graph.nodes ∧ graph'.trace_metadata = graph.trace_metadata ∧
      graph'.source_patches = graph.source_patches ∧
      ∀ revision_uid, graph'.source_graph revision_uid =
        if node.source_revision_uid = revision_uid then some inserted
        else graph.source_graph revision_uid := by
  unfold insert_source_node at h
  split at h
  · cases h
  · rename_i inserted hinserted
    refine ⟨inserted, hinserted, ?_⟩
    rw [← Except.ok.inj h]
    refine ⟨rfl, rfl, rfl, ?_⟩
    intro revision_uid
    rw [source_graph, Store.get_put]
    by_cases hrevision : node.source_revision_uid = revision_uid
    · rw [if_pos hrevision, if_pos hrevision]
      rfl
    · rw [if_neg hrevision, if_neg hrevision]
      rfl

theorem insert_source_node_exists {graph : CorpusGraph} {node : SourceNode} {inserted : SourceGraph}
    (h : (graph.parser_graph node.source_revision_uid).insert node = .ok inserted) :
    ∃ graph', graph.insert_source_node node = .ok graph' := by
  unfold insert_source_node
  split
  · rename_i error herror
    rw [h] at herror
    cases herror
  · exact ⟨_, rfl⟩

theorem parser_graph_congr {graph other : CorpusGraph} {revision_uid : String}
    (h : graph.source_graph revision_uid = other.source_graph revision_uid) :
    graph.parser_graph revision_uid = other.parser_graph revision_uid := by
  rw [parser_graph, h, parser_graph]

/-- Two accepted source nodes may change places, of one revision or of two. -/
theorem insert_source_node_swap {graph next last : CorpusGraph} {a b : SourceNode}
    (ha : graph.insert_source_node a = .ok next) (hb : next.insert_source_node b = .ok last) :
    ∃ next', graph.insert_source_node b = .ok next' ∧ next'.insert_source_node a = .ok last := by
  obtain ⟨ga, hga, hnodesa, hmetaa, hpatchesa, hgraphsa⟩ := insert_source_node_ok ha
  obtain ⟨gb, hgb, hnodesb, hmetab, hpatchesb, hgraphsb⟩ := insert_source_node_ok hb
  -- the two insertions into source graphs, in the other order
  obtain ⟨gb', ga', hgb', hga', hgraphs⟩ : ∃ gb' ga',
      (graph.parser_graph b.source_revision_uid).insert b = .ok gb' ∧
      (∀ next' : CorpusGraph, (∀ revision_uid, next'.source_graph revision_uid =
          if b.source_revision_uid = revision_uid then some gb'
          else graph.source_graph revision_uid) →
        (next'.parser_graph a.source_revision_uid).insert a = .ok ga') ∧
      ∀ revision_uid, (if b.source_revision_uid = revision_uid then some gb else
          if a.source_revision_uid = revision_uid then some ga
          else graph.source_graph revision_uid) =
        if a.source_revision_uid = revision_uid then some ga' else
          if b.source_revision_uid = revision_uid then some gb'
          else graph.source_graph revision_uid := by
    by_cases hrevision : a.source_revision_uid = b.source_revision_uid
    · have hnext : next.parser_graph b.source_revision_uid = ga := by
        rw [parser_graph, hgraphsa, if_pos hrevision]
        rfl
      rw [hnext] at hgb
      rw [hrevision] at hga
      obtain ⟨gb', hfirst, hsecond⟩ := SourceGraph.insert_swap hga hgb
      refine ⟨gb', gb, hfirst, ?_, ?_⟩
      · intro next' hnext'
        rw [parser_graph, hnext', if_pos hrevision.symm]
        exact hsecond
      · intro revision_uid
        rw [hrevision]
        by_cases hb : b.source_revision_uid = revision_uid
        · rw [if_pos hb, if_pos hb]
        · rw [if_neg hb, if_neg hb, if_neg hb, if_neg hb]
    · have hsame : next.parser_graph b.source_revision_uid =
          graph.parser_graph b.source_revision_uid :=
        parser_graph_congr (by rw [hgraphsa, if_neg hrevision])
      rw [hsame] at hgb
      refine ⟨gb, ga, hgb, ?_, ?_⟩
      · intro next' hnext'
        have hsource : next'.source_graph a.source_revision_uid =
            graph.source_graph a.source_revision_uid := by
          rw [hnext', if_neg (Ne.symm hrevision)]
        rw [parser_graph_congr hsource]
        exact hga
      · intro revision_uid
        by_cases hb : b.source_revision_uid = revision_uid
        · rw [if_pos hb, if_neg fun ha => hrevision (ha.trans hb.symm), if_pos hb]
        · rw [if_neg hb, if_neg hb]
  obtain ⟨next', hnext'⟩ := insert_source_node_exists hgb'
  obtain ⟨found, hfound, hnodes', hmeta', hpatches', hgraphs'⟩ := insert_source_node_ok hnext'
  rw [hgb'] at hfound
  cases hfound
  obtain ⟨last', hlast'⟩ := insert_source_node_exists (hga' next' hgraphs')
  obtain ⟨found, hfound, hnodes'', hmeta'', hpatches'', hgraphs''⟩ := insert_source_node_ok hlast'
  rw [hga' next' hgraphs'] at hfound
  cases hfound
  refine ⟨next', hnext', ?_⟩
  rw [hlast']
  apply congrArg Except.ok
  apply ext_source_graphs
  · rw [hnodes'', hnodes', hnodesb, hnodesa]
  · rw [hmeta'', hmeta', hmetab, hmetaa]
  · rw [hpatches'', hpatches', hpatchesb, hpatchesa]
  · intro revision_uid
    rw [hgraphs'', hgraphs', hgraphsb, hgraphsa]
    exact (hgraphs revision_uid).symm

/-- Insert several source nodes, one after the other. -/
def insert_source_nodes (graph : CorpusGraph) (nodes : List SourceNode) :
    Except SourceGraphError CorpusGraph :=
  nodes.foldlM CorpusGraph.insert_source_node graph

/-- **Source nodes may be inserted in any order.** -/
theorem insert_source_nodes_perm {graph graph' : CorpusGraph} {nodes nodes' : List SourceNode}
    (hperm : nodes.Perm nodes') (h : graph.insert_source_nodes nodes = .ok graph') :
    graph.insert_source_nodes nodes' = .ok graph' := by
  have hrun : Runs CorpusGraph.insert_source_node graph nodes graph' := foldlM_ok_iff.mp h
  refine foldlM_ok_iff.mpr (hrun.perm ?_ hperm)
  intro s u t x y hx hy
  exact insert_source_node_swap hx hy

/-! ## Edges -/

theorem insert_with_edges {graph graph' : CorpusGraph} {node : Node} {edges : List Edge}
    (hperm : edges.Perm node.edges) :
    graph.insert (node.with_edges edges) = .ok graph' ↔ graph.insert node = .ok graph' := by
  have hsorted : sortBy edge_cmp edges = sortBy edge_cmp node.edges :=
    sortBy_congr hperm fun a _ b _ heq => Std.LawfulEqCmp.compare_eq_iff_eq.mp heq
  have hfields : (node.with_edges edges).edges = edges ∧ (node.with_edges edges).uid = node.uid ∧
      (node.with_edges edges).kind = node.kind ∧ (node.with_edges edges).id = node.id := by
    cases node <;> exact ⟨rfl, rfl, rfl, rfl⟩
  have hcanonical : canonical (node.with_edges edges) = canonical node := by
    rw [canonical, canonical, hfields.1, hsorted]
    cases node <;> rfl
  rw [insert_ok_iff, insert_ok_iff, hfields.1, hfields.2.1, hfields.2.2.1, hfields.2.2.2, hsorted,
    hcanonical]

/-- **Graph construction is independent of record order.** Nodes, and source nodes, are accepted
in every order or in none, and then leave the same graph; and a node leaves the same graph
whatever the order of its edges. -/
theorem construction_order_independent :
    (∀ (nodes nodes' : List Node), nodes.Perm nodes' → ∀ graph,
      CorpusGraph.new.insert_all nodes = .ok graph ↔
        CorpusGraph.new.insert_all nodes' = .ok graph) ∧
    (∀ (nodes nodes' : List SourceNode), nodes.Perm nodes' → ∀ graph,
      CorpusGraph.new.insert_source_nodes nodes = .ok graph ↔
        CorpusGraph.new.insert_source_nodes nodes' = .ok graph) ∧
    ∀ (graph : CorpusGraph) (node : Node) (edges : List Edge), edges.Perm node.edges →
      ∀ graph', graph.insert (node.with_edges edges) = .ok graph' ↔
        graph.insert node = .ok graph' := by
  refine ⟨?_, ?_, ?_⟩
  · intro nodes nodes' hperm graph
    exact ⟨insert_all_perm hperm, insert_all_perm hperm.symm⟩
  · intro nodes nodes' hperm graph
    exact ⟨insert_source_nodes_perm hperm, insert_source_nodes_perm hperm.symm⟩
  · intro graph node edges hperm graph'
    exact insert_with_edges hperm

/-- Two revisions of a document. -/
def two_revisions : List Node :=
  [.SourceRevision (revision_node "src_a" "SRC-1" []),
   .SourceRevision (revision_node "src_b" "SRC-2" [(.Supersedes, "src_a")])]

/-- They may be inserted the other way round. -/
theorem construction_order_independent_two_revisions (graph : CorpusGraph) :
    CorpusGraph.new.insert_all two_revisions = .ok graph ↔
      CorpusGraph.new.insert_all two_revisions.reverse = .ok graph :=
  construction_order_independent.1 _ _ (List.reverse_perm _).symm graph

end CorpusGraph

end Evidence.Corpus
