/-
`CorpusGraph::validate` -- the checks of the whole corpus, in their order.
-/
import Evidence.Corpus.Graph.Validation
import Evidence.Corpus.SourcePatch.Validate

set_option autoImplicit false

namespace Evidence.Corpus

open Check

variable [Sha256] [F64Display]

/-- Edges, review invariants, review supersession, source lineage, source graphs,
curated patches. -/
def CorpusGraph.validate (graph : CorpusGraph) : Except CorpusError Unit := do
  validate_edges graph
  (validate_review_nodes graph).mapError .Review
  (validate_review_supersession graph).mapError .Review
  (validate_source_lineage graph).mapError .Source
  (validate_source_graphs graph).mapError .SourceGraph
  (validate_source_patches graph).mapError .SourcePatch

theorem CorpusGraph.validate_ok_iff {graph : CorpusGraph} :
    graph.validate = .ok () ↔
      validate_edges graph = .ok () ∧ validate_review_nodes graph = .ok () ∧
      validate_review_supersession graph = .ok () ∧ validate_source_lineage graph = .ok () ∧
      validate_source_graphs graph = .ok () ∧ validate_source_patches graph = .ok () := by
  simp only [CorpusGraph.validate, seq_ok_iff, mapError_ok_iff]

theorem CorpusGraph.parser_graph_forest {graph : CorpusGraph} (hvalid : graph.validate = .ok ())
    {revision : SourceRevisionNode} (hrevision : revision ∈ graph.source_revisions) :
    Forest revision.media_type (graph.parser_graph revision.uid) := by
  obtain ⟨-, -, -, -, hgraphs, -⟩ := CorpusGraph.validate_ok_iff.mp hvalid
  have hnode := CorpusGraph.get_revision hrevision
  rw [CorpusGraph.parser_graph, CorpusGraph.source_graph]
  cases hget : graph.source_graphs.get revision.uid with
  | none => exact Forest.empty
  | some committed =>
    obtain ⟨media_type, hmedia, hforest⟩ :=
      validate_source_graphs_ok_iff.mp hgraphs committed (Store.mem_values_of_get hget)
    have hkey : committed.revision_uid = revision.uid := Store.key_of_get hget
    rw [revision_media_map, hkey, hnode] at hmedia
    cases hmedia
    exact hforest

theorem CorpusGraph.patch_wellBound {graph : CorpusGraph} (hvalid : graph.validate = .ok ())
    {patch : SourcePatchRecord} (hpatch : patch ∈ graph.source_patches.values) :
    WellBound graph patch := by
  obtain ⟨-, -, -, -, -, hpatches⟩ := CorpusGraph.validate_ok_iff.mp hvalid
  exact wellBound_of_accepted (forM_ok_iff.mp hpatches patch hpatch)

theorem CorpusGraph.reviewed_coherent {graph : CorpusGraph} (hvalid : graph.validate = .ok ())
    {review : ReviewNode} (hreview : review ∈ graph.reviews) :
    kind_coherent graph review review.target.uid = true := by
  obtain ⟨-, hreviews, -⟩ := CorpusGraph.validate_ok_iff.mp hvalid
  have hnode := forM_ok_iff.mp hreviews review hreview
  rw [validate_review_node, bind_ok_iff] at hnode
  obtain ⟨edge_target_uid, -, hrest⟩ := hnode
  simp only [seq_ok_iff, failIf_ok_iff, ne_eq, not_not, Bool.not_eq_true', Bool.not_eq_false]
    at hrest
  obtain ⟨hsame, hcoherent, -⟩ := hrest
  rwa [hsame] at hcoherent

theorem CorpusGraph.reviewed_patch {graph : CorpusGraph} (hvalid : graph.validate = .ok ())
    {review : ReviewNode} (hreview : review ∈ graph.reviews) {patch_uid : String}
    (htarget : review.target = .CuratedPatch patch_uid) :
    (graph.source_patch patch_uid).isSome = true := by
  have hcoherent := graph.reviewed_coherent hvalid hreview
  rwa [kind_coherent, htarget] at hcoherent

theorem CorpusGraph.reviewed_requirement {graph : CorpusGraph} (hvalid : graph.validate = .ok ())
    {review : ReviewNode} (hreview : review ∈ graph.reviews) {requirement_uid : String}
    (htarget : review.target = .Requirement requirement_uid) :
    ((graph.get requirement_uid).bind Node.as_requirement).isSome = true := by
  have hcoherent := graph.reviewed_coherent hvalid hreview
  rw [kind_coherent, htarget, Bool.and_eq_true] at hcoherent
  exact hcoherent.2

theorem CorpusGraph.verifies_edge {graph : CorpusGraph} (hvalid : graph.validate = .ok ())
    {node : Node} (hnode : node ∈ graph.nodes.values) {target : String}
    (hedge : (EdgeKind.Verifies, target) ∈ node.edges) :
    (∃ test, node = .Test test) ∧
      ∃ requirement, graph.get target = some (.Requirement requirement) := by
  obtain ⟨hedges, -⟩ := CorpusGraph.validate_ok_iff.mp hvalid
  have hone := forM_ok_iff.mp (forM_ok_iff.mp hedges node hnode) _ hedge
  rw [validate_edge] at hone
  cases hget : graph.get target with
  | none =>
    rw [hget] at hone
    simp [failIf_ok_iff] at hone
  | some found =>
    rw [hget] at hone
    simp only [failIf_ok_iff, Bool.not_eq_true', Bool.not_eq_false] at hone
    -- the table has one row for `Verifies`
    cases node <;> cases found <;> first | exact ⟨⟨_, rfl⟩, _, rfl⟩ | cases hone

end Evidence.Corpus
