/-
`corpus/source_graph/validate.rs`, the part over the corpus graph: every committed
source graph against the committed source revisions.

A node uid may recur in the graphs of several revisions. The global index places
it in the lowest of them, and enters the errors alone, so the pass accepts exactly
when every committed graph is a forest of its revision's media type.
-/
import Evidence.Corpus.Graph.Basic
import Evidence.Corpus.SourceGraph.Validate

set_option autoImplicit false

namespace Evidence.Corpus

open Check

/-- The declared media type of a committed source revision. -/
def revision_media_map (graph : CorpusGraph) (revision_uid : String) : Option String :=
  ((graph.get revision_uid).bind Node.as_source_revision).map SourceRevisionNode.media_type

def first_holder (graph : CorpusGraph) (uid : String) : Option RevisionGraph :=
  graph.source_graphs.values.find? fun committed => (committed.graph.get uid).isSome

/-- The revision a committed source node belongs to: on a collision the lowest
revision uid wins. -/
def global_uid_index (graph : CorpusGraph) : UidIndex := fun uid =>
  (first_holder graph uid).map RevisionGraph.revision_uid

/-- Every committed source graph against the committed source revisions. -/
def validate_source_graphs [Sha256] (graph : CorpusGraph) : Except SourceGraphError Unit :=
  graph.source_graphs.values.forM fun committed =>
    match revision_media_map graph committed.revision_uid with
    | none => .error (.UnknownSourceRevision committed.revision_uid)
    | some media_type =>
      validate_one_graph committed.revision_uid committed.graph (global_uid_index graph) media_type

/-- **The committed graphs are accepted when each is a forest of its revision.** -/
theorem validate_source_graphs_ok_iff [Sha256] {graph : CorpusGraph} :
    validate_source_graphs graph = .ok () ↔
      ∀ committed ∈ graph.source_graphs.values, ∃ media_type,
        revision_media_map graph committed.revision_uid = some media_type ∧
        Forest media_type committed.graph := by
  rw [validate_source_graphs, forM_ok_iff]
  refine forall₂_congr fun committed _ => ?_
  cases revision_media_map graph committed.revision_uid with
  | none => simp
  | some media_type => simp [validate_one_graph_ok_iff]

theorem first_holder_eq_some_iff {graph : CorpusGraph} {uid : String}
    {committed : RevisionGraph} :
    first_holder graph uid = some committed ↔
      committed ∈ graph.source_graphs.values ∧ (committed.graph.get uid).isSome = true ∧
      ∀ other ∈ graph.source_graphs.values, (other.graph.get uid).isSome = true →
        compare other.revision_uid committed.revision_uid ≠ .lt := by
  have hsorted := graph.source_graphs.values_sorted
  have hirrefl : ∀ s : String, compare s s ≠ .lt := by
    intro s hs
    have hself : compare s s = .eq := Std.ReflCmp.compare_self
    rw [hself] at hs
    cases hs
  rw [first_holder, List.find?_eq_some_iff_append]
  constructor
  · rintro ⟨hholds, before, after, hvalues, hbefore⟩
    rw [hvalues, List.pairwise_append, List.pairwise_cons] at hsorted
    refine ⟨?_, hholds, ?_⟩
    · rw [hvalues]
      exact List.mem_append_right _ List.mem_cons_self
    · intro other hother hother' hlt
      rw [hvalues, List.mem_append, List.mem_cons] at hother
      rcases hother with hother | rfl | hother
      · have hnot := hbefore other hother
        rw [hother'] at hnot
        cases hnot
      · exact hirrefl _ hlt
      · exact hirrefl _ (Std.TransCmp.lt_trans (hsorted.2.1.1 other hother) hlt)
  · rintro ⟨hmem, hholds, hlowest⟩
    obtain ⟨before, after, hvalues⟩ := List.append_of_mem hmem
    refine ⟨hholds, before, after, hvalues, ?_⟩
    intro other hother
    rw [hvalues, List.pairwise_append] at hsorted
    have hlt := hsorted.2.2 other hother committed List.mem_cons_self
    cases hget : (other.graph.get uid).isSome with
    | false => rfl
    | true =>
      refine absurd hlt (hlowest other ?_ hget)
      rw [hvalues]
      exact List.mem_append_left _ hother

end Evidence.Corpus
