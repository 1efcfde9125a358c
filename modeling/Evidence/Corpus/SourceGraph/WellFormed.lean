/-
The well-formed graphs, link by link.

The validator walks from every node to a root and keeps the uids it has visited; `Forest` says
what it accepts in terms of these walks. `WellFormed` says it in terms of the parent links
alone: no dangling link, no node without a way to a root, no pair of a parent and a
child that the legality table excludes. The two agree (`forest_iff_well_formed`), so that the
validator neither accepts a cyclic or dangling graph nor rejects a proper one.
-/
import Mathlib.Data.List.Chain
import Mathlib.Logic.Relation
import Evidence.Corpus.SourceGraph.Validate

set_option autoImplicit false

namespace Evidence.Corpus

open Climb Relation

/-! ## Parent links -/

def SourceGraph.ParentOf (graph : SourceGraph) (node parent : SourceNode) : Prop :=
  node.parent_uid = some parent.uid ∧ parent ∈ graph.values

/-- The nodes `above` are the ancestors of `node`, its parent first and a root last. -/
def SourceGraph.Ancestors (graph : SourceGraph) (node : SourceNode) (above : List SourceNode) :
    Prop :=
  (node :: above).IsChain graph.ParentOf ∧ ((node :: above).getLast (by simp)).parent_uid = none

/-- **A well-formed graph of one revision.** -/
structure WellFormed [Sha256] (media_type : String) (graph : SourceGraph) : Prop where
  linked : ∀ node ∈ graph.values, ∀ uid, node.parent_uid = some uid →
    ∃ parent ∈ graph.values, parent.uid = uid
  rooted : ∀ node ∈ graph.values, ∃ root, ReflTransGen graph.ParentOf node root ∧
    root.parent_uid = none
  legal : ∀ node ∈ graph.values, ∀ parent, graph.ParentOf node parent →
    parent.kind.may_parent node.kind = true
  numbered : ∀ parent_uid, ((children graph parent_uid).map fun node => node.ordinal.toNat).Perm
    (List.range (children graph parent_uid).length)
  content : ∀ node ∈ graph.values,
    content_digest node.kind node.canonical_text = node.content_sha256
  fingerprint : ∀ node ∈ graph.values, ∀ above, graph.Ancestors node above →
    Corpus.fingerprint node.kind node.label (above.reverse.map SourceNode.pair) = node.fingerprint
  medium : ∀ node ∈ graph.values,
    eq_ignore_ascii_case node.locator.expected_media_type media_type = true

/-! ## Links and lineages -/

variable {graph : SourceGraph}

theorem parent_of_iff {node parent : SourceNode} :
    graph.ParentOf node parent ↔ ∃ uid, node.parent_uid = some uid ∧ graph.get uid = some parent := by
  constructor
  · rintro ⟨huid, hmem⟩
    exact ⟨_, huid, Store.mem_values.mp hmem⟩
  · rintro ⟨uid, huid, hget⟩
    exact ⟨huid.trans (congrArg some (get_uid uid parent hget).symm), Store.mem_values_of_get hget⟩

/-- **The lineage of a node is the line of its ancestors.** The induction is on the line, one link
at a time. -/
theorem lineage_iff_ancestors {node : SourceNode} {above : List SourceNode} :
    graph.Lineage node.parent_uid above ↔ graph.Ancestors node above := by
  induction above generalizing node with
  | nil =>
    constructor
    · intro h
      exact ⟨.singleton _, h.of_nil⟩
    · rintro ⟨-, hroot⟩
      rw [show node.parent_uid = none from hroot]
      exact .root
  | cons parent above ih =>
    rw [SourceGraph.Ancestors, List.isChain_cons_cons, List.getLast_cons_cons, and_assoc,
      show _ ∧ _ ↔ graph.Ancestors parent above from Iff.rfl, ← ih, parent_of_iff]
    constructor
    · intro h
      obtain ⟨uid, huid, hget, hup⟩ := h.of_cons
      exact ⟨⟨uid, huid, hget⟩, hup⟩
    · rintro ⟨⟨uid, huid, hget⟩, hup⟩
      rw [huid]
      exact .step hget hup

theorem ancestors_of_reaches {node root : SourceNode} (hway : ReflTransGen graph.ParentOf node root)
    (hroot : root.parent_uid = none) : ∃ above, graph.Ancestors node above := by
  induction hway using ReflTransGen.head_induction_on with
  | refl => exact ⟨[], .singleton _, hroot⟩
  | head hlink _ ih =>
    obtain ⟨above, hchain, hlast⟩ := ih
    exact ⟨_ :: above, List.isChain_cons_cons.mpr ⟨hlink, hchain⟩, hlast⟩

theorem SourceGraph.Ancestors.reaches {node : SourceNode} {above : List SourceNode}
    (h : graph.Ancestors node above) :
    ∃ root, ReflTransGen graph.ParentOf node root ∧ root.parent_uid = none := by
  induction above generalizing node with
  | nil => exact ⟨node, .refl, h.2⟩
  | cons parent above ih =>
    obtain ⟨hlink, hchain⟩ := List.isChain_cons_cons.mp h.1
    obtain ⟨root, hway, hroot⟩ := ih ⟨hchain, h.2⟩
    exact ⟨root, .head hlink hway, hroot⟩

/-! ## The two views agree -/

variable [Sha256]

/-- **The forests are the well-formed graphs.** -/
theorem forest_iff_well_formed {media_type : String} :
    Forest media_type graph ↔ WellFormed media_type graph := by
  constructor
  · intro h
    refine ⟨?_, ?_, ?_, h.numbered, h.content, ?_, h.medium⟩
    · intro node hnode uid huid
      obtain ⟨parent, hget⟩ := h.parent_get hnode huid
      exact ⟨parent, Store.mem_values_of_get hget, get_uid uid parent hget⟩
    · intro node hnode
      obtain ⟨above, habove⟩ := h.rooted node hnode
      exact SourceGraph.Ancestors.reaches (lineage_iff_ancestors.mp habove)
    · intro node hnode parent hparent
      obtain ⟨uid, huid, hget⟩ := parent_of_iff.mp hparent
      exact h.legal node hnode uid parent huid hget
    · intro node hnode above habove
      exact h.fingerprint node hnode above (lineage_iff_ancestors.mpr habove)
  · intro h
    refine ⟨?_, ?_, h.content, ?_, h.medium, h.numbered⟩
    · intro node hnode
      obtain ⟨root, hway, hroot⟩ := h.rooted node hnode
      obtain ⟨above, habove⟩ := ancestors_of_reaches hway hroot
      exact ⟨above, lineage_iff_ancestors.mpr habove⟩
    · intro node hnode uid parent huid hget
      exact h.legal node hnode parent (parent_of_iff.mpr ⟨uid, huid, hget⟩)
    · intro node hnode above habove
      exact h.fingerprint node hnode above (lineage_iff_ancestors.mp habove)

/-- **The standalone validator accepts a graph exactly when it is well formed**, whatever the
graph and the revision it is validated for. -/
theorem accepts_well_formed (revision_uid media_type : String) (graph : SourceGraph) :
    validate_graph_standalone revision_uid media_type graph = .ok () ↔
      WellFormed media_type graph :=
  validate_graph_standalone_ok_iff.trans forest_iff_well_formed

end Evidence.Corpus
