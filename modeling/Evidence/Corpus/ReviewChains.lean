/-
`graph/supersession.rs` and the lifecycle evaluators together -- the reviews of a
target, and the state they decide.

In a valid corpus the reviews of one target are disjoint supersession chains, newest
first, each by one reviewer about one digest. What decides the state is the newest
review of each chain. Neither the times at which reviews were made nor the order in
which they were inserted play a part: times are read by no check
(`validate_retimed`), and nodes may be inserted in any order
(`insert_all_perm`).
-/
import Evidence.Corpus.Graph.Supersession
import Evidence.Corpus.Lifecycle

set_option autoImplicit false

namespace Evidence.Corpus

open Check Climb Succession Sorting

variable {graph : CorpusGraph}

/-! ## The review plane -/

abbrev superseded_reviews (review : ReviewNode) : List String :=
  edge_targets .Supersedes review.edges

def superseded_review (review : ReviewNode) : Option String := (superseded_reviews review).head?

/-- What the supersession checks establish of the reviews of a graph. -/
structure ReviewPlane (graph : CorpusGraph) : Prop where
  plane : Plane graph.review superseded_review ReviewNode.uid graph.reviews
  single : ∀ review ∈ graph.reviews, (superseded_reviews review).length ≤ 1
  same_subject : ∀ v ∈ graph.reviews, ∀ w ∈ graph.reviews, superseded_review v = some w.uid →
    (v.target, v.reviewer, v.reviewed_content_sha256) =
      (w.target, w.reviewer, w.reviewed_content_sha256)

/-- With at most one edge, a review supersedes what its first edge names. -/
theorem mem_superseded_reviews_iff {review : ReviewNode}
    (hsingle : (superseded_reviews review).length ≤ 1) {target : String} :
    target ∈ superseded_reviews review ↔ superseded_review review = some target := by
  rw [superseded_review]
  match superseded_reviews review, hsingle with
  | [], _ => simp
  | [only], _ => simp [eq_comm]

theorem validate_review_links_ok {review : ReviewNode}
    (h : validate_review_links graph review = .ok ()) :
    (superseded_reviews review).length ≤ 1 ∧
      ∀ target ∈ superseded_reviews review, ∀ predecessor,
        graph.review target = some predecessor →
          (review.target, review.reviewer, review.reviewed_content_sha256) =
            (predecessor.target, predecessor.reviewer, predecessor.reviewed_content_sha256) := by
  rw [validate_review_links, seq_ok_iff, failIf_ok_iff, not_lt, forM_ok_iff] at h
  refine ⟨h.1, fun target htarget predecessor hpredecessor => ?_⟩
  have hlink := h.2 target htarget
  rw [validate_review_link, seq_ok_iff] at hlink
  obtain ⟨-, hlink⟩ := hlink
  unfold CorpusGraph.review at hpredecessor
  simp only [hpredecessor, seq_ok_iff, failIf_ok_iff, ne_eq, not_not] at hlink
  obtain ⟨hreviewer, htarget, hdigest⟩ := hlink
  rw [hreviewer, htarget, hdigest]

/-- **The supersession checks make the review plane.** -/
theorem review_plane (hresolve : SupersedesResolve graph)
    (h : validate_review_supersession graph = .ok ()) : ReviewPlane graph := by
  rw [validate_review_supersession, seq_ok_iff, seq_ok_iff, forM_ok_iff] at h
  obtain ⟨hlinks, hforks, hcycles⟩ := h
  have hsingle : ∀ review ∈ graph.reviews, (superseded_reviews review).length ≤ 1 :=
    fun review hreview => (validate_review_links_ok (hlinks review hreview)).1
  have hresolved : ∀ review ∈ graph.reviews, ∀ target ∈ superseded_reviews review,
      (graph.review target).isSome = true := fun review hreview target htarget =>
    hresolve.review hreview htarget
  have hforkless : ∀ p ∈ graph.reviews, ∀ v ∈ graph.reviews, ∀ w ∈ graph.reviews,
      p.uid ∈ superseded_reviews v → p.uid ∈ superseded_reviews w → v = w :=
    (reject_forks_ok_iff graph.reviews_nodup).mp hforks
  have hground : ∀ v ∈ graph.reviews, Grounded graph.review superseded_reviews v.uid :=
    (reject_cycles_ok_iff CorpusGraph.review_iff hsingle hresolved).mp hcycles
  refine ⟨⟨CorpusGraph.review_iff, graph.reviews_nodup, ?_, hground⟩, hsingle, ?_⟩
  · intro v hv w hw uid hupv hupw
    have hmemv := (mem_superseded_reviews_iff (hsingle v hv)).mpr hupv
    have hmemw := (mem_superseded_reviews_iff (hsingle w hw)).mpr hupw
    obtain ⟨p, hp⟩ := Option.isSome_iff_exists.mp (hresolved v hv uid hmemv)
    obtain ⟨hpmem, rfl⟩ := CorpusGraph.review_iff.mp hp
    exact hforkless p hpmem v hv w hw hmemv hmemw
  · intro v hv w hw hup
    exact (validate_review_links_ok (hlinks v hv)).2 w.uid
      ((mem_superseded_reviews_iff (hsingle v hv)).mpr hup) w
      (CorpusGraph.review_iff.mpr ⟨hw, rfl⟩)

namespace ReviewPlane

theorem head_iff (h : ReviewPlane graph) {review : ReviewNode} :
    Head superseded_review ReviewNode.uid graph.reviews review ↔
      review.uid ∉ graph.superseded_review_uids := by
  rw [CorpusGraph.superseded_review_uids, List.mem_flatMap]
  constructor
  · rintro hhead ⟨successor, hsuccessor, hmem⟩
    exact hhead successor hsuccessor
      ((mem_superseded_reviews_iff (h.single _ hsuccessor)).mp hmem)
  · intro hnone successor hsuccessor hup
    exact hnone ⟨successor, hsuccessor,
      (mem_superseded_reviews_iff (h.single _ hsuccessor)).mpr hup⟩

/-- The chain of a review, newest first. -/
def chain (graph : CorpusGraph) (review : ReviewNode) : List ReviewNode :=
  Succession.chain graph.review superseded_review graph.reviews.length review.uid

/-- **The chains of the effective heads list the reviews of a target once.** -/
theorem chains_perm (h : ReviewPlane graph) (target : ReviewTarget) :
    ((effective_heads graph target).flatMap (chain graph)).Perm (graph.reviews_for target) := by
  classical
  have hclasses := h.plane.class_chains_perm
    (fun v hv w hw hup => congrArg Prod.fst (h.same_subject v hv w hw hup)) target
  have hheads : (graph.reviews.filter fun review =>
      Head superseded_review ReviewNode.uid graph.reviews review).filter
        (fun review => review.target = target) = effective_heads graph target := by
    rw [effective_heads, CorpusGraph.reviews_for, List.filter_filter, List.filter_filter]
    refine List.filter_congr fun review _ => ?_
    simp only [h.head_iff, Bool.and_comm, beq_eq_decide]
  have hclass : graph.reviews_for target = graph.reviews.filter fun review =>
      decide (review.target = target) := by
    rw [CorpusGraph.reviews_for]
    exact List.filter_congr fun review _ => beq_eq_decide _ _
  rw [hheads] at hclasses
  rw [hclass]
  exact hclasses

theorem exists_effective_head (h : ReviewPlane graph) {target : ReviewTarget}
    (hne : graph.reviews_for target ≠ []) : effective_heads graph target ≠ [] := by
  intro hnil
  have hperm := h.chains_perm target
  rw [hnil, List.flatMap_nil] at hperm
  exact hne hperm.symm.eq_nil

/-- **What the chain of a head is.** It is linked, it starts with the head, it is about
one subject, and its head alone is not superseded. -/
theorem chain_spec (h : ReviewPlane graph) {head : ReviewNode} (hhead : head ∈ graph.reviews)
    (hfree : head.uid ∉ graph.superseded_review_uids) :
    (chain graph head).head? = some head ∧
      Linked ReviewNode.uid superseded_reviews (chain graph head) ∧
      ∀ review ∈ chain graph head,
        review.target = head.target ∧ review.reviewer = head.reviewer ∧
          review.reviewed_content_sha256 = head.reviewed_content_sha256 ∧
          (review.uid ∉ graph.superseded_review_uids ↔ review = head) := by
  have hline := h.plane.lineage_chain hhead
  obtain ⟨older, holder⟩ := h.plane.exists_lineage hhead
  have hcons : chain graph head = head :: older := hline.unique holder
  have hlinked : Linked ReviewNode.uid superseded_reviews (chain graph head) :=
    linked_of_lineage h.plane.key_of_get
      (fun uid v hv => h.single v (CorpusGraph.review_iff.mp hv).1) hline
  refine ⟨by rw [hcons]; rfl, hlinked, fun review hreview => ?_⟩
  have hsubject := h.plane.class_of_lineage h.same_subject hline hhead review hreview
  have hmem := h.plane.mem_of_lineage hline hreview
  simp only [Prod.mk.injEq] at hsubject
  obtain ⟨htarget, hreviewer, hdigest⟩ := hsubject
  refine ⟨htarget, hreviewer, hdigest, fun hreviewfree => ?_, fun heq => heq ▸ hfree⟩
  -- two unsuperseded reviews of one chain are the same
  exact h.plane.head_unique (h.head_iff.mpr hreviewfree) (h.head_iff.mpr hfree)
    (h.plane.lineage_chain hmem) hline (h.plane.mem_chain_self hmem) hreview hmem hhead

end ReviewPlane

/-! ## The state -/

/-- Some head approves the digest, and none that binds it rejects it. -/
def ApprovedBy (heads : List ReviewNode) (current_digest : String) : Prop :=
  (∃ head ∈ heads, head.decision = .Approve ∧ binds current_digest head = true) ∧
    ∀ head ∈ heads, binds current_digest head = true → head.decision ≠ .Reject

/-- **Approved** means: some effective head approves the current digest, and none of
the current digest rejects it. -/
theorem derive_state_approved_iff {heads : List ReviewNode} {current_digest : String} :
    derive_state heads current_digest = .Approved ↔ ApprovedBy heads current_digest := by
  have hreject : (heads.any fun head =>
      head.decision == .Reject && binds current_digest head) = true ↔
        ¬ ∀ head ∈ heads, binds current_digest head = true → head.decision ≠ .Reject := by
    simp only [List.any_eq_true, Bool.and_eq_true, beq_iff_eq, not_forall, not_not, exists_prop]
    exact exists_congr fun head => and_congr_right fun _ => and_comm
  have happrove : (heads.any fun head =>
      head.decision == .Approve && binds current_digest head) = true ↔
        ∃ head ∈ heads, head.decision = .Approve ∧ binds current_digest head = true := by
    simp only [List.any_eq_true, Bool.and_eq_true, beq_iff_eq]
  unfold derive_state ApprovedBy
  split
  · next hrejected =>
    simp only [reduceCtorEq, false_iff, not_and]
    exact fun _ => hreject.mp hrejected
  · next hrejected =>
    rw [hreject, not_not] at hrejected
    split
    · next happroved => exact ⟨fun _ => ⟨happrove.mp happroved, hrejected⟩, fun _ => rfl⟩
    · next happroved =>
      rw [happrove] at happroved
      split
      · exact ⟨fun hstate => (nomatch hstate), fun hand => absurd hand.1 happroved⟩
      · exact ⟨fun hstate => (nomatch hstate), fun hand => absurd hand.1 happroved⟩

/-! ## Insertion order -/

namespace CorpusGraph

/-- Insert several nodes, one after the other. -/
def insert_all (graph : CorpusGraph) (nodes : List Node) : Except CorpusError CorpusGraph :=
  nodes.foldlM CorpusGraph.insert graph

/-- A node with its edges in canonical order. -/
def canonical (node : Node) : Node := node.with_edges (sortBy edge_cmp node.edges)

theorem canonical_uid (node : Node) : (canonical node).uid = node.uid := by
  cases node <;> rfl

theorem canonical_kind (node : Node) : (canonical node).kind = node.kind := by
  cases node <;> rfl

theorem canonical_id (node : Node) : (canonical node).id = node.id := by
  cases node <;> rfl

theorem insert_ok_iff {graph graph' : CorpusGraph} {node : Node} :
    graph.insert node = .ok graph' ↔
      graph.nodes.get node.uid = none ∧
      (∀ existing ∈ graph.nodes.values, ¬ (existing.kind = node.kind ∧ existing.id = node.id)) ∧
      repeated (sortBy edge_cmp node.edges) = none ∧
      graph' = { graph with nodes := graph.nodes.put (canonical node) } := by
  have hidentity : check_identity_uniqueness graph.nodes node = .ok () ↔
      graph.nodes.get node.uid = none ∧
      ∀ existing ∈ graph.nodes.values, ¬ (existing.kind = node.kind ∧ existing.id = node.id) := by
    unfold check_identity_uniqueness
    cases hget : graph.nodes.get node.uid with
    | some found => simp
    | none =>
      cases hfind : graph.nodes.values.find? fun existing =>
          existing.kind == node.kind && existing.id == node.id with
      | some existing =>
        have hsome := List.find?_some hfind
        simp only [Bool.and_eq_true, beq_iff_eq] at hsome
        simp only [reduceCtorEq, true_and, false_iff, not_forall, not_not]
        exact ⟨existing, List.mem_of_find?_eq_some hfind, hsome⟩
      | none =>
        simp only [true_and, true_iff]
        intro existing hexisting hsame
        have hnone := List.find?_eq_none.mp hfind existing hexisting
        simp only [Bool.and_eq_true, beq_iff_eq] at hnone
        exact hnone hsame
  have hedges : ∀ node' : Node, canonicalize_edges node = .ok node' ↔
      repeated (sortBy edge_cmp node.edges) = none ∧ node' = canonical node := by
    intro node'
    unfold canonicalize_edges
    dsimp only
    split
    · next edge hsome => simp [hsome]
    · next hnone =>
      rw [Except.ok.injEq, and_iff_right hnone]
      exact eq_comm
  rw [insert, seq_ok_iff, hidentity, bind_ok_iff, and_assoc]
  refine and_congr_right fun _ => and_congr_right fun _ => ?_
  simp only [hedges, Except.ok.injEq]
  constructor
  · rintro ⟨node', ⟨hnone, rfl⟩, rfl⟩
    exact ⟨hnone, rfl⟩
  · rintro ⟨hnone, rfl⟩
    exact ⟨canonical node, ⟨hnone, rfl⟩, rfl⟩

/-- Two accepted insertions may change places. -/
theorem insert_swap {graph next last : CorpusGraph} {a b : Node} (ha : graph.insert a = .ok next)
    (hb : next.insert b = .ok last) :
    ∃ next', graph.insert b = .ok next' ∧ next'.insert a = .ok last := by
  obtain ⟨hgeta, hida, hedgesa, rfl⟩ := insert_ok_iff.mp ha
  obtain ⟨hgetb, hidb, hedgesb, rfl⟩ := insert_ok_iff.mp hb
  have hne : a.uid ≠ b.uid := by
    intro heq
    rw [Store.get_put, canonical_uid, if_pos heq] at hgetb
    exact nomatch hgetb
  have hmem : ∀ {c node : Node} {nodes : Store Node.uid}, nodes.get c.uid = none →
      (node ∈ (nodes.put (canonical c)).values ↔ node = canonical c ∨ node ∈ nodes.values) := by
    intro c node nodes hnew
    rw [Store.mem_values_put]
    refine or_congr_right (and_iff_right_of_imp fun hold hkey => ?_)
    rw [canonical_uid] at hkey
    rw [← hkey, Store.mem_values.mp hold] at hnew
    exact nomatch hnew
  have hold : graph.nodes.get b.uid = none := by
    rwa [Store.get_put, canonical_uid, if_neg hne] at hgetb
  refine ⟨{ graph with nodes := graph.nodes.put (canonical b) },
    insert_ok_iff.mpr ⟨hold, ?_, hedgesb, rfl⟩, insert_ok_iff.mpr ⟨?_, ?_, hedgesa, ?_⟩⟩
  · intro existing hexisting
    exact hidb existing ((hmem hgeta).mpr (.inr hexisting))
  · rw [Store.get_put, canonical_uid, if_neg (Ne.symm hne)]
    exact hgeta
  · intro existing hexisting hsame
    rcases (hmem hold).mp hexisting with rfl | hexisting
    · rw [canonical_kind, canonical_id] at hsame
      refine hidb (canonical a) ((hmem hgeta).mpr (.inl rfl)) ?_
      rw [canonical_kind, canonical_id]
      exact ⟨hsame.1.symm, hsame.2.symm⟩
    · exact hida existing hexisting hsame
  · congr 1
    refine Store.ext fun uid => ?_
    rw [Store.get_put, Store.get_put, Store.get_put, Store.get_put, canonical_uid, canonical_uid]
    by_cases huid : a.uid = uid
    · rw [if_pos huid, if_neg (fun hb => hne (huid.trans hb.symm)), if_pos huid]
    · rw [if_neg huid, if_neg huid]

/-- **Nodes may be inserted in any order.** -/
theorem insert_all_perm {graph graph' : CorpusGraph} {nodes nodes' : List Node}
    (hperm : nodes.Perm nodes') (h : graph.insert_all nodes = .ok graph') :
    graph.insert_all nodes' = .ok graph' := by
  have hrun : Runs CorpusGraph.insert graph nodes graph' := foldlM_ok_iff.mp h
  have hswap : ∀ s u t x y, CorpusGraph.insert s x = .ok u → CorpusGraph.insert u y = .ok t →
      ∃ u', CorpusGraph.insert s y = .ok u' ∧ CorpusGraph.insert u' x = .ok t :=
    fun _ _ _ _ _ hx hy => insert_swap hx hy
  exact foldlM_ok_iff.mpr (hrun.perm hswap hperm)

end CorpusGraph

/-! ## Review times -/

/-- A review with another time of review. -/
def ReviewNode.retimed (reviewed_at : ReviewNode → String) (review : ReviewNode) : ReviewNode :=
  { review with reviewed_at := reviewed_at review }

/-- A node with another time of review, if it is one. -/
def Node.retimed (reviewed_at : ReviewNode → String) : Node → Node
  | .Review review => .Review (review.retimed reviewed_at)
  | node => node

@[simp] theorem Node.retimed_uid (reviewed_at : ReviewNode → String) (node : Node) :
    (node.retimed reviewed_at).uid = node.uid := by
  cases node <;> rfl

def CorpusGraph.retimed (reviewed_at : ReviewNode → String) (graph : CorpusGraph) : CorpusGraph :=
  { graph with
    nodes := graph.nodes.mapValues (Node.retimed reviewed_at) (Node.retimed_uid reviewed_at) }

section Retimed

variable (reviewed_at : ReviewNode → String)

theorem get_retimed (graph : CorpusGraph) (uid : String) :
    (graph.retimed reviewed_at).get uid = (graph.get uid).map (Node.retimed reviewed_at) :=
  Store.get_mapValues _ _ _ (Node.retimed_uid reviewed_at)

theorem values_retimed (graph : CorpusGraph) : (graph.retimed reviewed_at).nodes.values =
    graph.nodes.values.map (Node.retimed reviewed_at) := by
  rw [CorpusGraph.retimed, Store.values_mapValues]

@[simp] theorem Node.retimed_kind (node : Node) :
    (node.retimed reviewed_at).kind = node.kind := by
  cases node <;> rfl

@[simp] theorem Node.retimed_edges (node : Node) :
    (node.retimed reviewed_at).edges = node.edges := by
  cases node <;> rfl

@[simp] theorem Node.retimed_as_review (node : Node) :
    (node.retimed reviewed_at).as_review = node.as_review.map (ReviewNode.retimed reviewed_at) := by
  cases node <;> rfl

@[simp] theorem Node.retimed_as_source_revision (node : Node) :
    (node.retimed reviewed_at).as_source_revision = node.as_source_revision := by
  cases node <;> rfl

@[simp] theorem Node.retimed_as_requirement (node : Node) :
    (node.retimed reviewed_at).as_requirement = node.as_requirement := by
  cases node <;> rfl

theorem reviews_retimed (graph : CorpusGraph) : (graph.retimed reviewed_at).reviews =
    graph.reviews.map (ReviewNode.retimed reviewed_at) := by
  rw [CorpusGraph.reviews, values_retimed, List.filterMap_map, CorpusGraph.reviews,
    List.map_filterMap]
  exact List.filterMap_congr fun node _ => Node.retimed_as_review reviewed_at node

theorem source_revisions_retimed (graph : CorpusGraph) :
    (graph.retimed reviewed_at).source_revisions = graph.source_revisions := by
  rw [CorpusGraph.source_revisions, values_retimed, List.filterMap_map]
  exact List.filterMap_congr fun node _ => Node.retimed_as_source_revision reviewed_at node

theorem get_source_revision_retimed (graph : CorpusGraph) (uid : String) :
    ((graph.retimed reviewed_at).get uid).bind Node.as_source_revision =
      (graph.get uid).bind Node.as_source_revision := by
  rw [get_retimed, Option.bind_map]
  exact Option.bind_congr fun node _ => Node.retimed_as_source_revision reviewed_at node

theorem get_requirement_retimed (graph : CorpusGraph) (uid : String) :
    ((graph.retimed reviewed_at).get uid).bind Node.as_requirement =
      (graph.get uid).bind Node.as_requirement := by
  rw [get_retimed, Option.bind_map]
  exact Option.bind_congr fun node _ => Node.retimed_as_requirement reviewed_at node

theorem superseded_review_uids_retimed (graph : CorpusGraph) :
    (graph.retimed reviewed_at).superseded_review_uids = graph.superseded_review_uids := by
  rw [CorpusGraph.superseded_review_uids, reviews_retimed, List.flatMap_map]
  rfl

theorem superseded_uids_retimed (graph : CorpusGraph) :
    superseded_uids (graph.retimed reviewed_at) = superseded_uids graph := by
  rw [superseded_uids, values_retimed, List.flatMap_map]
  exact List.flatMap_congr fun node _ => congrArg _ (Node.retimed_edges reviewed_at node)

/-- A loop over a changed list is a loop of changed steps. -/
theorem forM_map_congr {ε α β : Type} {f : α → β} {xs : List α} {check : β → Except ε Unit}
    {check' : α → Except ε Unit} (h : ∀ x, check (f x) = check' x) :
    (xs.map f).forM check = xs.forM check' := by
  induction xs with
  | nil => rfl
  | cons x xs ih => rw [List.map_cons, List.forM, List.forM, h, ih]

theorem validate_edges_retimed (graph : CorpusGraph) :
    validate_edges (graph.retimed reviewed_at) = validate_edges graph := by
  have hedge : ∀ (node : Node) (edge : Edge),
      validate_edge (graph.retimed reviewed_at) (node.retimed reviewed_at) edge =
        validate_edge graph node edge := by
    intro node edge
    unfold validate_edge
    rw [get_retimed]
    cases graph.get edge.2 with
    | none => simp only [Option.map_none, Node.retimed_kind, Node.retimed_uid]; rfl
    | some target => simp only [Option.map_some, Node.retimed_kind, Node.retimed_uid]
  rw [validate_edges, values_retimed]
  refine forM_map_congr fun node => ?_
  rw [Node.retimed_edges]
  exact congrArg node.edges.forM (funext (hedge node))

theorem validate_review_nodes_retimed (graph : CorpusGraph) :
    validate_review_nodes (graph.retimed reviewed_at) = validate_review_nodes graph := by
  have hcoherent : ∀ (review : ReviewNode) (uid : String),
      kind_coherent (graph.retimed reviewed_at) (review.retimed reviewed_at) uid =
        kind_coherent graph review uid := by
    intro review uid
    unfold kind_coherent
    rw [get_requirement_retimed]
    rfl
  rw [validate_review_nodes, reviews_retimed]
  refine forM_map_congr fun review => ?_
  unfold validate_review_node
  simp only [hcoherent]
  rfl

theorem validate_review_supersession_retimed (graph : CorpusGraph) :
    validate_review_supersession (graph.retimed reviewed_at) =
      validate_review_supersession graph := by
  have hlink : ∀ (review : ReviewNode) (target : String),
      validate_review_link (graph.retimed reviewed_at) (review.retimed reviewed_at) target =
        validate_review_link graph review target := by
    intro review target
    unfold validate_review_link
    rw [get_retimed, Option.bind_map]
    cases graph.get target with
    | none => rfl
    | some node => cases node <;> rfl
  have hlinks : (graph.retimed reviewed_at).reviews.forM
      (validate_review_links (graph.retimed reviewed_at)) =
        graph.reviews.forM (validate_review_links graph) := by
    rw [reviews_retimed]
    refine forM_map_congr fun review => ?_
    unfold validate_review_links
    exact congrArg (failIf _ _ >>= fun _ => ·)
      (congrArg (superseded_reviews review).forM (funext (hlink review)))
  have hchains : review_chains (graph.retimed reviewed_at) = review_chains graph := by
    rw [review_chains, reviews_retimed, List.map_map]
    rfl
  rw [validate_review_supersession, hlinks, hchains]
  rfl

theorem validate_source_lineage_retimed (graph : CorpusGraph) :
    validate_source_lineage (graph.retimed reviewed_at) = validate_source_lineage graph := by
  have hlink : validate_source_link (graph.retimed reviewed_at) = validate_source_link graph := by
    funext revision target
    unfold validate_source_link
    rw [get_source_revision_retimed]
  have hmultiple : ∀ p multiple, reject_multiple (graph.retimed reviewed_at) p multiple =
      reject_multiple graph p multiple := by
    intro p multiple
    unfold reject_multiple document_keys revisions_of
    rw [source_revisions_retimed]
  unfold validate_source_lineage validate_source_links reject_multiple_roots reject_multiple_heads
    source_chains
  simp only [source_revisions_retimed, hlink, hmultiple, superseded_uids_retimed]

/-- **Validation reads no review time.** -/
theorem validate_retimed [Sha256] [F64Display] (graph : CorpusGraph) :
    (graph.retimed reviewed_at).validate = graph.validate := by
  have hgraphs : validate_source_graphs (graph.retimed reviewed_at) =
      validate_source_graphs graph := by
    unfold validate_source_graphs revision_media_map
    simp only [get_source_revision_retimed]
    rfl
  have hpatches : validate_source_patches (graph.retimed reviewed_at) =
      validate_source_patches graph := by
    unfold validate_source_patches validate_source_patch validate_binding
    simp only [source_revisions_retimed]
    rfl
  unfold CorpusGraph.validate
  rw [validate_edges_retimed, validate_review_nodes_retimed, validate_review_supersession_retimed,
    validate_source_lineage_retimed, hgraphs, hpatches]

theorem reviews_for_retimed (graph : CorpusGraph) (target : ReviewTarget) :
    (graph.retimed reviewed_at).reviews_for target =
      (graph.reviews_for target).map (ReviewNode.retimed reviewed_at) := by
  rw [CorpusGraph.reviews_for, reviews_retimed, List.filter_map]
  rfl

theorem effective_heads_retimed (graph : CorpusGraph) (target : ReviewTarget) :
    effective_heads (graph.retimed reviewed_at) target =
      (effective_heads graph target).map (ReviewNode.retimed reviewed_at) := by
  rw [effective_heads, superseded_review_uids_retimed, reviews_for_retimed, List.filter_map]
  rfl

/-- The truth table reads no review time. -/
theorem derive_state_retimed (heads : List ReviewNode) (current_digest : String) :
    derive_state (heads.map (ReviewNode.retimed reviewed_at)) current_digest =
      derive_state heads current_digest := by
  unfold derive_state
  simp only [List.any_map]
  rfl

theorem evaluate_lifecycle_retimed [Sha256] [F64Display] (graph : CorpusGraph) (uid : String) :
    evaluate_lifecycle (graph.retimed reviewed_at) uid = evaluate_lifecycle graph uid := by
  have hcontent : (graph.retimed reviewed_at).review_content uid = graph.review_content uid := by
    unfold CorpusGraph.review_content
    rw [get_retimed]
    cases graph.get uid with
    | none => rfl
    | some node => cases node <;> rfl
  have hmissing : missing_requirement_error (graph.retimed reviewed_at) uid =
      missing_requirement_error graph uid := by
    unfold missing_requirement_error CorpusGraph.reviews_for_requirement
    rw [reviews_for_retimed, List.head?_map]
    cases (graph.reviews_for (.Requirement uid)).head? <;> rfl
  unfold evaluate_lifecycle evaluate_lifecycle_validated
  rw [validate_retimed, hcontent, hmissing]
  simp only [effective_heads_retimed, derive_state_retimed, List.map_map]
  rfl

theorem evaluate_patch_lifecycle_retimed [Sha256] [F64Display] (graph : CorpusGraph)
    (uid : String) :
    evaluate_patch_lifecycle (graph.retimed reviewed_at) uid =
      evaluate_patch_lifecycle graph uid := by
  have hmissing : missing_patch_error (graph.retimed reviewed_at) uid =
      missing_patch_error graph uid := by
    unfold missing_patch_error CorpusGraph.reviews_for_patch
    rw [reviews_for_retimed, List.head?_map]
    cases (graph.reviews_for (.CuratedPatch uid)).head? <;> rfl
  unfold evaluate_patch_lifecycle evaluate_patch_lifecycle_validated patch_evaluation
  rw [validate_retimed, hmissing]
  simp only [effective_heads_retimed, derive_state_retimed, List.map_map]
  rfl

end Retimed

/-! ## The reviews of a valid corpus -/

/-- A supersession chain: linked newest first, about one subject, with one review that
none supersedes, the first. -/
structure ReviewChain (graph : CorpusGraph) (head : ReviewNode) (chain : List ReviewNode) :
    Prop where
  linked : Linked ReviewNode.uid superseded_reviews chain
  starts : chain.head? = some head
  subject : ∀ review ∈ chain, review.target = head.target ∧ review.reviewer = head.reviewer ∧
    review.reviewed_content_sha256 = head.reviewed_content_sha256
  unsuperseded : ∀ review ∈ chain, review.uid ∉ graph.superseded_review_uids ↔ review = head

theorem ReviewPlane.split (h : ReviewPlane graph) (target : ReviewTarget) :
    ∃ chains : List (List ReviewNode), chains.flatten.Perm (graph.reviews_for target) ∧
      List.Forall₂ (ReviewChain graph) (effective_heads graph target) chains := by
  refine ⟨(effective_heads graph target).map (chain graph), ?_, ?_⟩
  · rw [← List.flatMap_def]
    exact h.chains_perm target
  · rw [List.forall₂_map_right_iff, List.forall₂_same]
    intro head hhead
    rw [effective_heads, List.mem_filter, decide_eq_true_eq] at hhead
    have hmem : head ∈ graph.reviews := List.mem_of_mem_filter hhead.1
    obtain ⟨hstarts, hlinked, hspec⟩ := h.chain_spec hmem hhead.2
    refine ⟨hlinked, hstarts, fun review hreview => ?_, fun review hreview => ?_⟩
    · obtain ⟨htarget, hreviewer, hdigest, -⟩ := hspec review hreview
      exact ⟨htarget, hreviewer, hdigest⟩
    · obtain ⟨-, -, -, hfree⟩ := hspec review hreview
      exact hfree

section Valid

variable [Sha256] [F64Display]

theorem review_plane_of_validate (hvalid : graph.validate = .ok ()) : ReviewPlane graph := by
  obtain ⟨hedges, -, hreviews, -⟩ := CorpusGraph.validate_ok_iff.mp hvalid
  exact review_plane (SupersedesResolve.of_validate_edges hedges) hreviews

/-- **The reviews of a valid corpus.** The reviews of a target split into disjoint
supersession chains, each with one effective head and about one subject; no review is
superseded twice, and a reviewed target has an effective head. The evaluated state is
`Approved` exactly when some effective head approves the current digest and none
rejects it, whatever the review times and the order of insertion. -/
theorem evaluated_reviews (hvalid : graph.validate = .ok ()) :
    (∀ target, ∃ chains : List (List ReviewNode),
      chains.flatten.Perm (graph.reviews_for target) ∧
      List.Forall₂ (ReviewChain graph) (effective_heads graph target) chains) ∧
    (∀ v ∈ graph.reviews, ∀ w ∈ graph.reviews, ∀ uid ∈ superseded_reviews v,
      uid ∈ superseded_reviews w → v = w) ∧
    (∀ target, graph.reviews_for target ≠ [] → effective_heads graph target ≠ []) ∧
    (∀ uid content, graph.review_content uid = some content →
      ∃ evaluation, evaluate_lifecycle graph uid = .ok evaluation ∧
        evaluation.current_digest = review_content_digest_v1 content ∧
        (evaluation.state = .Approved ↔
          ApprovedBy (effective_heads graph (.Requirement uid)) evaluation.current_digest.as_str)) ∧
    (∀ uid patch, graph.source_patch uid = some patch →
      ∃ evaluation, evaluate_patch_lifecycle graph uid = .ok evaluation ∧
        evaluation.current_digest = patch.reviewed_content_digest ∧
        (evaluation.state = .Approved ↔
          ApprovedBy (effective_heads graph (.CuratedPatch uid)) evaluation.current_digest.as_str)) ∧
    (∀ reviewed_at uid,
      evaluate_lifecycle (graph.retimed reviewed_at) uid = evaluate_lifecycle graph uid ∧
      evaluate_patch_lifecycle (graph.retimed reviewed_at) uid =
        evaluate_patch_lifecycle graph uid) ∧
    ∀ (base : CorpusGraph) (nodes nodes' : List Node), nodes.Perm nodes' →
      base.insert_all nodes = .ok graph → base.insert_all nodes' = .ok graph := by
  have hplane := review_plane_of_validate hvalid
  refine ⟨hplane.split, ?_, fun target => hplane.exists_effective_head, ?_, ?_,
    fun reviewed_at uid => ⟨evaluate_lifecycle_retimed reviewed_at graph uid,
      evaluate_patch_lifecycle_retimed reviewed_at graph uid⟩,
    fun base nodes nodes' => CorpusGraph.insert_all_perm⟩
  · intro v hv w hw uid huidv huidw
    exact hplane.plane.forkless v hv w hw uid
      ((mem_superseded_reviews_iff (hplane.single v hv)).mp huidv)
      ((mem_superseded_reviews_iff (hplane.single w hw)).mp huidw)
  · intro uid content hcontent
    refine ⟨{ requirement_uid := uid
              state := derive_state (effective_heads graph (.Requirement uid))
                (review_content_digest_v1 content).as_str
              current_digest := review_content_digest_v1 content
              effective_review_uids :=
                (effective_heads graph (.Requirement uid)).map ReviewNode.uid }, ?_, rfl,
      derive_state_approved_iff⟩
    rw [evaluate_lifecycle, seq_ok_iff, mapError_ok_iff, evaluate_lifecycle_validated, hcontent]
    exact ⟨hvalid, rfl⟩
  · intro uid patch hpatch
    obtain rfl : patch.uid = uid := Store.key_of_get hpatch
    refine ⟨patch_evaluation graph patch, ?_, rfl, derive_state_approved_iff⟩
    rw [evaluate_patch_lifecycle, seq_ok_iff, mapError_ok_iff, evaluate_patch_lifecycle_validated,
      hpatch]
    exact ⟨hvalid, rfl⟩

end Valid

section Witness

attribute [local instance] fips180 F64.exact_display canonical_formats

def requirement_review (uid id : String) (supersedes : List Edge) : ReviewNode where
  uid := uid
  id := id
  target := .Requirement "req_a"
  content_schema := SUPPORTED_REVIEW_CONTENT_SCHEMA
  reviewed_content_sha256 := .of_bytes []
  decision := .Approve
  reviewer := "reviewer"
  reviewed_at := "2024-01-01T00:00:00Z"
  rationale := none
  edges := (.Reviews, "req_a") :: supersedes

/-- A requirement with a review that has been superseded. -/
def reviewed_requirement : CorpusGraph :=
  { CorpusGraph.new with
    nodes :=
      ((Store.empty.put (.Requirement
        { uid := "req_a", id := "REQ-1", title := "requirement", layer := .Hlr, edges := []
          description := none, rationale := none, scope := none, category := none
          source := none, verification_methods := [], safety_impact := none })).put
        (.Review (requirement_review "review_a" "REV-1" []))).put
        (.Review (requirement_review "review_b" "REV-2" [(.Supersedes, "review_a")])) }

/-- The reviewed requirement has an effective head. -/
theorem evaluated_reviews_superseded :
    effective_heads reviewed_requirement (.Requirement "req_a") ≠ [] :=
  (evaluated_reviews (by decide +kernel : reviewed_requirement.validate = .ok ())).2.2.1 _
    (by decide +kernel)

end Witness

end Evidence.Corpus
