/-
`corpus/source_graph/identity.rs` -- structural keys and the reconciliation of a
candidate forest against the committed graph.

A node's key is its explicit numbering or anchor, else its parent's key with its
kind and ordinal, else, for a root, its fingerprint. Committed nodes and
candidates compute it in two walks over two lookups; both are `Climb.climb`, and
`candidate_key_project` says that they agree on the projection of a forest.

Committed uids pool under their key in uid order, and candidates take from the
pools in document order. Keys are not unique, so what a candidate gets back is a
uid of its own key; it is its own uid exactly when, within every key, document
order is uid order (`reconcile_document_order`).
-/
import Evidence.Lib.Queues
import Evidence.Corpus.SourceGraph.Validate

set_option autoImplicit false

namespace Evidence.Corpus

open Climb Sorting Queues

/-! ## Structural keys -/

inductive StructuralKey where
  | Explicit (kind : SourceNodeKind) (anchor : String)
  | Position (parent : StructuralKey) (kind : SourceNodeKind) (ordinal : UInt32)
  | Fingerprint (digest : StructuralContentDigest)
deriving DecidableEq

/-- One structural node as an ingester parsed it. -/
structure CandidateNode where
  provisional_id : String
  parent_id : Option String
  kind : SourceNodeKind
  ordinal : UInt32
  label : Option String
  canonical_text : String
  locator : SourceLocator
deriving DecidableEq

structure ReconciledNode where
  uid : String
  candidate : CandidateNode
deriving DecidableEq

/-- The label's leading token when it is explicit document numbering. -/
def leading_numbering_token (label : String) : Option String :=
  match first_token label with
  | none => none
  | some token =>
    let bytes := str_bytes token
    if bytes.all (fun b => is_ascii_digit b || b == 0x2E) && bytes.any is_ascii_digit &&
        bytes.head?.any is_ascii_digit && bytes.getLast?.any is_ascii_digit then some token
    else none

/-- The tier-1 explicit identity of a node: the label's numbering token, else the
locator's anchor. -/
def explicit_identity (label : Option String) (locator : SourceLocator) : Option String :=
  match label.bind leading_numbering_token with
  | some numbering => some numbering
  | none => locator.explicit_anchor

/-- What the key tiers read of a node. -/
structure Tier where
  kind : SourceNodeKind
  label : Option String
  locator : SourceLocator
  ordinal : UInt32

def SourceNode.tier (node : SourceNode) : Tier := ⟨node.kind, node.label, node.locator, node.ordinal⟩

def CandidateNode.tier (candidate : CandidateNode) : Tier :=
  ⟨candidate.kind, candidate.label, candidate.locator, candidate.ordinal⟩

section Keys

variable [Sha256]

/-- One fold step of the precedence chain for an ancestor. -/
def fold_tier (tier : Tier) (parent_key : Option StructuralKey) : StructuralKey :=
  match explicit_identity tier.label tier.locator with
  | some anchor => .Explicit tier.kind anchor
  | none =>
    match parent_key with
    | some parent => .Position parent tier.kind tier.ordinal
    | none => .Fingerprint (fingerprint tier.kind tier.label [])

/-- The key of a node under its chain of ancestors, root first: what the two key
functions of the source compute once they have walked the chain. -/
def key_under (tier : Tier) (chain : List Tier) : StructuralKey :=
  match explicit_identity tier.label tier.locator with
  | some anchor => .Explicit tier.kind anchor
  | none =>
    match chain.foldl (fun key ancestor => some (fold_tier ancestor key)) none with
    | some parent => .Position parent tier.kind tier.ordinal
    | none => .Fingerprint (fingerprint tier.kind tier.label [])

/-- A committed node's structural key. -/
def structural_key (node : SourceNode) (graph : SourceGraph) : StructuralKey :=
  key_under node.tier ((graph.climb [node.uid] node.parent_uid).1.reverse.map SourceNode.tier)

/-- The candidate with a provisional id; on duplicates the last one. -/
def by_id (candidates : List CandidateNode) (id : String) : Option CandidateNode :=
  candidates.findRev? fun candidate => candidate.provisional_id == id

/-- A candidate's structural key, its parent path resolved through the candidate
set's provisional ids. -/
def candidate_key (candidate : CandidateNode) (candidates : List CandidateNode) : StructuralKey :=
  let walk := climb (by_id candidates) CandidateNode.parent_id (candidates.length + 1)
    [candidate.provisional_id] candidate.parent_id
  key_under candidate.tier (walk.1.reverse.map CandidateNode.tier)

/-! ## Reconciliation -/

/-- The committed uids of a key, in uid order. -/
def key_pool (committed : SourceGraph) (key : StructuralKey) : List String :=
  (committed.values.filter fun node => structural_key node committed = key).map SourceNode.uid

theorem mem_key_pool {graph : SourceGraph} {key : StructuralKey} {uid : String} :
    uid ∈ key_pool graph key ↔
      ∃ node ∈ graph.values, structural_key node graph = key ∧ node.uid = uid := by
  rw [key_pool, List.mem_map]
  simp only [List.mem_filter, decide_eq_true_iff, and_assoc]

theorem key_pool_nodup (graph : SourceGraph) (key : StructuralKey) : (key_pool graph key).Nodup :=
  graph.values_keys_nodup.sublist (List.filter_sublist.map _)

/-- Reconcile a candidate forest against the committed graph. `mint i` is the
`i`-th uid `mint_node_uid` returns; the second component is how many were minted. -/
def reconcile (mint : ℕ → String) (committed : SourceGraph) (candidates : List CandidateNode) :
    List ReconciledNode × ℕ :=
  let keys := candidates.map fun candidate => candidate_key candidate candidates
  let served := serve mint 0 (key_pool committed) keys
  ((served.1.zip candidates).map fun pair => ⟨pair.1, pair.2⟩, served.2)

/-! ## Projections of a forest -/

/-- The candidate an ingester parses for a committed node, under provisional ids. -/
def project (provisional : String → String) (node : SourceNode) : CandidateNode where
  provisional_id := provisional node.uid
  parent_id := node.parent_uid.map provisional
  kind := node.kind
  ordinal := node.ordinal
  label := node.label
  canonical_text := node.canonical_text
  locator := node.locator

/-- The ordinals on the way from the root down to a node. -/
def ordinal_path (graph : SourceGraph) (node : SourceNode) : List ℕ :=
  ((graph.climb [node.uid] node.parent_uid).1.reverse ++ [node]).map fun n => n.ordinal.toNat

/-- The nodes in document order: every node before its children, siblings by
ordinal. -/
def document_order (graph : SourceGraph) : List SourceNode :=
  sortBy (compareOn (ordinal_path graph)) graph.values

def DistinctIds (graph : SourceGraph) (provisional : String → String) : Prop :=
  ∀ a ∈ graph.values, ∀ b ∈ graph.values, provisional a.uid = provisional b.uid → a = b

/-! ## The two walks agree -/

omit [Sha256] in
theorem Forest.climb_eq {media_type : String} {graph : SourceGraph} [Sha256]
    (h : Forest media_type graph) {node : SourceNode} (hnode : node ∈ graph.values) :
    ∃ above, graph.Lineage node.parent_uid above ∧
      graph.climb [node.uid] node.parent_uid = (above, .root) := by
  obtain ⟨above, habove⟩ := h.rooted node hnode
  exact ⟨above, habove, (SourceGraph.climb_eq_root_iff [node.uid] fun _ hl =>
    SourceGraph.Lineage.not_self hnode hl).mpr habove⟩

omit [Sha256] in
theorem by_id_eq_some {candidates : List CandidateNode} {id : String} {candidate : CandidateNode}
    (h : by_id candidates id = some candidate) :
    candidate ∈ candidates ∧ candidate.provisional_id = id := by
  rw [by_id, List.findRev?_eq_find?_reverse] at h
  exact ⟨List.mem_reverse.mp (List.mem_of_find?_eq_some h), by simpa using List.find?_some h⟩

omit [Sha256] in
theorem by_id_project {graph : SourceGraph} {provisional : String → String}
    (hids : DistinctIds graph provisional) {order : List SourceNode}
    (horder : order.Perm graph.values) {node : SourceNode} (hnode : node ∈ graph.values) :
    by_id (order.map (project provisional)) (provisional node.uid) =
      some (project provisional node) := by
  cases hfind : by_id (order.map (project provisional)) (provisional node.uid) with
  | none =>
    rw [by_id, List.findRev?_eq_find?_reverse, List.find?_eq_none] at hfind
    have hmem : project provisional node ∈ (order.map (project provisional)).reverse :=
      List.mem_reverse.mpr (List.mem_map_of_mem (horder.mem_iff.mpr hnode))
    exact absurd (hfind _ hmem) (by simp [project])
  | some candidate =>
    obtain ⟨hmem, hid⟩ := by_id_eq_some hfind
    obtain ⟨m, hm, rfl⟩ := List.mem_map.mp hmem
    rw [hids m (horder.mem_iff.mp hm) node hnode hid]

/-- **Projection keeps structural keys**: a candidate's walk through provisional
ids meets the projections of the node's lineage. -/
theorem candidate_key_project {media_type : String} {graph : SourceGraph}
    (h : Forest media_type graph) {provisional : String → String}
    (hids : DistinctIds graph provisional) {order : List SourceNode}
    (horder : order.Perm graph.values) {node : SourceNode} (hnode : node ∈ graph.values) :
    candidate_key (project provisional node) (order.map (project provisional)) =
      structural_key node graph := by
  obtain ⟨above, habove, hclimb⟩ := h.climb_eq hnode
  have hmapped : Lineage (by_id (order.map (project provisional))) CandidateNode.parent_id
      (node.parent_uid.map provisional) (above.map (project provisional)) := by
    refine habove.map provisional (project provisional) ?_ (fun _ _ _ => rfl)
    intro uid m hget
    rw [← get_uid uid m hget]
    exact by_id_project hids horder (Store.mem_values_of_get hget)
  have hlength : (above.map (project provisional)).length ≤
      (order.map (project provisional)).length + 1 := by
    have hle := habove.length_le get_uid (graph.values.map SourceNode.uid) fun k m hget =>
      get_uid k m hget ▸ List.mem_map_of_mem (Store.mem_values_of_get hget)
    rw [List.length_map] at hle
    rw [List.length_map, List.length_map, horder.length_eq]
    omega
  have havoid : ∀ c ∈ above.map (project provisional),
      c.provisional_id ∉ [(project provisional node).provisional_id] := by
    intro c hc hmem
    obtain ⟨m, hm, rfl⟩ := List.mem_map.mp hc
    have hgraph := Store.mem_values_of_get (habove.get_key get_uid m hm)
    have heq := hids m hgraph node hnode (List.mem_singleton.mp hmem)
    exact SourceGraph.Lineage.not_self hnode habove m hm (by rw [heq]; exact List.mem_cons_self)
  have hwalk := climb_of_lineage (fun k c hc => (by_id_eq_some hc).2) hmapped hlength havoid
  have hparent : (project provisional node).parent_id = node.parent_uid.map provisional := rfl
  rw [candidate_key, structural_key, hclimb, hparent, hwalk]
  simp only [← List.map_reverse, List.map_map]
  rfl

/-! ## Document order -/

/-- **A node of a forest is determined by its ordinal path.** The induction is on
the way up: equal paths have equal paths above them. -/
theorem Forest.ordinal_path_inj {media_type : String} {graph : SourceGraph}
    (h : Forest media_type graph) {a b : SourceNode} (ha : a ∈ graph.values)
    (hb : b ∈ graph.values) (hpath : ordinal_path graph a = ordinal_path graph b) : a = b := by
  have hlines : ∀ (as bs : List SourceNode) (a b : SourceNode), a ∈ graph.values →
      b ∈ graph.values → graph.Lineage a.parent_uid as → graph.Lineage b.parent_uid bs →
      (a :: as).map (fun n => n.ordinal.toNat) = (b :: bs).map (fun n => n.ordinal.toNat) →
      a = b := by
    intro as
    induction as with
    | nil =>
      intro bs a b ha hb hla hlb heq
      cases bs with
      | cons => simp at heq
      | nil =>
        have hroots : a.parent_uid = b.parent_uid := hla.of_nil.trans hlb.of_nil.symm
        exact h.sibling_unique ha hb hroots (UInt32.toNat_inj.mp (List.cons.inj heq).1)
    | cons p as ih =>
      intro bs a b ha hb hla hlb heq
      cases bs with
      | nil => simp at heq
      | cons q bs =>
        obtain ⟨hordinal, hrest⟩ := List.cons.inj heq
        obtain ⟨k, hka, hgp, hup⟩ := hla.of_cons
        obtain ⟨l, hlb', hgq, huq⟩ := hlb.of_cons
        have hpq := ih bs p q (Store.mem_values_of_get hgp) (Store.mem_values_of_get hgq) hup huq
          hrest
        have hparents : a.parent_uid = b.parent_uid := by
          rw [hka, hlb', ← get_uid k p hgp, ← get_uid l q hgq, hpq]
        exact h.sibling_unique ha hb hparents (UInt32.toNat_inj.mp hordinal)
  obtain ⟨as, hla, hca⟩ := h.climb_eq ha
  obtain ⟨bs, hlb, hcb⟩ := h.climb_eq hb
  refine hlines as bs a b ha hb hla hlb ?_
  rw [ordinal_path, ordinal_path, hca, hcb, ← List.reverse_cons, ← List.reverse_cons] at hpath
  rw [List.map_reverse, List.map_reverse] at hpath
  exact List.reverse_inj.mp hpath

omit [Sha256] in
theorem document_order_perm (graph : SourceGraph) : (document_order graph).Perm graph.values :=
  sortBy_perm _

omit [Sha256] in
theorem document_order_sorted (graph : SourceGraph) : (document_order graph).Pairwise fun a b =>
    (compareOn (ordinal_path graph) a b).isLE = true :=
  sortBy_sorted _

/-! ## Reconciling an unchanged document -/

/-- Within every structural key, document order is uid order. -/
def KeyOrderAgrees (graph : SourceGraph) : Prop :=
  ∀ a ∈ graph.values, ∀ b ∈ graph.values, structural_key a graph = structural_key b graph →
    compare (ordinal_path graph a) (ordinal_path graph b) = .lt → compare a.uid b.uid = .lt

private theorem class_perm {graph : SourceGraph} {order : List SourceNode}
    (horder : order.Perm graph.values) (key : StructuralKey) :
    ((order.filter fun n => structural_key n graph = key).map SourceNode.uid).Perm
      (key_pool graph key) :=
  (horder.filter _).map _

theorem candidate_keys_project {media_type : String} {graph : SourceGraph}
    (h : Forest media_type graph) {provisional : String → String}
    (hids : DistinctIds graph provisional) {order : List SourceNode}
    (horder : order.Perm graph.values) :
    (order.map (project provisional)).map (fun candidate =>
        candidate_key candidate (order.map (project provisional))) =
      order.map fun n => structural_key n graph := by
  rw [List.map_map]
  refine List.map_congr_left fun node hnode => ?_
  exact candidate_key_project h hids horder (horder.mem_iff.mp hnode)

private theorem count_keys_le {graph : SourceGraph} {order : List SourceNode}
    (horder : order.Perm graph.values) (key : StructuralKey) :
    (order.map fun n => structural_key n graph).count key ≤ (key_pool graph key).length := by
  rw [← (class_perm horder key).length_eq, List.length_map, List.count_eq_countP,
    List.countP_map, List.countP_eq_length_filter]
  refine Nat.le_of_eq (congrArg List.length (List.filter_congr fun n _ => ?_))
  simp only [Function.comp_apply, beq_eq_decide]

/-- **The nodes of a graph are served from its pools**, whatever their order: nothing is
minted, and everyone gets the uid of a node with its own key. -/
theorem serve_key_pools (mint : ℕ → String) {graph : SourceGraph} {order : List SourceNode}
    (horder : order.Perm graph.values) :
    List.Forall₂ (fun node uid => ∃ committed ∈ graph.values,
        uid = committed.uid ∧ structural_key committed graph = structural_key node graph) order
        (serve mint 0 (key_pool graph) (order.map fun n => structural_key n graph)).1 ∧
      (serve mint 0 (key_pool graph) (order.map fun n => structural_key n graph)).2 = 0 := by
  obtain ⟨hserved, hminted⟩ := serve_served mint 0 (count_keys_le horder)
  refine ⟨?_, hminted⟩
  rw [List.forall₂_map_left_iff] at hserved
  refine hserved.imp fun node uid huid => ?_
  obtain ⟨committed, hmem, rfl⟩ := List.mem_map.mp huid
  obtain ⟨hcommitted, hkey⟩ := List.mem_filter.mp hmem
  exact ⟨committed, hcommitted, rfl, of_decide_eq_true hkey⟩

private theorem class_eq_iff {media_type : String} {graph : SourceGraph}
    (h : Forest media_type graph) :
    (∀ key, ((document_order graph).filter fun n => structural_key n graph = key).map
      SourceNode.uid = key_pool graph key) ↔ KeyOrderAgrees graph := by
  have hpool : ∀ key, (key_pool graph key).Pairwise fun a b => compare a b = .lt := by
    intro key
    rw [key_pool, List.pairwise_map]
    exact graph.values_sorted.filter _
  have hdoc : ∀ key, ((document_order graph).filter fun n => structural_key n graph = key).Pairwise
      fun a b => compare (ordinal_path graph a) (ordinal_path graph b) = .lt := by
    intro key
    refine List.Pairwise.filter _ ?_
    have hnodup : (document_order graph).Nodup :=
      (document_order_perm graph).nodup_iff.mpr graph.values_nodup
    refine ((document_order_sorted graph).and hnodup).imp_of_mem ?_
    rintro a b ha hb ⟨hle, hne⟩
    have hpath : compare (ordinal_path graph a) (ordinal_path graph b) ≠ .eq := by
      intro heq
      exact hne (h.ordinal_path_inj ((document_order_perm graph).mem_iff.mp ha)
        ((document_order_perm graph).mem_iff.mp hb) (Std.LawfulEqCmp.compare_eq_iff_eq.mp heq))
    rw [compareOn] at hle
    revert hle hpath
    cases compare (ordinal_path graph a) (ordinal_path graph b) <;> decide
  constructor
  · intro hall a ha b hb hkey hlt
    have hmem : ∀ n ∈ graph.values, structural_key n graph = structural_key b graph →
        n ∈ (document_order graph).filter fun n => structural_key n graph = structural_key b graph := by
      intro n hn hk
      exact List.mem_filter.mpr ⟨(document_order_perm graph).mem_iff.mpr hn, by simpa using hk⟩
    have huids := hpool (structural_key b graph)
    rw [← hall, List.pairwise_map] at huids
    exact pairwise_agree (fun _ _ => cmp_lt_asymm) (hdoc (structural_key b graph)) huids a
      (hmem a ha hkey) b (hmem b hb rfl) hlt
  · intro hagree key
    have hsorted : (((document_order graph).filter fun n => structural_key n graph = key).map
        SourceNode.uid).Pairwise fun a b => compare a b = .lt := by
      rw [List.pairwise_map]
      refine (hdoc key).imp_of_mem ?_
      intro a b ha hb hlt
      obtain ⟨ha, hka⟩ := List.mem_filter.mp ha
      obtain ⟨hb, hkb⟩ := List.mem_filter.mp hb
      refine hagree a ((document_order_perm graph).mem_iff.mp ha) b
        ((document_order_perm graph).mem_iff.mp hb) ?_ hlt
      rw [of_decide_eq_true hka, of_decide_eq_true hkb]
    exact eq_of_perm_of_strict (class_perm (document_order_perm graph) key) hsorted (hpool key)

/-- **Re-ingestion of an unchanged document.** The candidates are a valid graph's
own nodes in document order, under any distinct provisional ids. No uid is
minted, every candidate gets the uid of a committed node with its own structural
key, and all of them get back their own uids exactly when, within every key,
document order is uid order. -/
theorem reconcile_document_order (mint : ℕ → String) {revision_uid media_type : String}
    {graph : SourceGraph}
    (hvalid : validate_graph_standalone revision_uid media_type graph = .ok ())
    {provisional : String → String} (hids : DistinctIds graph provisional) :
    let reconciled := reconcile mint graph ((document_order graph).map (project provisional))
    reconciled.2 = 0 ∧
    reconciled.1.map ReconciledNode.candidate =
      (document_order graph).map (project provisional) ∧
    List.Forall₂ (fun node uid => ∃ committed ∈ graph.values,
        uid = committed.uid ∧ structural_key committed graph = structural_key node graph)
      (document_order graph) (reconciled.1.map ReconciledNode.uid) ∧
    (reconciled.1.map ReconciledNode.uid = (document_order graph).map SourceNode.uid ↔
      KeyOrderAgrees graph) := by
  have hforest := validate_graph_standalone_ok_iff.mp hvalid
  have hperm := document_order_perm graph
  have hkeys := candidate_keys_project hforest hids hperm
  obtain ⟨hserved, hminted⟩ := serve_key_pools mint hperm
  have hlen : (serve mint 0 (key_pool graph)
      ((document_order graph).map fun n => structural_key n graph)).1.length =
      ((document_order graph).map (project provisional)).length := by
    rw [length_serve, List.length_map, List.length_map]
  simp only [reconcile, hkeys, List.map_map, Function.comp_def]
  refine ⟨hminted, List.map_snd_zip (Nat.le_of_eq hlen.symm), ?_, ?_⟩
  · have hfst := List.map_fst_zip (Nat.le_of_eq hlen)
    rw [show (fun pair : String × CandidateNode => pair.1) = Prod.fst from rfl, hfst]
    exact hserved
  · have hfst := List.map_fst_zip (Nat.le_of_eq hlen)
    rw [show (fun pair : String × CandidateNode => pair.1) = Prod.fst from rfl, hfst,
      serve_eq_map_iff _ SourceNode.uid (count_keys_le hperm), ← class_eq_iff hforest]
    refine forall_congr' fun key => ?_
    constructor
    · intro hprefix
      exact hprefix.eq_of_length (class_perm hperm key).length_eq
    · intro heq
      exact heq ▸ List.prefix_rfl

end Keys

/-! ## Two unlabeled roots -/

section Witness

attribute [local instance] fips180

/-- Two unlabeled root paragraphs whose uid order is not their document order. -/
def two_paragraphs : SourceGraph :=
  (Store.empty.put (committed_root "snode_00000000-0000-4000-8000-000000000002"
    "src_00000000-0000-4000-8000-000000000001" .Paragraph 0 none "First.")).put
    (committed_root "snode_00000000-0000-4000-8000-000000000001"
      "src_00000000-0000-4000-8000-000000000001" .Paragraph 1 none "Second.")

theorem two_paragraphs_valid :
    validate_graph_standalone "src_00000000-0000-4000-8000-000000000001" "text/html"
      two_paragraphs = .ok () := by
  refine validate_graph_standalone_ok_iff.mpr (forest_of_committed_roots ?_ (by decide +kernel))
  intro node hnode
  rw [two_paragraphs, Store.mem_values_put, Store.mem_values_put] at hnode
  rcases hnode with rfl | ⟨-, rfl | ⟨-, hnode⟩⟩
  · exact ⟨_, _, _, _, _, _, rfl⟩
  · exact ⟨_, _, _, _, _, _, rfl⟩
  · rw [Store.mem_values, Store.get_empty] at hnode
    cases hnode

/-- Unchanged, the two paragraphs are reconciled without a new uid. -/
theorem reconcile_two_paragraphs :
    (reconcile (fun _ => "") two_paragraphs
      ((document_order two_paragraphs).map (project id))).2 = 0 :=
  (reconcile_document_order (fun _ => "") two_paragraphs_valid fun _ ha _ hb huid =>
    Store.eq_of_mem_values ha hb huid).1

/-- **An unchanged document need not keep its identities.** The two paragraphs
share a structural key, so the pool hands the lower uid to the first of them. -/
theorem reconcile_swaps_two_paragraphs :
    ¬ ∀ (mint : ℕ → String) (revision_uid media_type : String) (graph : SourceGraph),
      graph.Built → validate_graph_standalone revision_uid media_type graph = .ok () →
      ∀ provisional : String → String, DistinctIds graph provisional →
        (reconcile mint graph ((document_order graph).map (project provisional))).1.map
          ReconciledNode.uid = (document_order graph).map SourceNode.uid := by
  intro h
  have hbuilt : two_paragraphs.Built := SourceGraph.built_iff.mpr (by decide +kernel)
  have hown := h (fun _ => "") _ _ two_paragraphs hbuilt two_paragraphs_valid id
    fun _ ha _ hb huid => Store.eq_of_mem_values ha hb huid
  revert hown
  decide +kernel

end Witness

end Evidence.Corpus
