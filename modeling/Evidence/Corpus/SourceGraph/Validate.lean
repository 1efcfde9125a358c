/-
`corpus/source_graph/normalization.rs` and `validate.rs` -- the digests of a source node,
and the structural invariants of one source graph.

The content digest and the structural fingerprint hash a domain tag and a length-prefixed
framing: of the kind and the exact canonical text, and of the kind, the label, and the
root-to-parent ancestry of `(kind, label)` pairs. Positions enter neither.

Validation is read-only and fails fast: per node, in uid order, the parent chain,
the parent/child kind pair, the two stored digests, and the locator against the
media type; then the sibling ordinals of every parent set.

`Forest` states what the checks are for, without their order and without the
walks: every node has a lineage to a root, stands under a legal parent, carries
its recomputed digests and a locator of the right medium, and every sibling set
is numbered `0..n`. `validate_graph_standalone_ok_iff` says that the validator
accepts exactly the forests.
-/
import Mathlib.Data.List.Dedup
import Evidence.Corpus.SourceGraph.Basic
import Evidence.Framing
import Evidence.Lib.Check
import Evidence.Lib.Climb
import Evidence.Lib.Sorting

set_option autoImplicit false

namespace Evidence.Corpus

/-! ## Digests of a node -/

section Digests

variable [Sha256]

/-- Domain/version tag prefixing the content-digest encoding. -/
def CONTENT_DOMAIN_TAG : List UInt8 := str_bytes "evidence/source-node-content/v1"

/-- Domain/version tag prefixing the fingerprint encoding. -/
def FINGERPRINT_DOMAIN_TAG : List UInt8 := str_bytes "evidence/source-node-fingerprint/v1"

/-- The bytes `content_digest` hashes. -/
def content_bytes (kind : SourceNodeKind) (canonical_text : String) : List UInt8 :=
  CONTENT_DOMAIN_TAG ++ [0] ++ push_str kind.as_str ++ push_str canonical_text

def content_digest (kind : SourceNodeKind) (canonical_text : String) : StructuralContentDigest :=
  .of_bytes (content_bytes kind canonical_text)

/-- The `(kind, label)` pair an ancestor contributes to a fingerprint. -/
abbrev AncestryPair := SourceNodeKind × Option String

def fingerprint_bytes (kind : SourceNodeKind) (label : Option String)
    (ancestry : List AncestryPair) : List UInt8 :=
  FINGERPRINT_DOMAIN_TAG ++ [0] ++ push_str kind.as_str ++ push_opt label ++
    push_count ancestry.length ++
    ancestry.flatMap fun pair => push_str pair.1.as_str ++ push_opt pair.2

def fingerprint (kind : SourceNodeKind) (label : Option String) (ancestry : List AncestryPair) :
    StructuralContentDigest :=
  .of_bytes (fingerprint_bytes kind label ancestry)

def SourceNode.pair (node : SourceNode) : AncestryPair := (node.kind, node.label)

end Digests

open Check Climb Sorting

/-! ## Parent walks -/

/-- A walk up the parent links of a graph from the uid `current`. -/
def SourceGraph.climb (graph : SourceGraph) (visited : List String) (current : Option String) :
    List SourceNode × Stop String :=
  Climb.climb graph.get SourceNode.parent_uid (graph.size + 1) visited current

/-- `vs` are the nodes from the uid `current` up to a root, nearest first. -/
abbrev SourceGraph.Lineage (graph : SourceGraph) : Option String → List SourceNode → Prop :=
  Climb.Lineage graph.get SourceNode.parent_uid

/-- Where the global index places a uid, if anywhere. -/
abbrev UidIndex := String → Option String

def absent_parent (revision_uid : String) (uid_index : UidIndex) (node_uid parent_uid : String) :
    SourceGraphError :=
  match uid_index parent_uid with
  | some parent_revision => .CrossRevisionParent revision_uid node_uid parent_uid parent_revision
  | none => .DanglingParent revision_uid node_uid parent_uid

/-- Walk `node`'s parent chain to a root, returning the ancestors ordered root to
parent. -/
def walk_ancestry (revision_uid : String) (graph : SourceGraph) (uid_index : UidIndex)
    (node : SourceNode) : Except SourceGraphError (List SourceNode) :=
  match graph.climb [node.uid] node.parent_uid with
  | (chain, .root) => .ok chain.reverse
  | (chain, .missing parent_uid) =>
    .error (absent_parent revision_uid uid_index (chain.getLast?.getD node).uid parent_uid)
  | (_, .revisit uid) => .error (.Cycle revision_uid uid)
  -- the walk has no budget in the source, and this one is never used up
  | (_, .exhausted) => .error (.Cycle revision_uid node.uid)

/-! ## Per-node checks -/

/-- The parent/child kind pair of a node under the last of its ancestors. -/
def check_parent_kind (revision_uid : String) (node : SourceNode) :
    Option SourceNode → Except SourceGraphError Unit
  | some parent =>
    failIf (!parent.kind.may_parent node.kind)
      (.IllegalParentKind revision_uid node.uid node.kind parent.uid parent.kind)
  | none => .ok ()

/-- A stored digest against its recomputed value. -/
def check_digest (revision_uid node_uid field : String)
    (recomputed actual : StructuralContentDigest) : Except SourceGraphError Unit :=
  failIf (recomputed ≠ actual)
    (.DigestMismatch revision_uid node_uid field recomputed.as_str actual.as_str)

/-- The locator variant against the revision's media type. -/
def check_locator_media (revision_uid media_type : String) (node : SourceNode) :
    Except SourceGraphError Unit :=
  failIf (!eq_ignore_ascii_case node.locator.expected_media_type media_type)
    (.LocatorMediaMismatch revision_uid node.uid node.locator.format_str media_type)

variable [Sha256]

/-- The per-node checks in order: ancestry, kind legality, content digest,
fingerprint, and locator media agreement. -/
def validate_node (revision_uid : String) (graph : SourceGraph) (uid_index : UidIndex)
    (media_type : String) (node : SourceNode) : Except SourceGraphError Unit := do
  let ancestry ← walk_ancestry revision_uid graph uid_index node
  check_parent_kind revision_uid node ancestry.getLast?
  check_digest revision_uid node.uid "content_sha256"
    (content_digest node.kind node.canonical_text) node.content_sha256
  check_digest revision_uid node.uid "fingerprint"
    (Corpus.fingerprint node.kind node.label (ancestry.map SourceNode.pair)) node.fingerprint
  check_locator_media revision_uid media_type node

/-! ## Sibling ordinals -/

/-- Canonical sibling ordering: ordinal, then uid. -/
def sibling_cmp : SourceNode → SourceNode → Ordering :=
  compareLex (compareOn SourceNode.ordinal) (compareOn SourceNode.uid)

instance : Std.TransCmp sibling_cmp :=
  inferInstanceAs (Std.TransCmp (compareLex (compareOn SourceNode.ordinal) (compareOn SourceNode.uid)))

/-- The nodes under one parent, in canonical sibling order. -/
def siblings (graph : SourceGraph) (parent_uid : Option String) : List SourceNode :=
  sortBy sibling_cmp (graph.values.filter fun node => node.parent_uid == parent_uid)

/-- The parents of a graph's nodes, in the order of the source's map: the root set
first, then by uid. -/
def parent_sets (graph : SourceGraph) : List (Option String) :=
  sortBy compare (graph.values.map SourceNode.parent_uid).dedup

def check_siblings (revision_uid : String) (parent_uid : Option String) :
    ℕ → Option SourceNode → List SourceNode → Except SourceGraphError Unit
  | _, _, [] => .ok ()
  | expected, previous, sibling :: rest => do
    match previous with
    | some prev =>
      failIf (sibling.ordinal = prev.ordinal)
        (.DuplicateOrdinal revision_uid parent_uid sibling.ordinal prev.uid sibling.uid)
    | none => .ok ()
    failIf (sibling.ordinal ≠ UInt32.ofNat expected)
      (.NonContiguousOrdinals revision_uid parent_uid (UInt32.ofNat expected) sibling.ordinal
        sibling.uid)
    check_siblings revision_uid parent_uid (expected + 1) (some sibling) rest

/-- Every sibling set's ordinals are unique and contiguous `0..n` under canonical
sibling ordering. -/
def validate_ordinals (revision_uid : String) (graph : SourceGraph) :
    Except SourceGraphError Unit :=
  (parent_sets graph).forM fun parent_uid =>
    check_siblings revision_uid parent_uid 0 none (siblings graph parent_uid)

/-! ## The validators -/

/-- The per-node checks in uid order, then the sibling-ordinal pass. -/
def validate_one_graph (revision_uid : String) (graph : SourceGraph) (uid_index : UidIndex)
    (media_type : String) : Except SourceGraphError Unit := do
  graph.values.forM (validate_node revision_uid graph uid_index media_type)
  validate_ordinals revision_uid graph

/-- Validate one standalone source graph against a declared media type: the uid
index is the graph's own. -/
def validate_graph_standalone (revision_uid media_type : String) (graph : SourceGraph) :
    Except SourceGraphError Unit :=
  validate_one_graph revision_uid graph (fun uid => (graph.get uid).map fun _ => revision_uid)
    media_type

/-! ## What the validators accept -/

/-- The nodes under one parent, in uid order. -/
def children (graph : SourceGraph) (parent_uid : Option String) : List SourceNode :=
  graph.values.filter fun node => node.parent_uid == parent_uid

/-- **The invariants of one revision's graph**: a rooted forest of legal
parent/child pairs, every node with its recomputed digests and a locator of the
revision's medium, every sibling set numbered `0..n`. -/
structure Forest (media_type : String) (graph : SourceGraph) : Prop where
  rooted : ∀ node ∈ graph.values, ∃ above, graph.Lineage node.parent_uid above
  legal : ∀ node ∈ graph.values, ∀ uid parent, node.parent_uid = some uid →
    graph.get uid = some parent → parent.kind.may_parent node.kind = true
  content : ∀ node ∈ graph.values,
    content_digest node.kind node.canonical_text = node.content_sha256
  fingerprint : ∀ node ∈ graph.values, ∀ above, graph.Lineage node.parent_uid above →
    Corpus.fingerprint node.kind node.label (above.reverse.map SourceNode.pair) = node.fingerprint
  medium : ∀ node ∈ graph.values,
    eq_ignore_ascii_case node.locator.expected_media_type media_type = true
  numbered : ∀ parent_uid, ((children graph parent_uid).map fun node => node.ordinal.toNat).Perm
    (List.range (children graph parent_uid).length)

omit [Sha256] in
theorem get_uid {graph : SourceGraph} : ∀ k node, graph.get k = some node → node.uid = k :=
  fun _ _ h => Store.key_of_get h

omit [Sha256] in
/-- **The walk of a graph ends at a root exactly when there is a lineage** that
avoids the visited uids. -/
theorem SourceGraph.climb_eq_root_iff {graph : SourceGraph} (visited : List String)
    {current : Option String} {chain : List SourceNode}
    (havoid : ∀ above, graph.Lineage current above → ∀ node ∈ above, node.uid ∉ visited) :
    graph.climb visited current = (chain, .root) ↔ graph.Lineage current chain := by
  refine Climb.climb_eq_root_iff get_uid (graph.values.map SourceNode.uid) ?_ ?_ havoid
  · intro k node hget
    rw [← get_uid k node hget]
    exact List.mem_map_of_mem (Store.mem_values_of_get hget)
  · rw [List.length_map, Store.length_values]
    exact Nat.le_succ _

omit [Sha256] in
theorem SourceGraph.Lineage.not_self {graph : SourceGraph} {node : SourceNode}
    (hnode : node ∈ graph.values) {above : List SourceNode}
    (h : graph.Lineage node.parent_uid above) : ∀ m ∈ above, m.uid ∉ [node.uid] := by
  intro m hm huid
  have hstep : graph.Lineage (some node.uid) (node :: above) :=
    .step (Store.mem_values.mp hnode) h
  have hnodup := hstep.nodup get_uid
  rw [List.map_cons, List.nodup_cons] at hnodup
  rw [List.mem_singleton] at huid
  exact hnodup.1 (huid ▸ List.mem_map_of_mem hm)

omit [Sha256] in
theorem walk_ancestry_ok_iff {revision_uid : String} {graph : SourceGraph} {uid_index : UidIndex}
    {node : SourceNode} (hnode : node ∈ graph.values) {ancestry : List SourceNode} :
    walk_ancestry revision_uid graph uid_index node = .ok ancestry ↔
      graph.Lineage node.parent_uid ancestry.reverse := by
  rw [← SourceGraph.climb_eq_root_iff [node.uid]
    fun above h => SourceGraph.Lineage.not_self hnode h]
  rw [walk_ancestry]
  cases hclimb : graph.climb [node.uid] node.parent_uid with
  | mk chain stop =>
    cases stop with
    | root =>
      simp only [Except.ok.injEq, Prod.mk.injEq, and_true]
      exact List.reverse_eq_iff
    | missing k => simp
    | revisit k => simp
    | exhausted => simp

/-- The per-node checks accept a node exactly when it satisfies the per-node
invariants. -/
theorem validate_node_ok_iff {revision_uid media_type : String} {graph : SourceGraph}
    {uid_index : UidIndex} {node : SourceNode} (hnode : node ∈ graph.values) :
    validate_node revision_uid graph uid_index media_type node = .ok () ↔
      ∃ above, graph.Lineage node.parent_uid above ∧
        (∀ parent ∈ above.head?, parent.kind.may_parent node.kind = true) ∧
        content_digest node.kind node.canonical_text = node.content_sha256 ∧
        Corpus.fingerprint node.kind node.label (above.reverse.map SourceNode.pair) =
          node.fingerprint ∧
        eq_ignore_ascii_case node.locator.expected_media_type media_type = true := by
  have hkind : ∀ parent : Option SourceNode, check_parent_kind revision_uid node parent = .ok () ↔
      ∀ p ∈ parent, p.kind.may_parent node.kind = true := by
    intro parent
    cases parent with
    | none => simp [check_parent_kind]
    | some p => simp [check_parent_kind, failIf_ok_iff]
  rw [validate_node, bind_ok_iff]
  simp only [seq_ok_iff, hkind, check_digest, check_locator_media, failIf_ok_iff, ne_eq, not_not,
    Bool.not_eq_true', Bool.not_eq_false]
  constructor
  · rintro ⟨ancestry, hwalk, hlegal, hcontent, hfinger, hmedia⟩
    refine ⟨ancestry.reverse, (walk_ancestry_ok_iff hnode).mp hwalk, ?_, hcontent, ?_, hmedia⟩
    · rwa [List.head?_reverse]
    · rwa [List.reverse_reverse]
  · rintro ⟨above, hlineage, hlegal, hcontent, hfinger, hmedia⟩
    refine ⟨above.reverse, (walk_ancestry_ok_iff hnode).mpr ?_, ?_, hcontent, hfinger, hmedia⟩
    · rwa [List.reverse_reverse]
    · rwa [List.getLast?_reverse]

/-! ## What the ordinal pass accepts -/

section Ordinals

omit [Sha256]

theorem siblings_perm (graph : SourceGraph) (parent_uid : Option String) :
    (siblings graph parent_uid).Perm (children graph parent_uid) :=
  sortBy_perm _

theorem siblings_sorted (graph : SourceGraph) (parent_uid : Option String) :
    (siblings graph parent_uid).Pairwise fun a b => a.ordinal.toNat ≤ b.ordinal.toNat := by
  have hsorted : (siblings graph parent_uid).Pairwise fun a b => (sibling_cmp a b).isLE = true :=
    sortBy_sorted _
  refine hsorted.imp ?_
  intro a b hab
  rw [sibling_cmp, compareLex, Ordering.isLE_then_iff_and] at hab
  exact UInt32.le_iff_toNat_le.mp (Std.isLE_compare.mp hab.1)

/-- The check of a sorted sibling set from position `expected` on. The ordinal
of the sibling before it, one less than `expected`, keeps `expected` from
wrapping around. -/
private theorem check_siblings_ok_iff {revision_uid : String} {parent_uid : Option String}
    {expected : ℕ} {previous : Option SourceNode} {rest : List SourceNode}
    (hprev : ∀ prev ∈ previous, prev.ordinal.toNat + 1 = expected ∧
      ∀ s ∈ rest, prev.ordinal.toNat ≤ s.ordinal.toNat)
    (hfirst : previous = none → expected = 0)
    (hsorted : rest.Pairwise fun a b => a.ordinal.toNat ≤ b.ordinal.toNat) :
    check_siblings revision_uid parent_uid expected previous rest = .ok () ↔
      (rest.map fun node => node.ordinal.toNat) = List.range' expected rest.length := by
  induction rest generalizing expected previous with
  | nil => simp [check_siblings]
  | cons sibling rest ih =>
    rw [List.pairwise_cons] at hsorted
    have hlt : sibling.ordinal.toNat < 2 ^ 32 := sibling.ordinal.toNat_lt
    -- the two checks on this sibling say that its ordinal is `expected`
    have hhead : (∀ prev ∈ previous, sibling.ordinal ≠ prev.ordinal) ∧
        sibling.ordinal = UInt32.ofNat expected ↔ sibling.ordinal.toNat = expected := by
      constructor
      · rintro ⟨hne, heq⟩
        rw [heq, UInt32.toNat_ofNat']
        refine Nat.mod_eq_of_lt ?_
        cases hp : previous with
        | none => rw [hfirst hp]; exact Nat.two_pow_pos 32
        | some prev =>
          obtain ⟨hpred, hle⟩ := hprev prev hp
          have hle' := hle sibling List.mem_cons_self
          have hne' : sibling.ordinal.toNat ≠ prev.ordinal.toNat := by
            intro h
            exact hne prev hp (UInt32.toNat_inj.mp h)
          omega
      · intro h
        refine ⟨?_, ?_⟩
        · intro prev hp heq
          have hpred := (hprev prev hp).1
          rw [heq] at h
          omega
        · rw [← UInt32.toNat_inj, UInt32.toNat_ofNat', Nat.mod_eq_of_lt (h ▸ hlt), h]
    have hsplit : check_siblings revision_uid parent_uid expected previous (sibling :: rest) = .ok () ↔
        ((∀ prev ∈ previous, sibling.ordinal ≠ prev.ordinal) ∧
          sibling.ordinal = UInt32.ofNat expected) ∧
        check_siblings revision_uid parent_uid (expected + 1) (some sibling) rest = .ok () := by
      cases previous with
      | none => simp [check_siblings, seq_ok_iff, failIf_ok_iff]
      | some prev => simp [check_siblings, seq_ok_iff, failIf_ok_iff, and_assoc]
    rw [hsplit, hhead, List.map_cons, List.length_cons, List.range'_succ, List.cons.injEq]
    refine and_congr_right fun heq => ih ?_ ?_ hsorted.2
    · intro prev hp
      cases hp
      exact ⟨by omega, hsorted.1⟩
    · intro h
      cases h

/-- **The ordinal pass accepts exactly the graphs whose sibling sets are numbered
`0..n`.** -/
theorem validate_ordinals_ok_iff {revision_uid : String} {graph : SourceGraph} :
    validate_ordinals revision_uid graph = .ok () ↔
      ∀ parent_uid, ((children graph parent_uid).map fun node => node.ordinal.toNat).Perm
        (List.range (children graph parent_uid).length) := by
  have hset : ∀ parent_uid,
      check_siblings revision_uid parent_uid 0 none (siblings graph parent_uid) = .ok () ↔
        ((children graph parent_uid).map fun node => node.ordinal.toNat).Perm
          (List.range (children graph parent_uid).length) := by
    intro parent_uid
    have hperm := siblings_perm graph parent_uid
    have hsorted := siblings_sorted graph parent_uid
    rw [check_siblings_ok_iff (by intro prev h; cases h) (fun _ => rfl) hsorted,
      ← List.range_eq_range', hperm.length_eq]
    constructor
    · intro h
      rw [← h]
      exact (hperm.map _).symm
    · intro h
      have hleft : ((siblings graph parent_uid).map fun node => node.ordinal.toNat).Pairwise (· ≤ ·) :=
        List.pairwise_map.mpr hsorted
      have hright : (List.range (children graph parent_uid).length).Pairwise (· ≤ ·) :=
        List.pairwise_le_range
      exact ((hperm.map _).trans h).eq_of_pairwise (fun a b _ _ => Nat.le_antisymm) hleft hright
  rw [validate_ordinals, forM_ok_iff]
  constructor
  · intro h parent_uid
    by_cases hmem : parent_uid ∈ graph.values.map SourceNode.parent_uid
    · refine (hset parent_uid).mp (h parent_uid ?_)
      rw [parent_sets, mem_sortBy, List.mem_dedup]
      exact hmem
    · have hnone : children graph parent_uid = [] := by
        rw [children, List.filter_eq_nil_iff]
        intro node hnode heq
        exact hmem (List.mem_map.mpr ⟨node, hnode, beq_iff_eq.mp heq⟩)
      rw [hnone]
      exact List.Perm.nil
  · intro h parent_uid _
    exact (hset parent_uid).mpr (h parent_uid)

end Ordinals

/-! ## The specification -/

/-- **The validator of one graph accepts exactly the forests**: the revision uid and
the global index enter its errors alone. -/
theorem validate_one_graph_ok_iff {revision_uid media_type : String} {graph : SourceGraph}
    {uid_index : UidIndex} :
    validate_one_graph revision_uid graph uid_index media_type = .ok () ↔
      Forest media_type graph := by
  rw [validate_one_graph, seq_ok_iff, forM_ok_iff, validate_ordinals_ok_iff]
  constructor
  · rintro ⟨hnodes, hnumbered⟩
    have hnode := fun node hmem => (validate_node_ok_iff hmem).mp (hnodes node hmem)
    refine ⟨?_, ?_, ?_, ?_, ?_, hnumbered⟩
    · intro node hmem
      obtain ⟨above, hlineage, -⟩ := hnode node hmem
      exact ⟨above, hlineage⟩
    · intro node hmem uid parent huid hget
      obtain ⟨above, hlineage, hlegal, -⟩ := hnode node hmem
      rw [huid] at hlineage
      cases hlineage with
      | step hget' _ =>
        rw [hget] at hget'
        cases hget'
        exact hlegal parent rfl
    · intro node hmem
      obtain ⟨_, -, -, hcontent, -⟩ := hnode node hmem
      exact hcontent
    · intro node hmem above habove
      obtain ⟨above', hlineage, -, -, hfinger, -⟩ := hnode node hmem
      rw [habove.unique hlineage]
      exact hfinger
    · intro node hmem
      obtain ⟨_, -, -, -, -, hmedia⟩ := hnode node hmem
      exact hmedia
  · intro h
    refine ⟨fun node hmem => (validate_node_ok_iff hmem).mpr ?_, h.numbered⟩
    obtain ⟨above, hlineage⟩ := h.rooted node hmem
    refine ⟨above, hlineage, ?_, h.content node hmem, h.fingerprint node hmem above hlineage,
      h.medium node hmem⟩
    intro parent hparent
    cases hup : node.parent_uid with
    | none => rw [hup] at hlineage; cases hlineage; cases hparent
    | some uid =>
      rw [hup] at hlineage
      cases hlineage with
      | step hget _ =>
        cases hparent
        exact h.legal node hmem uid _ hup hget

theorem validate_graph_standalone_ok_iff {revision_uid media_type : String}
    {graph : SourceGraph} :
    validate_graph_standalone revision_uid media_type graph = .ok () ↔
      Forest media_type graph :=
  validate_one_graph_ok_iff

theorem Forest.sibling_unique {media_type : String} {graph : SourceGraph}
    (h : Forest media_type graph) {a b : SourceNode} (ha : a ∈ graph.values)
    (hb : b ∈ graph.values) (hparent : a.parent_uid = b.parent_uid)
    (hordinal : a.ordinal = b.ordinal) : a = b := by
  have hnodup := (h.numbered a.parent_uid).nodup_iff.mpr List.nodup_range
  refine List.inj_on_of_nodup_map hnodup ?_ ?_ (congrArg UInt32.toNat hordinal)
  · exact List.mem_filter.mpr ⟨ha, beq_self_eq_true _⟩
  · exact List.mem_filter.mpr ⟨hb, by rw [hparent]; exact beq_self_eq_true _⟩

theorem Forest.parent_get {media_type : String} {graph : SourceGraph}
    (h : Forest media_type graph) {node : SourceNode} (hnode : node ∈ graph.values)
    {parent_uid : String} (hparent : node.parent_uid = some parent_uid) :
    ∃ parent, graph.get parent_uid = some parent := by
  obtain ⟨above, habove⟩ := h.rooted node hnode
  rw [hparent] at habove
  cases habove with
  | step hget _ => exact ⟨_, hget⟩

/-! ## Graphs of roots -/

theorem Forest.of_roots {media_type : String} {graph : SourceGraph}
    (hroot : ∀ node ∈ graph.values, node.parent_uid = none)
    (hcontent : ∀ node ∈ graph.values,
      content_digest node.kind node.canonical_text = node.content_sha256)
    (hfinger : ∀ node ∈ graph.values,
      Corpus.fingerprint node.kind node.label [] = node.fingerprint)
    (hmedium : ∀ node ∈ graph.values,
      eq_ignore_ascii_case node.locator.expected_media_type media_type = true)
    (hnumbered : (graph.values.map fun node => node.ordinal.toNat).Perm
      (List.range graph.values.length)) : Forest media_type graph where
  rooted := by
    intro node hnode
    exact ⟨[], by rw [hroot node hnode]; exact .root⟩
  legal := by
    intro node hnode uid parent hparent
    rw [hroot node hnode] at hparent
    cases hparent
  content := hcontent
  fingerprint := by
    intro node hnode above habove
    rw [hroot node hnode] at habove
    cases habove
    exact hfinger node hnode
  medium := hmedium
  numbered := by
    intro parent_uid
    cases parent_uid with
    | none =>
      have hall : children graph none = graph.values := by
        refine List.filter_eq_self.mpr fun node hnode => ?_
        rw [hroot node hnode]
        rfl
      rw [hall]
      exact hnumbered
    | some uid =>
      have hnone : children graph (some uid) = [] := by
        refine List.filter_eq_nil_iff.mpr fun node hnode => ?_
        rw [hroot node hnode]
        exact Bool.false_ne_true
      rw [hnone]
      exact List.Perm.nil

theorem Forest.empty {media_type : String} : Forest media_type (Store.empty : SourceGraph) := by
  have hnil : (Store.empty : SourceGraph).values = [] :=
    List.eq_nil_iff_forall_not_mem.mpr Store.not_mem_values_empty
  refine Forest.of_roots ?_ ?_ ?_ ?_ (by rw [hnil]; exact List.Perm.nil)
  all_goals exact fun node hnode => absurd hnode (Store.not_mem_values_empty node)

/-- A root of an HTML document as an ingester commits it, with its digests as
recomputed. -/
def committed_root (uid revision_uid : String) (kind : SourceNodeKind) (ordinal : UInt32)
    (label : Option String) (canonical_text : String) : SourceNode where
  uid := uid
  source_revision_uid := revision_uid
  parent_uid := none
  kind := kind
  ordinal := ordinal
  label := label
  canonical_text := canonical_text
  content_sha256 := content_digest kind canonical_text
  fingerprint := Corpus.fingerprint kind label []
  locator := .Html "https://example.org/a" none none [] []

theorem forest_of_committed_roots {graph : SourceGraph}
    (hroots : ∀ node ∈ graph.values, ∃ uid revision_uid kind ordinal label canonical_text,
      node = committed_root uid revision_uid kind ordinal label canonical_text)
    (hnumbered : (graph.values.map fun node => node.ordinal.toNat).Perm
      (List.range graph.values.length)) : Forest "text/html" graph := by
  refine Forest.of_roots ?_ ?_ ?_ ?_ hnumbered
  all_goals
    intro node hnode
    obtain ⟨uid, revision_uid, kind, ordinal, label, canonical_text, rfl⟩ := hroots node hnode
  · rfl
  · rfl
  · rfl
  · exact (by decide +kernel : eq_ignore_ascii_case "text/html" "text/html" = true)

end Evidence.Corpus
