/-
`corpus/source/lineage.rs` -- the lineage of each document, and its effective head.

`validate_source_lineage` makes local checks: of single edges, of successor counts, of
walks, of roots and heads. Together they say that the revisions of every document form
one linear chain, newest first (`LinearChain`), and nothing less does. The effective
head of a document is then the first revision of its chain.
-/
import Evidence.Corpus.Graph.Supersession

set_option autoImplicit false

namespace Evidence.Corpus

open Check Climb Succession Sorting

/-! ## Effective heads -/

/-- The effective source head of each document key: a later head of one key
replaces an earlier one. -/
def effective_source_heads (graph : CorpusGraph) : Store (Prod.fst : String × String → String) :=
  graph.source_revisions.foldl
    (fun heads revision =>
      if revision.uid ∈ superseded_uids graph then heads
      else heads.put (revision.document_key, revision.uid))
    Store.empty

/-! ## Linear chains -/

abbrev supersedes (revision : SourceRevisionNode) : List String :=
  edge_targets .Supersedes revision.edges

/-- The revisions of a document, newest first: each supersedes exactly the next one,
the last supersedes none, and each revision of the document is listed once. -/
structure LinearChain (graph : CorpusGraph) (document_key : String)
    (chain : List SourceRevisionNode) : Prop where
  covers : chain.Perm (revisions_of graph document_key)
  linked : Linked SourceRevisionNode.uid supersedes chain

theorem mem_revisions_of {graph : CorpusGraph} {document_key : String}
    {revision : SourceRevisionNode} :
    revision ∈ revisions_of graph document_key ↔
      revision ∈ graph.source_revisions ∧ revision.document_key = document_key := by
  rw [revisions_of, List.mem_filter, beq_iff_eq]

theorem revisions_of_nodup (graph : CorpusGraph) (document_key : String) :
    (revisions_of graph document_key).Nodup :=
  graph.source_revisions_nodup.filter _

theorem mem_document_keys {graph : CorpusGraph} {document_key : String} :
    document_key ∈ document_keys graph ↔
      ∃ revision ∈ graph.source_revisions, revision.document_key = document_key := by
  rw [document_keys, mem_sortBy, List.mem_dedup, List.mem_map]

namespace LinearChain

variable {graph : CorpusGraph} {document_key : String} {chain : List SourceRevisionNode}

theorem mem_iff (h : LinearChain graph document_key chain) {revision : SourceRevisionNode} :
    revision ∈ chain ↔
      revision ∈ graph.source_revisions ∧ revision.document_key = document_key := by
  rw [h.covers.mem_iff, mem_revisions_of]

theorem uids_nodup (h : LinearChain graph document_key chain) :
    (chain.map SourceRevisionNode.uid).Nodup := by
  have hnodup : chain.Nodup := h.covers.nodup_iff.mpr (graph.source_revisions_nodup.filter _)
  exact hnodup.map_on fun a ha b hb huid =>
    CorpusGraph.revision_inj (h.mem_iff.mp ha).1 (h.mem_iff.mp hb).1 huid

theorem lineage {head : SourceRevisionNode}
    (h : LinearChain graph document_key (head :: chain)) :
    Lineage graph.revision supersedes_target (some head.uid) (head :: chain) :=
  h.linked.lineage fun _ hrevision =>
    CorpusGraph.revision_iff.mpr ⟨(h.mem_iff.mp hrevision).1, rfl⟩

end LinearChain

/-! ## What the single checks accept -/

variable {graph : CorpusGraph}

theorem validate_source_links_ok_iff {revision : SourceRevisionNode} :
    validate_source_links graph revision = .ok () ↔
      (supersedes revision).length ≤ 1 ∧
      ∀ target ∈ supersedes revision, target ≠ revision.uid ∧
        ∀ predecessor, graph.revision target = some predecessor →
          revision.document_key = predecessor.document_key := by
  have hlink : ∀ target : String, validate_source_link graph revision target = .ok () ↔
      target ≠ revision.uid ∧ ∀ predecessor, graph.revision target = some predecessor →
        revision.document_key = predecessor.document_key := by
    intro target
    rw [validate_source_link, seq_ok_iff, failIf_ok_iff]
    refine and_congr_right fun _ => ?_
    unfold CorpusGraph.revision
    cases (graph.get target).bind Node.as_source_revision with
    | none => simp
    | some predecessor => simp [failIf_ok_iff]
  simp only [validate_source_links, seq_ok_iff, failIf_ok_iff, not_lt, forM_ok_iff, hlink]

theorem reject_multiple_ok_iff {p : SourceRevisionNode → Bool}
    {multiple : String → String → String → SourceError} :
    reject_multiple graph p multiple = .ok () ↔
      ∀ v ∈ graph.source_revisions, ∀ w ∈ graph.source_revisions,
        v.document_key = w.document_key → p v = true → p w = true → v = w := by
  have hone := fun document_key : String =>
    length_le_one_iff_of_nodup ((revisions_of_nodup graph document_key).filter p)
  rw [reject_multiple, forM_ok_iff]
  constructor
  · intro h v hv w hw hkey hpv hpw
    have hcheck := h v.document_key (mem_document_keys.mpr ⟨v, hv, rfl⟩)
    have hlen : (((revisions_of graph v.document_key).filter p).map
        SourceRevisionNode.uid).length ≤ 1 := by
      split at hcheck
      · exact nomatch hcheck
      · next hshort => exact length_le_one_of_short hshort
    rw [List.length_map] at hlen
    refine (hone _).mp hlen v ?_ w ?_
    · exact List.mem_filter.mpr ⟨mem_revisions_of.mpr ⟨hv, rfl⟩, hpv⟩
    · exact List.mem_filter.mpr ⟨mem_revisions_of.mpr ⟨hw, hkey.symm⟩, hpw⟩
  · intro h document_key _
    have hlen : ((revisions_of graph document_key).filter p).length ≤ 1 := by
      refine (hone document_key).mpr fun v hv w hw => ?_
      obtain ⟨hv, hpv⟩ := List.mem_filter.mp hv
      obtain ⟨hw, hpw⟩ := List.mem_filter.mp hw
      obtain ⟨hv, hkeyv⟩ := mem_revisions_of.mp hv
      obtain ⟨hw, hkeyw⟩ := mem_revisions_of.mp hw
      exact h v hv w hw (hkeyv.trans hkeyw.symm) hpv hpw
    split
    · next first second rest heq =>
      rw [← List.length_map SourceRevisionNode.uid, heq] at hlen
      simp only [List.length_cons] at hlen
      omega
    · rfl

theorem mem_superseded_uids (hresolve : SupersedesResolve graph) {revision : SourceRevisionNode}
    (hrevision : revision ∈ graph.source_revisions) :
    revision.uid ∈ superseded_uids graph ↔
      ∃ successor ∈ graph.source_revisions, revision.uid ∈ supersedes successor := by
  rw [superseded_uids, List.mem_flatMap]
  constructor
  · rintro ⟨node, hnode, hmem⟩
    obtain ⟨found, hget, hkind⟩ := hresolve node hnode _ hmem
    rw [CorpusGraph.get_revision hrevision] at hget
    cases hget
    cases node with
    | SourceRevision successor =>
      exact ⟨successor, List.mem_filterMap.mpr ⟨_, hnode, rfl⟩, hmem⟩
    | Requirement | Test | Review => exact nomatch hkind
  · rintro ⟨successor, hsuccessor, hmem⟩
    exact ⟨_, Store.mem_values_of_get (CorpusGraph.get_revision hsuccessor), hmem⟩

/-! ## The lineage plane -/

/-- What the checks before the heads check establish. -/
structure LineagePlane (graph : CorpusGraph) : Prop where
  plane : Plane graph.revision supersedes_target SourceRevisionNode.uid graph.source_revisions
  single : ∀ revision ∈ graph.source_revisions, (supersedes revision).length ≤ 1
  same_document : ∀ v ∈ graph.source_revisions, ∀ w ∈ graph.source_revisions,
    supersedes_target v = some w.uid → v.document_key = w.document_key
  one_root : ∀ v ∈ graph.source_revisions, ∀ w ∈ graph.source_revisions,
    v.document_key = w.document_key → supersedes_target v = none → supersedes_target w = none →
    v = w

/-- With at most one edge, a revision supersedes what its first edge names. -/
theorem mem_supersedes_iff {revision : SourceRevisionNode}
    (hsingle : (supersedes revision).length ≤ 1) {target : String} :
    target ∈ supersedes revision ↔ supersedes_target revision = some target := by
  change target ∈ supersedes revision ↔ (supersedes revision).head? = some target
  match supersedes revision, hsingle with
  | [], _ => simp
  | [only], _ => simp [eq_comm]

/-- **The checks before the heads check, taken together.** -/
theorem lineage_plane_iff (hresolve : SupersedesResolve graph) :
    (∀ revision ∈ graph.source_revisions, validate_source_links graph revision = .ok ()) ∧
      reject_forks SourceError.SourceSupersessionFork (source_chains graph) = .ok () ∧
      reject_cycles SourceError.SourceSupersessionCycle (source_chains graph) = .ok () ∧
      reject_multiple_roots graph = .ok () ↔ LineagePlane graph := by
  have hresolved : ∀ revision ∈ graph.source_revisions, ∀ target ∈ supersedes revision,
      (graph.revision target).isSome = true := fun revision hrevision target htarget =>
    hresolve.revision hrevision htarget
  have hforks : reject_forks SourceError.SourceSupersessionFork (source_chains graph) = .ok () ↔
      ∀ p ∈ graph.source_revisions, ∀ v ∈ graph.source_revisions, ∀ w ∈ graph.source_revisions,
        p.uid ∈ supersedes v → p.uid ∈ supersedes w → v = w :=
    reject_forks_ok_iff graph.source_revisions_nodup
  have hcycles : (∀ revision ∈ graph.source_revisions, (supersedes revision).length ≤ 1) →
      (reject_cycles SourceError.SourceSupersessionCycle (source_chains graph) = .ok () ↔
        ∀ v ∈ graph.source_revisions, Grounded graph.revision supersedes v.uid) := fun hsingle =>
    reject_cycles_ok_iff CorpusGraph.revision_iff hsingle hresolved
  simp only [validate_source_links_ok_iff, hforks, reject_multiple_roots, reject_multiple_ok_iff,
    Option.isNone_iff_eq_none]
  constructor
  · rintro ⟨hlinks, hforkless, hacyclic, hroots⟩
    have hsingle : ∀ revision ∈ graph.source_revisions, (supersedes revision).length ≤ 1 :=
      fun revision hrevision => (hlinks revision hrevision).1
    refine ⟨⟨CorpusGraph.revision_iff, graph.source_revisions_nodup, ?_, ?_⟩, hsingle, ?_, hroots⟩
    · intro v hv w hw uid hupv hupw
      have hmemv := (mem_supersedes_iff (hsingle v hv)).mpr hupv
      have hmemw := (mem_supersedes_iff (hsingle w hw)).mpr hupw
      obtain ⟨p, hp⟩ := Option.isSome_iff_exists.mp (hresolved v hv uid hmemv)
      obtain ⟨hpmem, rfl⟩ := CorpusGraph.revision_iff.mp hp
      exact hforkless p hpmem v hv w hw hmemv hmemw
    · exact (hcycles hsingle).mp hacyclic
    · intro v hv w hw hup
      have hmem := (mem_supersedes_iff (hsingle v hv)).mpr hup
      exact ((hlinks v hv).2 _ hmem).2 w (CorpusGraph.revision_iff.mpr ⟨hw, rfl⟩)
  · intro h
    refine ⟨fun v hv => ⟨h.single v hv, fun target htarget => ⟨?_, ?_⟩⟩, ?_,
      (hcycles h.single).mpr h.plane.grounded, h.one_root⟩
    · -- a revision that superseded itself would have no last predecessor
      rintro rfl
      obtain ⟨vs, hvs⟩ := h.plane.exists_lineage hv
      obtain ⟨-, -, -, hup⟩ := hvs.of_cons
      rw [(mem_supersedes_iff (h.single v hv)).mp htarget] at hup
      have hlen := congrArg List.length (hvs.unique hup)
      simp only [List.length_cons] at hlen
      omega
    · intro predecessor hpredecessor
      obtain ⟨hmem, rfl⟩ := CorpusGraph.revision_iff.mp hpredecessor
      exact h.same_document v hv predecessor hmem ((mem_supersedes_iff (h.single v hv)).mp htarget)
    · intro p _ v hv w hw hpv hpw
      exact h.plane.forkless v hv w hw _ ((mem_supersedes_iff (h.single v hv)).mp hpv)
        ((mem_supersedes_iff (h.single w hw)).mp hpw)

namespace LineagePlane

theorem head_iff (h : LineagePlane graph) (hresolve : SupersedesResolve graph)
    {revision : SourceRevisionNode} (hrevision : revision ∈ graph.source_revisions) :
    Head supersedes_target SourceRevisionNode.uid graph.source_revisions revision ↔
      revision.uid ∉ superseded_uids graph := by
  rw [mem_superseded_uids hresolve hrevision]
  constructor
  · rintro hhead ⟨successor, hsuccessor, hmem⟩
    exact hhead successor hsuccessor ((mem_supersedes_iff (h.single _ hsuccessor)).mp hmem)
  · intro hnone successor hsuccessor hup
    exact hnone ⟨successor, hsuccessor, (mem_supersedes_iff (h.single _ hsuccessor)).mpr hup⟩

/-- **A document has one head.** -/
theorem unique_head (h : LineagePlane graph) (hresolve : SupersedesResolve graph)
    {v w : SourceRevisionNode} (hv : v ∈ graph.source_revisions) (hw : w ∈ graph.source_revisions)
    (hkey : v.document_key = w.document_key) (hheadv : v.uid ∉ superseded_uids graph)
    (hheadw : w.uid ∉ superseded_uids graph) : v = w := by
  refine h.plane.class_unique_head h.same_document ?_ hv hw
    ((h.head_iff hresolve hv).mpr hheadv) ((h.head_iff hresolve hw).mpr hheadw) hkey rfl
  intro a ha b hb hkeya hkeyb
  exact h.one_root a ha b hb (hkeya.trans hkeyb.symm)

/-- **A document's revisions form one chain, from its head on.** -/
theorem exists_chain (h : LineagePlane graph) (hresolve : SupersedesResolve graph)
    {document_key : String} (hkey : document_key ∈ document_keys graph) :
    ∃ head chain, LinearChain graph document_key (head :: chain) ∧
      head.uid ∉ superseded_uids graph := by
  obtain ⟨revision, hrevision, rfl⟩ := mem_document_keys.mp hkey
  have hclass : ∀ v ∈ graph.source_revisions, ∀ chain,
      Lineage graph.revision supersedes_target (some v.uid) chain →
      ∀ w ∈ chain, w.document_key = v.document_key := fun v hv chain hchain =>
    h.plane.class_of_lineage h.same_document hchain hv
  obtain ⟨head, hmem, hhead, line, hline, hon⟩ := h.plane.exists_head hrevision
  obtain ⟨chain, hchain⟩ := h.plane.exists_lineage hmem
  obtain rfl := hchain.unique hline
  have hsame : revision.document_key = head.document_key := hclass head hmem _ hchain _ hon
  have hfree := (h.head_iff hresolve hmem).mp hhead
  refine ⟨head, chain, ⟨?_, ?_⟩, hfree⟩
  · have hnodup : (head :: chain).Nodup := (hchain.nodup h.plane.key_of_get).of_map _
    refine (List.perm_ext_iff_of_nodup hnodup (revisions_of_nodup graph _)).mpr fun w => ?_
    rw [mem_revisions_of]
    constructor
    · intro hw
      exact ⟨h.plane.mem_of_lineage hchain hw, (hclass head hmem _ hchain w hw).trans hsame.symm⟩
    · rintro ⟨hw, hwkey⟩
      obtain ⟨head', hmem', hhead', line', hline', hon'⟩ := h.plane.exists_head hw
      have hkey' : head'.document_key = head.document_key :=
        (hclass head' hmem' _ hline' w hon').symm.trans (hwkey.trans hsame)
      obtain rfl := h.unique_head hresolve hmem' hmem hkey' ((h.head_iff hresolve hmem').mp hhead')
        hfree
      exact hchain.unique hline' ▸ hon'
  · exact linked_of_lineage h.plane.key_of_get
      (fun uid v hv => h.single v (CorpusGraph.revision_iff.mp hv).1) hchain

theorem of_chains (hchains : ∀ document_key ∈ document_keys graph,
    ∃ chain, LinearChain graph document_key chain) : LineagePlane graph := by
  have hchain : ∀ v ∈ graph.source_revisions,
      ∃ chain, LinearChain graph v.document_key chain ∧ v ∈ chain := by
    intro v hv
    obtain ⟨chain, hchain⟩ := hchains v.document_key (mem_document_keys.mpr ⟨v, hv, rfl⟩)
    exact ⟨chain, hchain, hchain.mem_iff.mpr ⟨hv, rfl⟩⟩
  have hsingle : ∀ v ∈ graph.source_revisions, (supersedes v).length ≤ 1 := by
    intro v hv
    obtain ⟨chain, hchain, hmem⟩ := hchain v hv
    exact hchain.linked.length_outs v hmem
  -- what a revision names stands on its own chain
  have hnamed : ∀ v ∈ graph.source_revisions, ∀ w ∈ graph.source_revisions,
      w.uid ∈ supersedes v → v.document_key = w.document_key := by
    intro v hv w hw hmem
    obtain ⟨chain, hchain, hon⟩ := hchain v hv
    obtain ⟨before, after, rfl⟩ := List.append_of_mem hon
    obtain ⟨x, hx, huid⟩ := hchain.linked.of_append.named_mem List.mem_cons_self hmem
    obtain ⟨hxmem, hxkey⟩ :=
      hchain.mem_iff.mp (List.mem_append_right before (List.mem_cons_of_mem v hx))
    rw [← hxkey, CorpusGraph.revision_inj hxmem hw huid]
  refine ⟨⟨CorpusGraph.revision_iff, graph.source_revisions_nodup, ?_, ?_⟩, hsingle, ?_, ?_⟩
  · intro v hv w hw uid hupv hupw
    obtain ⟨chain, hchainv, honv⟩ := hchain v hv
    have hmemv := (mem_supersedes_iff (hsingle v hv)).mpr hupv
    have hmemw := (mem_supersedes_iff (hsingle w hw)).mpr hupw
    -- both name one revision, whose document is theirs
    obtain ⟨before, after, rfl⟩ := List.append_of_mem honv
    obtain ⟨p, hp, rfl⟩ := hchainv.linked.of_append.named_mem List.mem_cons_self hmemv
    have hpmem := (hchainv.mem_iff.mp
      (List.mem_append_right before (List.mem_cons_of_mem v hp))).1
    have hsame : w.document_key = v.document_key :=
      (hnamed w hw p hpmem hmemw).trans (hnamed v hv p hpmem hmemv).symm
    exact hchainv.linked.forkless hchainv.uids_nodup honv (hchainv.mem_iff.mpr ⟨hw, hsame⟩)
      hmemv hmemw
  · intro v hv
    obtain ⟨chain, hchain, hon⟩ := hchain v hv
    obtain ⟨before, after, rfl⟩ := List.append_of_mem hon
    refine ⟨v :: after, hchain.linked.of_append.lineage fun w hw => ?_⟩
    exact CorpusGraph.revision_iff.mpr
      ⟨(hchain.mem_iff.mp (List.mem_append_right before hw)).1, rfl⟩
  · intro v hv w hw hup
    exact hnamed v hv w hw ((mem_supersedes_iff (hsingle v hv)).mpr hup)
  · intro v hv w hw hkey hrootv hrootw
    obtain ⟨chain, hchain, hon⟩ := hchain v hv
    exact hchain.linked.root_unique hon (hchain.mem_iff.mpr ⟨hw, hkey.symm⟩)
      (List.head?_eq_none_iff.mp hrootv) (List.head?_eq_none_iff.mp hrootw)

end LineagePlane

/-! ## The whole check -/

/-- The heads check accepts whatever the checks before it accept. -/
theorem reject_multiple_heads_ok (hresolve : SupersedesResolve graph) (h : LineagePlane graph) :
    reject_multiple_heads graph = .ok () := by
  refine reject_multiple_ok_iff.mpr fun v hv w hw hkey hheadv hheadw => ?_
  exact h.unique_head hresolve hv hw hkey (of_decide_eq_true hheadv) (of_decide_eq_true hheadw)

theorem validate_source_lineage_ok_iff (hresolve : SupersedesResolve graph) :
    validate_source_lineage graph = .ok () ↔ LineagePlane graph := by
  simp only [validate_source_lineage, seq_ok_iff, forM_ok_iff]
  constructor
  · rintro ⟨hlinks, hforks, hcycles, hroots, -⟩
    exact (lineage_plane_iff hresolve).mp ⟨hlinks, hforks, hcycles, hroots⟩
  · intro h
    obtain ⟨hlinks, hforks, hcycles, hroots⟩ := (lineage_plane_iff hresolve).mpr h
    exact ⟨hlinks, hforks, hcycles, hroots, reject_multiple_heads_ok hresolve h⟩

theorem effective_source_heads_get (hresolve : SupersedesResolve graph) (h : LineagePlane graph)
    {document_key : String} {entry : String × String} :
    (effective_source_heads graph).get document_key = some entry ↔
      ∃ head ∈ graph.source_revisions, head.uid ∉ superseded_uids graph ∧
        head.document_key = document_key ∧ entry = (document_key, head.uid) := by
  let heads := graph.source_revisions.filter fun revision => revision.uid ∉ superseded_uids graph
  have hmem : ∀ {revision}, revision ∈ heads ↔
      revision ∈ graph.source_revisions ∧ revision.uid ∉ superseded_uids graph := by
    intro revision
    rw [List.mem_filter, decide_eq_true_eq]
  have hfold : effective_source_heads graph = heads.foldl
      (fun store revision => store.put (revision.document_key, revision.uid)) Store.empty := by
    rw [List.foldl_filter, effective_source_heads]
    congr 1
    funext store revision
    by_cases hsuperseded : revision.uid ∈ superseded_uids graph <;> simp [hsuperseded]
  have hnodup : (heads.map SourceRevisionNode.document_key).Nodup :=
    (graph.source_revisions_nodup.filter _).map_on fun v hv w hw hkey =>
      h.unique_head hresolve (hmem.mp hv).1 (hmem.mp hw).1 hkey (hmem.mp hv).2 (hmem.mp hw).2
  rw [hfold, Store.get_foldl_put (fun revision : SourceRevisionNode =>
    (revision.document_key, revision.uid)) hnodup, Store.get_empty, Option.or_none,
    Option.map_eq_some_iff]
  constructor
  · rintro ⟨head, hfind, rfl⟩
    obtain ⟨hhead, hfree⟩ := hmem.mp (List.mem_of_find?_eq_some hfind)
    have hfound := List.find?_some hfind
    have hkey : head.document_key = document_key := of_decide_eq_true hfound
    exact ⟨head, hhead, hfree, hkey, congrArg (·, head.uid) hkey⟩
  · rintro ⟨head, hhead, hfree, rfl, rfl⟩
    cases hfind : heads.find? fun revision =>
        decide (revision.document_key = head.document_key) with
    | none =>
      exact absurd (decide_eq_true rfl)
        (List.find?_eq_none.mp hfind head (hmem.mpr ⟨hhead, hfree⟩))
    | some found =>
      obtain ⟨hfound, hfoundfree⟩ := hmem.mp (List.mem_of_find?_eq_some hfind)
      have hsome := List.find?_some hfind
      have hkey : found.document_key = head.document_key := of_decide_eq_true hsome
      exact ⟨head, congrArg some (h.unique_head hresolve hfound hhead hkey hfoundfree hfree), rfl⟩

/-- **The heads check is never the one that fails.** The checks before it report
other errors, and once they accept there is one head per document. -/
theorem validate_source_lineage_ne_multiple_heads (hresolve : SupersedesResolve graph)
    (document_key first second : String) : validate_source_lineage graph ≠
      .error (.SourceLineageMultipleHeads document_key first second) := by
  intro h
  rcases seq_error h with hlinks | ⟨hlinks, h⟩
  · obtain ⟨revision, -, hrevision⟩ := forM_error hlinks
    rcases seq_error hrevision with hsingle | ⟨-, hedges⟩
    · exact nomatch failIf_error hsingle
    · obtain ⟨target, -, hlink⟩ := forM_error hedges
      rcases seq_error hlink with hself | ⟨-, hdocument⟩
      · exact nomatch failIf_error hself
      · split at hdocument
        · exact nomatch hdocument
        · exact nomatch failIf_error hdocument
  · rcases seq_error h with hforks | ⟨hforks, h⟩
    · obtain ⟨uid, a, b, heq⟩ := reject_forks_error hforks
      exact nomatch heq
    · rcases seq_error h with hcycles | ⟨hcycles, h⟩
      · obtain ⟨uid, heq⟩ := reject_cycles_error hcycles
        exact nomatch heq
      · rcases seq_error h with hroots | ⟨hroots, hheads⟩
        · obtain ⟨other_key, -, hcheck⟩ := forM_error hroots
          split at hcheck
          · exact nomatch Except.error.inj hcheck
          · exact nomatch hcheck
        · have hplane := (lineage_plane_iff hresolve).mp
            ⟨forM_ok_iff.mp hlinks, hforks, hcycles, hroots⟩
          rw [reject_multiple_heads_ok hresolve hplane] at hheads
          exact nomatch hheads

theorem LinearChain.effective_head (hresolve : SupersedesResolve graph) (h : LineagePlane graph)
    {document_key : String} {head : SourceRevisionNode} {chain : List SourceRevisionNode}
    (hchain : LinearChain graph document_key (head :: chain)) :
    (effective_source_heads graph).get document_key = some (document_key, head.uid) := by
  obtain ⟨hmem, hkey⟩ := hchain.mem_iff.mp List.mem_cons_self
  refine (effective_source_heads_get hresolve h).mpr ⟨head, hmem, fun hsuperseded => ?_, hkey, rfl⟩
  obtain ⟨successor, hsuccessor, hnames⟩ := (mem_superseded_uids hresolve hmem).mp hsuperseded
  have hsame := h.same_document successor hsuccessor head hmem
    ((mem_supersedes_iff (h.single successor hsuccessor)).mp hnames)
  exact hchain.linked.head_unnamed hchain.uids_nodup successor
    (hchain.mem_iff.mpr ⟨hsuccessor, hsame.trans hkey⟩) hnames

/-- **Source lineage.** Where the `Supersedes` edges resolve, the lineage check accepts
exactly the graphs in which the revisions of every document form one linear chain. It then
derives one effective head for every document, from which walking `supersedes` visits
every revision of the document once, and its heads check never fails. -/
theorem validate_source_lineage_linear (hresolve : SupersedesResolve graph) :
    (validate_source_lineage graph = .ok () ↔
      ∀ document_key ∈ document_keys graph, ∃ chain, LinearChain graph document_key chain) ∧
    (validate_source_lineage graph = .ok () →
      (∀ document_key, ((effective_source_heads graph).get document_key).isSome = true ↔
        document_key ∈ document_keys graph) ∧
      ∀ document_key head,
        (effective_source_heads graph).get document_key = some (document_key, head) →
          (∀ revision ∈ revisions_of graph document_key,
            revision.uid ∉ superseded_uids graph ↔ revision.uid = head) ∧
          ∃ chain, Lineage graph.revision supersedes_target (some head) chain ∧
            chain.Perm (revisions_of graph document_key)) ∧
    ∀ document_key first second, validate_source_lineage graph ≠
      .error (.SourceLineageMultipleHeads document_key first second) := by
  rw [validate_source_lineage_ok_iff hresolve]
  refine ⟨⟨fun h document_key hkey => ?_, LineagePlane.of_chains⟩, fun h => ⟨?_, ?_⟩,
    validate_source_lineage_ne_multiple_heads hresolve⟩
  · obtain ⟨head, chain, hchain, -⟩ := h.exists_chain hresolve hkey
    exact ⟨head :: chain, hchain⟩
  · intro document_key
    rw [Option.isSome_iff_exists]
    constructor
    · rintro ⟨entry, hentry⟩
      obtain ⟨head, hhead, -, hkey, -⟩ := (effective_source_heads_get hresolve h).mp hentry
      exact mem_document_keys.mpr ⟨head, hhead, hkey⟩
    · intro hkey
      obtain ⟨head, chain, hchain, hfree⟩ := h.exists_chain hresolve hkey
      obtain ⟨hmem, hdocument⟩ := hchain.mem_iff.mp List.mem_cons_self
      exact ⟨_, (effective_source_heads_get hresolve h).mpr ⟨head, hmem, hfree, hdocument, rfl⟩⟩
  · intro document_key uid hget
    obtain ⟨head, hhead, hfree, hdocument, heq⟩ := (effective_source_heads_get hresolve h).mp hget
    obtain rfl : uid = head.uid := congrArg Prod.snd heq
    constructor
    · intro revision hrevision
      obtain ⟨hmem, hkey⟩ := mem_revisions_of.mp hrevision
      constructor
      · intro hrevisionfree
        rw [h.unique_head hresolve hmem hhead (hkey.trans hdocument.symm) hrevisionfree hfree]
      · intro huid
        rw [huid]
        exact hfree
    · obtain ⟨head', chain, hchain, hfree'⟩ :=
        h.exists_chain hresolve (mem_document_keys.mpr ⟨head, hhead, hdocument⟩)
      obtain ⟨hmem', hkey'⟩ := hchain.mem_iff.mp List.mem_cons_self
      obtain rfl := h.unique_head hresolve hmem' hhead (hkey'.trans hdocument.symm) hfree' hfree
      exact ⟨head' :: chain, hchain.lineage, hchain.covers⟩

section Witness

/-- Two revisions of one document, the second superseding the first. -/
def superseded_revision : CorpusGraph :=
  { CorpusGraph.new with
    nodes :=
      (Store.empty.put (.SourceRevision (revision_node "src_a" "A" []))).put
        (.SourceRevision (revision_node "src_b" "B" [(.Supersedes, "src_a")])) }

private theorem superseded_revision_resolves : SupersedesResolve superseded_revision := by
  intro node hnode target htarget
  rcases Store.mem_values_put.mp hnode with rfl | ⟨-, hnode⟩
  · obtain rfl : target = "src_a" := by simpa [edge_targets, Node.edges, revision_node] using htarget
    refine ⟨.SourceRevision (revision_node "src_a" "A" []), ?_, rfl⟩
    decide +kernel
  · obtain rfl := Store.mem_values_singleton.mp hnode
    exact absurd htarget List.not_mem_nil

/-- The document of the two revisions has an effective head. -/
theorem validate_source_lineage_linear_superseded :
    ((effective_source_heads superseded_revision).get "doc").isSome = true :=
  (((validate_source_lineage_linear superseded_revision_resolves).2.1 (by decide +kernel)).1
    "doc").mpr (by decide +kernel)

end Witness

end Evidence.Corpus
