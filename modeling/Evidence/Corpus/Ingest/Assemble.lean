/-
`corpus/ingest/{html,markdown,pdf}.rs` -- assembling the candidates of an adapter into a graph.

The three adapters assemble alike: reconcile the candidates against an empty graph, build one
node for each, insert the nodes one by one, and validate the graph. `Rooted` is what
an adapter owes this pipeline: distinct provisional ids, every parent a candidate of a kind that
may have the child and nearer to the root, siblings numbered from zero on. Then a label that two
nodes of one kind carry is all that can fail (`assemble_error`). Candidates that are `Planted`,
parents first, are rooted.
-/
import Evidence.Lib.Lists
import Evidence.Corpus.SourceGraph.Reconcile

set_option autoImplicit false

namespace Evidence.Corpus

open Check Climb Queues

/-! ## The pipeline -/

section Pipeline

variable [Sha256]

/-- The ancestry of a candidate, its parent first: a walk up the parent ids. -/
def candidate_ancestry (candidates : List CandidateNode) : ℕ → Option String → List AncestryPair
  | 0, _ => []
  | _ + 1, none => []
  | fuel + 1, some parent =>
    match by_id candidates parent with
    | none => []
    | some node => (node.kind, node.label) :: candidate_ancestry candidates fuel node.parent_id

/-- The uid of the entry with a provisional id; on duplicates of the last one. -/
def uid_of (entries : List ReconciledNode) (id : String) : Option String :=
  (entries.findRev? fun entry => entry.candidate.provisional_id == id).map ReconciledNode.uid

/-- One committed-shape node from a reconciled candidate: minted uid, resolved parent uid,
content digest, and ancestry fingerprint. A walk that does not return to a candidate it has
passed takes fewer steps than there are entries. -/
def build_node (source_revision_uid : String) (entries : List ReconciledNode)
    (entry : ReconciledNode) : SourceNode where
  uid := entry.uid
  source_revision_uid := source_revision_uid
  parent_uid := entry.candidate.parent_id.bind (uid_of entries)
  kind := entry.candidate.kind
  ordinal := entry.candidate.ordinal
  label := entry.candidate.label
  canonical_text := entry.candidate.canonical_text
  content_sha256 := content_digest entry.candidate.kind entry.candidate.canonical_text
  fingerprint := fingerprint entry.candidate.kind entry.candidate.label
    (candidate_ancestry (entries.map ReconciledNode.candidate) entries.length
      entry.candidate.parent_id).reverse
  locator := entry.candidate.locator

/-- Reconcile candidate identities, compute digests, and run the final validation. -/
def assemble (mint : ℕ → String) (source_revision_uid media_type : String)
    (candidates : List CandidateNode) : Except SourceGraphError (List SourceNode) := do
  let entries := (reconcile mint Store.empty candidates).1
  let nodes := entries.map (build_node source_revision_uid entries)
  let graph ← SourceGraph.insert_all nodes
  validate_graph_standalone source_revision_uid media_type graph
  .ok nodes

end Pipeline

/-! ## Planted candidates -/

def candidates_under (candidates : List CandidateNode) (parent : Option String) :
    List CandidateNode :=
  candidates.filter fun candidate => candidate.parent_id == parent

/-- **What an adapter owes**: candidates that form a forest, listed parents first. -/
structure Planted (media_type : String) (candidates : List CandidateNode) : Prop where
  distinct : (candidates.map CandidateNode.provisional_id).Nodup
  /-- A parent is an earlier candidate, of a kind that may have the child. -/
  below : ∀ before candidate after, candidates = before ++ candidate :: after →
    ∀ id, candidate.parent_id = some id → ∃ parent ∈ before, parent.provisional_id = id ∧
      parent.kind.may_parent candidate.kind = true
  numbered : ∀ parent, ((candidates_under candidates parent).map fun c => c.ordinal.toNat).Perm
    (List.range (candidates_under candidates parent).length)
  medium : ∀ candidate ∈ candidates,
    eq_ignore_ascii_case candidate.locator.expected_media_type media_type = true

/-! ## Rooted candidates -/

/-- Candidates whose parent ids lead to the root. -/
structure Parented (candidates : List CandidateNode) : Prop where
  distinct : (candidates.map CandidateNode.provisional_id).Nodup
  /-- A parent is a candidate nearer to the root, of a kind that may have the child. -/
  below : ∃ depth : CandidateNode → ℕ, ∀ candidate ∈ candidates,
    ∀ id, candidate.parent_id = some id → ∃ parent ∈ candidates, parent.provisional_id = id ∧
      parent.kind.may_parent candidate.kind = true ∧ depth parent < depth candidate

/-- **Candidates that form a forest**, in whatever order they are listed. -/
structure Rooted (media_type : String) (candidates : List CandidateNode) : Prop extends
    Parented candidates where
  numbered : ∀ parent, ((candidates_under candidates parent).map fun c => c.ordinal.toNat).Perm
    (List.range (candidates_under candidates parent).length)
  medium : ∀ candidate ∈ candidates,
    eq_ignore_ascii_case candidate.locator.expected_media_type media_type = true

/-- A candidate listed behind its parent is deeper than the parent is. -/
theorem Planted.rooted {media_type : String} {candidates : List CandidateNode}
    (h : Planted media_type candidates) : Rooted media_type candidates := by
  refine ⟨⟨h.distinct, fun c => (candidates.map CandidateNode.provisional_id).idxOf
    c.provisional_id, ?_⟩, h.numbered, h.medium⟩
  intro candidate hmem id hid
  obtain ⟨before, after, hsplit⟩ := List.append_of_mem hmem
  obtain ⟨parent, hparent, rfl, hkind⟩ := h.below before candidate after hsplit id hid
  have hids := h.distinct
  rw [hsplit, List.map_append, List.map_cons] at hids
  refine ⟨parent, ?_, rfl, hkind, ?_⟩
  · rw [hsplit]
    exact List.mem_append_left _ hparent
  · have hnew : candidate.provisional_id ∉ before.map CandidateNode.provisional_id := fun hold =>
      (List.nodup_append.mp hids).2.2 _ hold _ List.mem_cons_self rfl
    rw [hsplit, List.map_append, List.map_cons]
    dsimp only
    rw [List.idxOf_append_of_mem (List.mem_map_of_mem hparent),
      List.idxOf_append_of_notMem hnew]
    exact (List.idxOf_lt_length_of_mem (List.mem_map_of_mem hparent)).trans_le
      (Nat.le_add_right _ _)

theorem count_shallower_lt {candidates : List CandidateNode} (depth : CandidateNode → ℕ)
    {c : CandidateNode} (hc : c ∈ candidates) {d : ℕ} (hd : depth c < d) :
    (candidates.countP fun other => depth other < depth c) <
      candidates.countP fun other => depth other < d := by
  obtain ⟨before, after, rfl⟩ := List.append_of_mem hc
  have hmono (cs : List CandidateNode) : (cs.countP fun other => depth other < depth c) ≤
      cs.countP fun other => depth other < d := by
    refine List.countP_mono_left fun other _ hother => ?_
    exact decide_eq_true ((of_decide_eq_true hother).trans hd)
  have hbefore := hmono before
  have hafter := hmono after
  simp only [List.countP_append, List.countP_cons, lt_irrefl, decide_false, hd, decide_true]
  simp only [Bool.false_eq_true, if_false, if_true]
  omega

/-! ## The entries -/

section Entries

variable {media_type : String} {entries : List ReconciledNode}

theorem by_id_entry (hdistinct : ((entries.map ReconciledNode.candidate).map
    CandidateNode.provisional_id).Nodup) {entry : ReconciledNode} (hentry : entry ∈ entries) :
    by_id (entries.map ReconciledNode.candidate) entry.candidate.provisional_id =
      some entry.candidate :=
  Lists.findRev?_of_nodup hdistinct (List.mem_map_of_mem hentry)

theorem uid_of_entry (hdistinct : ((entries.map ReconciledNode.candidate).map
    CandidateNode.provisional_id).Nodup) {entry : ReconciledNode} (hentry : entry ∈ entries) :
    uid_of entries entry.candidate.provisional_id = some entry.uid := by
  rw [List.map_map] at hdistinct
  have hfound : (entries.findRev? fun other =>
      other.candidate.provisional_id == entry.candidate.provisional_id) = some entry :=
    Lists.findRev?_of_nodup (f := CandidateNode.provisional_id ∘ ReconciledNode.candidate)
      hdistinct hentry
  rw [uid_of, hfound, Option.map_some]

variable [Sha256] {source_revision_uid : String}

theorem resolved_below (source_revision_uid : String)
    (hparented : Parented (entries.map ReconciledNode.candidate)) :
    ∃ depth : CandidateNode → ℕ, ∀ entry ∈ entries, ∀ id, entry.candidate.parent_id = some id →
      ∃ up ∈ entries, up.candidate.provisional_id = id ∧
        up.candidate.kind.may_parent entry.candidate.kind = true ∧
        depth up.candidate < depth entry.candidate ∧
        (build_node source_revision_uid entries entry).parent_uid = some up.uid := by
  obtain ⟨depth, hbelow⟩ := hparented.below
  refine ⟨depth, fun entry hentry id hparent => ?_⟩
  obtain ⟨parent, hmem, hid, hkind, hdepth⟩ :=
    hbelow entry.candidate (List.mem_map_of_mem hentry) id hparent
  obtain ⟨up, hup, rfl⟩ := List.mem_map.mp hmem
  refine ⟨up, hup, hid, hkind, hdepth, ?_⟩
  rw [build_node, hparent, Option.bind_some, ← hid]
  exact uid_of_entry hparented.distinct hup

theorem resolved_parent (source_revision_uid : String)
    (hparented : Parented (entries.map ReconciledNode.candidate))
    {entry : ReconciledNode} (hentry : entry ∈ entries) {id : String}
    (hparent : entry.candidate.parent_id = some id) :
    ∃ up ∈ entries, up.candidate.provisional_id = id ∧
      up.candidate.kind.may_parent entry.candidate.kind = true ∧
      (build_node source_revision_uid entries entry).parent_uid = some up.uid := by
  obtain ⟨depth, hbelow⟩ := resolved_below source_revision_uid hparented
  obtain ⟨up, hup, hid, hkind, -, huid⟩ := hbelow entry hentry id hparent
  exact ⟨up, hup, hid, hkind, huid⟩

/-- **The lineage of a built node.** The induction is on the depth; the walk over the candidates
goes the same way, and there are as many steps as candidates nearer to the root. -/
theorem built_lineage (hparented : Parented (entries.map ReconciledNode.candidate))
    {graph : SourceGraph}
    (hgraph : ∀ entry ∈ entries,
      graph.get entry.uid = some (build_node source_revision_uid entries entry))
    {entry : ReconciledNode} (hentry : entry ∈ entries) :
    ∃ above, graph.Lineage (build_node source_revision_uid entries entry).parent_uid above ∧
      candidate_ancestry (entries.map ReconciledNode.candidate) entries.length
        entry.candidate.parent_id = above.map SourceNode.pair := by
  obtain ⟨depth, hbelow⟩ := resolved_below source_revision_uid hparented
  -- enough steps are one more than there are candidates nearer to the root
  suffices hwalk : ∀ d, ∀ entry ∈ entries, depth entry.candidate = d → ∃ above,
      graph.Lineage (build_node source_revision_uid entries entry).parent_uid above ∧
        ∀ fuel, ((entries.map ReconciledNode.candidate).countP fun c =>
            depth c < depth entry.candidate) < fuel →
          candidate_ancestry (entries.map ReconciledNode.candidate) fuel
            entry.candidate.parent_id = above.map SourceNode.pair by
    obtain ⟨above, hlineage, hfuel⟩ := hwalk _ entry hentry rfl
    refine ⟨above, hlineage, hfuel _ ?_⟩
    have hlt := count_shallower_lt depth
      (List.mem_map_of_mem (f := ReconciledNode.candidate) hentry) (Nat.lt_succ_self _)
    refine hlt.trans_le (List.countP_le_length.trans_eq ?_)
    rw [List.length_map]
  intro d
  induction d using Nat.strong_induction_on with
  | _ d ih =>
    intro entry hentry hd
    cases hparent : entry.candidate.parent_id with
    | none =>
      refine ⟨[], ?_, fun fuel hfuel => ?_⟩
      · rw [build_node, hparent]
        exact .root
      · cases fuel with
        | zero => omega
        | succ fuel => rfl
    | some id =>
      obtain ⟨up, hup, hid, -, hdepth, huid⟩ := hbelow entry hentry id hparent
      obtain ⟨above, hlineage, hwalk⟩ := ih _ (hd ▸ hdepth) up hup rfl
      refine ⟨build_node source_revision_uid entries up :: above, ?_, fun fuel hfuel => ?_⟩
      · rw [huid]
        exact .step (hgraph up hup) hlineage
      · cases fuel with
        | zero => omega
        | succ fuel =>
          have hfewer := count_shallower_lt depth
            (List.mem_map_of_mem (f := ReconciledNode.candidate) hup) hdepth
          rw [candidate_ancestry, ← hid, by_id_entry hparented.distinct hup]
          dsimp only
          rw [hwalk fuel (by omega)]
          rfl

/-- **Siblings of candidates are siblings of nodes.** -/
theorem parent_uid_eq_iff (hparented : Parented (entries.map ReconciledNode.candidate))
    (huids : (entries.map ReconciledNode.uid).Nodup) {a b : ReconciledNode} (ha : a ∈ entries)
    (hb : b ∈ entries) :
    (build_node source_revision_uid entries a).parent_uid =
        (build_node source_revision_uid entries b).parent_uid ↔
      a.candidate.parent_id = b.candidate.parent_id := by
  constructor
  · intro h
    cases hpa : a.candidate.parent_id with
    | none =>
      rw [build_node, hpa, Option.bind_none] at h
      cases hpb : b.candidate.parent_id with
      | none => rfl
      | some id =>
        obtain ⟨up, -, -, -, huid⟩ := resolved_parent source_revision_uid hparented hb hpb
        rw [huid] at h
        cases h
    | some id =>
      obtain ⟨up, hup, hid, -, huid⟩ := resolved_parent source_revision_uid hparented ha hpa
      rw [huid] at h
      cases hpb : b.candidate.parent_id with
      | none =>
        rw [build_node, hpb, Option.bind_none] at h
        cases h
      | some id' =>
        obtain ⟨up', hup', hid', -, huid'⟩ := resolved_parent source_revision_uid hparented hb hpb
        rw [huid', Option.some.injEq] at h
        rw [← hid, ← hid', List.inj_on_of_nodup_map huids hup hup' h]
  · intro h
    rw [build_node, build_node, h]

/-- **The nodes of rooted candidates are a forest.** -/
theorem forest_of_rooted (hrooted : Rooted media_type (entries.map ReconciledNode.candidate))
    (huids : (entries.map ReconciledNode.uid).Nodup) {graph : SourceGraph}
    (hmem : ∀ node, node ∈ graph.values ↔
      node ∈ entries.map (build_node source_revision_uid entries)) : Forest media_type graph := by
  have hgraph : ∀ entry ∈ entries,
      graph.get entry.uid = some (build_node source_revision_uid entries entry) := by
    intro entry hentry
    exact Store.mem_values.mp ((hmem _).mpr (List.mem_map_of_mem hentry))
  have hnode : ∀ node ∈ graph.values, ∃ entry ∈ entries,
      build_node source_revision_uid entries entry = node := by
    intro node hnode
    exact List.mem_map.mp ((hmem node).mp hnode)
  refine ⟨?_, ?_, ?_, ?_, ?_, ?_⟩
  · intro node hnode'
    obtain ⟨entry, hentry, rfl⟩ := hnode node hnode'
    obtain ⟨above, hlineage, -⟩ := built_lineage hrooted.toParented hgraph hentry
    exact ⟨above, hlineage⟩
  · intro node hnode' uid parent hparent hget
    obtain ⟨entry, hentry, rfl⟩ := hnode node hnode'
    cases hid : entry.candidate.parent_id with
    | none =>
      rw [build_node, hid] at hparent
      cases hparent
    | some id =>
      obtain ⟨up, hup, -, hkind, huid⟩ :=
        resolved_parent source_revision_uid hrooted.toParented hentry hid
      rw [huid, Option.some.injEq] at hparent
      rw [← hparent, hgraph up hup, Option.some.injEq] at hget
      rw [← hget]
      exact hkind
  · intro node hnode'
    obtain ⟨entry, hentry, rfl⟩ := hnode node hnode'
    rfl
  · intro node hnode' above habove
    obtain ⟨entry, hentry, rfl⟩ := hnode node hnode'
    obtain ⟨above', hlineage, hwalk⟩ := built_lineage hrooted.toParented hgraph hentry
    rw [hlineage.unique habove] at hwalk
    rw [List.map_reverse, ← hwalk]
    rfl
  · intro node hnode'
    obtain ⟨entry, hentry, rfl⟩ := hnode node hnode'
    exact hrooted.medium _ (List.mem_map_of_mem hentry)
  · intro parent_uid
    have hnodup : (entries.map (build_node source_revision_uid entries)).Nodup := by
      refine List.Nodup.of_map SourceNode.uid ?_
      rw [List.map_map]
      exact huids
    have hvalues : graph.values.Perm (entries.map (build_node source_revision_uid entries)) :=
      (List.perm_ext_iff_of_nodup graph.values_nodup hnodup).mpr hmem
    have hchildren : (children graph parent_uid).Perm
        ((entries.filter fun entry =>
          (build_node source_revision_uid entries entry).parent_uid == parent_uid).map
            (build_node source_revision_uid entries)) := by
      have hfilter := hvalues.filter fun node => node.parent_uid == parent_uid
      rw [List.filter_map] at hfilter
      exact hfilter
    rw [hchildren.length_eq]
    refine (hchildren.map _).trans ?_
    rw [List.map_map, List.length_map]
    -- the entries of a sibling set, if there are any, are those of a candidate's siblings
    by_cases hany : ∃ entry ∈ entries,
        (build_node source_revision_uid entries entry).parent_uid = parent_uid
    · obtain ⟨first, hfirst, rfl⟩ := hany
      have hsame : (entries.filter fun entry =>
          (build_node source_revision_uid entries entry).parent_uid ==
            (build_node source_revision_uid entries first).parent_uid) =
          entries.filter fun entry => entry.candidate.parent_id == first.candidate.parent_id := by
        refine List.filter_congr fun entry hentry => ?_
        rw [Bool.eq_iff_iff, beq_iff_eq, beq_iff_eq]
        exact parent_uid_eq_iff hrooted.toParented huids hentry hfirst
      have hnumbered := hrooted.numbered first.candidate.parent_id
      rw [candidates_under, List.filter_map, List.map_map, List.length_map] at hnumbered
      rw [hsame]
      exact hnumbered
    · have hnone : (entries.filter fun entry =>
          (build_node source_revision_uid entries entry).parent_uid == parent_uid) = [] := by
        refine List.filter_eq_nil_iff.mpr fun entry hentry heq => hany ?_
        exact ⟨entry, hentry, beq_iff_eq.mp heq⟩
      rw [hnone]
      exact .nil

end Entries

/-! ## What can fail -/

section Failures

variable [Sha256] {mint : ℕ → String} {source_revision_uid media_type : String}
  {candidates : List CandidateNode}

/-- Two candidates of one kind carry one label. -/
def LabelShared (candidates : List CandidateNode) (kind : SourceNodeKind) (label : String) : Prop :=
  ∃ before candidate after, candidates = before ++ candidate :: after ∧ candidate.kind = kind ∧
    candidate.label = some label ∧
    ∃ earlier ∈ before, earlier.kind = kind ∧ earlier.label = some label

theorem reconcile_empty_uids_nodup (hmint : Function.Injective mint)
    (candidates : List CandidateNode) :
    ((reconcile mint Store.empty candidates).1.map ReconciledNode.uid).Nodup := by
  have hpool : ∀ key, key_pool Store.empty key = [] := by
    intro key
    refine List.eq_nil_iff_forall_not_mem.mpr fun uid huid => ?_
    obtain ⟨node, hnode, -⟩ := mem_key_pool.mp huid
    exact Store.not_mem_values_empty node hnode
  rw [reconcile_uids, serve_of_empty mint 0 hpool]
  exact List.nodup_range.map fun i j hij => Nat.add_left_cancel (hmint hij)

omit [Sha256] in
theorem insert_all_error {nodes : List SourceNode} (huids : (nodes.map SourceNode.uid).Nodup)
    {error : SourceGraphError} (herror : SourceGraph.insert_all nodes = .error error) :
    ∃ before node after earlier label, nodes = before ++ node :: after ∧ earlier ∈ before ∧
      earlier.kind = node.kind ∧ earlier.label = some label ∧ node.label = some label ∧
      error = .DuplicateHumanId node.source_revision_uid node.kind label earlier.uid node.uid := by
  obtain ⟨before, node, after, graph, hnodes, hgraph, hinsert⟩ := foldlM_error herror
  have hmem := (insert_all_ok hgraph).2
  have hfresh : graph.get node.uid = none := by
    cases hget : graph.get node.uid with
    | none => rfl
    | some other =>
      rw [hnodes, List.map_append, List.nodup_append] at huids
      have hother := (hmem other).mp (Store.mem_values_of_get hget)
      exact absurd (Store.key_of_get hget)
        (huids.2.2 _ (List.mem_map_of_mem hother) _ List.mem_cons_self)
  rw [SourceGraph.insert, hfresh] at hinsert
  dsimp only at hinsert
  cases hlabel : node.label with
  | none =>
    rw [hlabel] at hinsert
    cases hinsert
  | some label =>
    rw [hlabel] at hinsert
    dsimp only at hinsert
    cases hholder : graph.label_holder node with
    | none =>
      rw [hholder] at hinsert
      cases hinsert
    | some earlier =>
      rw [hholder] at hinsert
      cases hinsert
      rw [SourceGraph.label_holder] at hholder
      have hearlier := (hmem earlier).mp (List.mem_of_find?_eq_some hholder)
      have hfound := List.find?_some hholder
      rw [Bool.and_eq_true, beq_iff_eq, beq_iff_eq, hlabel] at hfound
      exact ⟨before, node, after, earlier, label, hnodes, hearlier, hfound.1, hfound.2, hlabel, rfl⟩

/-- **Rooted candidates fail at a shared label only.** -/
theorem assemble_error (hmint : Function.Injective mint) (hrooted : Rooted media_type candidates)
    {error : SourceGraphError}
    (herror : assemble mint source_revision_uid media_type candidates = .error error) :
    ∃ kind label first_uid duplicate_uid, LabelShared candidates kind label ∧
      error = .DuplicateHumanId source_revision_uid kind label first_uid duplicate_uid := by
  have hcandidates := reconcile_candidates mint Store.empty candidates
  have huids := reconcile_empty_uids_nodup hmint candidates
  rw [assemble] at herror
  generalize (reconcile mint Store.empty candidates).1 = entries at hcandidates huids herror
  have hnodes : (entries.map (build_node source_revision_uid entries)).map SourceNode.uid =
      entries.map ReconciledNode.uid := by
    rw [List.map_map]
    rfl
  rw [← hcandidates] at hrooted
  rcases bind_error_iff.mp herror with hinsert | ⟨graph, hgraph, hvalidate⟩
  · obtain ⟨before, node, after, earlier, label, hsplit, hearlier, hkind, hlabel, hlabel', rfl⟩ :=
      insert_all_error (hnodes ▸ huids) hinsert
    refine ⟨node.kind, label, earlier.uid, node.uid, ?_, ?_⟩
    · obtain ⟨first, rest, hentries, hfirst, hrest⟩ := List.map_eq_append_iff.mp hsplit
      obtain ⟨entry, last, rfl, hentry, hlast⟩ := List.map_eq_cons_iff.mp hrest
      rw [← hfirst] at hearlier
      obtain ⟨up, hup, rfl⟩ := List.mem_map.mp hearlier
      refine ⟨first.map ReconciledNode.candidate, entry.candidate,
        last.map ReconciledNode.candidate, ?_, ?_, ?_, up.candidate, List.mem_map_of_mem hup, hkind,
        hlabel⟩
      · rw [← hcandidates, hentries, List.map_append, List.map_cons]
      · rw [← hentry]
        rfl
      · rw [← hlabel', ← hentry]
        rfl
    · have hnode : node ∈ entries.map (build_node source_revision_uid entries) := by
        rw [hsplit]
        exact List.mem_append_right _ List.mem_cons_self
      obtain ⟨entry, -, rfl⟩ := List.mem_map.mp hnode
      rfl
  · -- the graph of the nodes is a forest, so that its validation does not fail
    have hforest := forest_of_rooted hrooted huids (insert_all_ok hgraph).2
    rw [validate_graph_standalone_ok_iff.mpr hforest] at hvalidate
    cases hvalidate

end Failures

end Evidence.Corpus
