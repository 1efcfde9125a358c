/-
What a node comparison without findings says.

Nothing is unreconciled, added or removed, so every node of either graph is in a
pair, and no pair has a changed field. Parents are compared as rendered uids; a
paired candidate renders under its committed uid, so equal texts are corresponding
parents. Together the pairs are a bijection of equal nodes, which is what makes the
absence of findings an equality (`compare_nodes_silent`).
-/
import Evidence.Corpus.Drift.Accounting

set_option autoImplicit false

namespace Evidence.Corpus

open Climb Pairing Queues Sorting

/-! ## One pair -/

section Pairs

variable [F64Display]

/-- A pair is compared without findings exactly when no field differs. -/
theorem compare_matched_eq_nil_iff {committed_graph : SourceGraph} {reconciled_uid : UidMap}
    {pair : SourceNode × SourceNode} :
    compare_matched committed_graph reconciled_uid pair = [] ↔
      pair.1.kind = pair.2.kind ∧
        (rendered_parents committed_graph reconciled_uid pair.1 pair.2).1 =
          (rendered_parents committed_graph reconciled_uid pair.1 pair.2).2 ∧
        pair.1.ordinal = pair.2.ordinal ∧ pair.1.label = pair.2.label ∧
        pair.1.canonical_text = pair.2.canonical_text ∧
        pair.1.content_sha256 = pair.2.content_sha256 ∧
        pair.1.fingerprint = pair.2.fingerprint ∧ pair.1.locator.Agrees pair.2.locator := by
  simp only [compare_matched, matched_changes, List.map_eq_nil_iff, List.append_eq_nil_iff,
    push_change_eq_nil_iff, compare_locators_eq_nil_iff, decide_eq_false_iff_not, ne_eq, not_not,
    and_assoc]

structure SameFields (committed candidate : SourceNode) : Prop where
  kind : committed.kind = candidate.kind
  ordinal : committed.ordinal = candidate.ordinal
  label : committed.label = candidate.label
  canonical_text : committed.canonical_text = candidate.canonical_text
  content_sha256 : committed.content_sha256 = candidate.content_sha256
  fingerprint : committed.fingerprint = candidate.fingerprint
  locator : committed.locator.Agrees candidate.locator

omit [F64Display] in
theorem rendered_parents_eq_iff {committed_graph : SourceGraph} {reconciled_uid : UidMap}
    {committed candidate : SourceNode} {f : String → String}
    (hcommitted : committed.parent_uid ≠ some "<root>")
    (hroot : ∀ uid, committed_graph.get uid ≠ none → uid ≠ "<root>")
    (hparent : ∀ parent, candidate.parent_uid = some parent →
      reconciled_uid.get parent = some (parent, f parent) ∧ committed_graph.get (f parent) ≠ none) :
    (rendered_parents committed_graph reconciled_uid committed candidate).1 =
      (rendered_parents committed_graph reconciled_uid committed candidate).2 ↔
      committed.parent_uid = candidate.parent_uid.map f := by
  cases hcand : candidate.parent_uid with
  | none =>
    simp only [rendered_parents, hcand, Option.map_none]
    cases hown : committed.parent_uid with
    | none => exact ⟨fun _ => rfl, fun _ => rfl⟩
    | some parent =>
      refine ⟨fun heq => absurd (hown.trans (congrArg some heq)) hcommitted, fun heq => ?_⟩
      cases heq
  | some parent =>
    obtain ⟨hget, hsome⟩ := hparent parent hcand
    simp only [rendered_parents, hcand, hget, Option.map_some, Option.isSome_iff_ne_none.mpr hsome,
      if_true]
    cases hown : committed.parent_uid with
    | none =>
      refine ⟨fun heq => absurd heq.symm (hroot _ hsome), fun heq => ?_⟩
      cases heq
    | some q => exact ⟨congrArg some, Option.some.inj⟩

end Pairs

/-! ## All pairs -/

/-- **No silent node drift.** Two valid graphs of one revision whose comparison finds
nothing are the same up to the names of the candidate's nodes. -/
theorem compare_nodes_silent [Sha256] [F64Display] {mint : ℕ → String} {revision_uid media_type : String}
    {committed candidate : SourceGraph}
    (hcommitted : validate_graph_standalone revision_uid media_type committed = .ok ())
    (hcandidate : validate_graph_standalone revision_uid media_type candidate = .ok ())
    (hroot : ∀ node ∈ committed.values, node.uid ≠ "<root>")
    (hmint : ∀ i, committed.get (mint i) = none)
    (hsilent : compare_nodes mint committed candidate = []) :
    ∃ f : String → String,
      Set.BijOn f { uid | uid ∈ candidate.values.map SourceNode.uid }
        { uid | uid ∈ committed.values.map SourceNode.uid } ∧
      ∀ node ∈ candidate.values, ∃ counterpart ∈ committed.values,
        counterpart.uid = f node.uid ∧ SameFields counterpart node ∧
          counterpart.parent_uid = node.parent_uid.map f := by
  have hforest := validate_graph_standalone_ok_iff.mp hcommitted
  have hforest' := validate_graph_standalone_ok_iff.mp hcandidate
  -- nothing is unreconciled, added or removed, and every pair is compared without findings
  simp only [compare_nodes, List.append_eq_nil_iff, List.map_eq_nil_iff,
    List.flatMap_eq_nil_iff] at hsilent
  obtain ⟨⟨⟨hunreconciled, hpairs⟩, hadded⟩, hremoved⟩ := hsilent
  have hcandidates := candidates_accounted mint committed candidate
  have hcommitteds := committed_accounted mint committed candidate hmint
  rw [hunreconciled, hadded, List.map_nil, List.nil_append, List.append_nil] at hcandidates
  rw [hunreconciled, hremoved, List.map_nil, List.nil_append, List.append_nil] at hcommitteds
  set pairing := pair_nodes mint committed candidate with hpairing
  let f := fun uid => ((pairing.reconciled_uid.get uid).map Prod.snd).getD ""
  have hf : ∀ pair ∈ pairing.pairs, f pair.2.uid = pair.1.uid := by
    intro pair hpair
    simp only [f, hpairing, reconciled_uid_get mint committed candidate hpair, Option.map_some,
      Option.getD_some]
  refine ⟨f, ?_, ?_⟩
  · have hfst : (pairing.pairs.map fun pair => (pair.1.uid, pair.2.uid)).map Prod.fst =
        pairing.pairs.map fun pair => pair.1.uid := List.map_map
    have hsnd : (pairing.pairs.map fun pair => (pair.1.uid, pair.2.uid)).map Prod.snd =
        pairing.pairs.map fun pair => pair.2.uid := List.map_map
    have hnodup := hcommitteds.nodup_iff.mpr committed.values_keys_nodup
    have hfuids : ∀ uids ∈ pairing.pairs.map (fun pair => (pair.1.uid, pair.2.uid)),
        f uids.2 = uids.1 := by
      intro uids huids
      obtain ⟨pair, hpair, rfl⟩ := List.mem_map.mp huids
      exact hf pair hpair
    have hbij := bijOn_of_pairs (hfst ▸ hnodup) hfuids
    rw [hfst, hsnd] at hbij
    simpa only [hcandidates.mem_iff, hcommitteds.mem_iff] using hbij
  · intro node hnode
    obtain ⟨pair, hpair, huid⟩ :=
      List.mem_map.mp (hcandidates.mem_iff.mpr (List.mem_map_of_mem hnode))
    obtain ⟨hleft, hright⟩ := pairs_mem mint committed candidate hpair
    obtain rfl : pair.2 = node := Store.eq_of_mem_values hright hnode huid
    obtain ⟨hkind, hparents, hordinal, hlabel, htext, hcontent, hfinger, hlocator⟩ :=
      compare_matched_eq_nil_iff.mp (hpairs pair hpair)
    refine ⟨pair.1, hleft, (hf pair hpair).symm,
      ⟨hkind, hordinal, hlabel, htext, hcontent, hfinger, hlocator⟩, ?_⟩
    refine (rendered_parents_eq_iff ?_ ?_ ?_).mp hparents
    · intro hown
      obtain ⟨parent, hget⟩ := hforest.parent_get hleft hown
      exact hroot parent (Store.mem_values_of_get hget) (Store.key_of_get hget)
    · intro uid hsome heq
      obtain ⟨m, hget⟩ := Option.ne_none_iff_exists'.mp hsome
      exact hroot m (Store.mem_values_of_get hget) ((Store.key_of_get hget).trans heq)
    · intro parent hparent
      -- the candidate's parent is a candidate, and so in a pair of its own
      obtain ⟨other, hget⟩ := hforest'.parent_get hright hparent
      obtain ⟨above, habove, huid'⟩ := List.mem_map.mp (hcandidates.mem_iff.mpr
        (List.mem_map_of_mem (Store.mem_values_of_get hget)))
      obtain rfl : above.2.uid = parent := huid'.trans (Store.key_of_get hget)
      rw [hf above habove, Store.mem_values.mp (pairs_mem mint committed candidate habove).1]
      exact ⟨reconciled_uid_get mint committed candidate habove, Option.some_ne_none _⟩

/-! ## One paragraph under two names -/

section Witness

attribute [local instance] fips180 F64.exact_display

/-- One root paragraph. -/
def one_named_paragraph (uid : String) : SourceGraph :=
  Store.empty.put (committed_root uid "src_00000000-0000-4000-8000-000000000001" .Paragraph 0 none
    "Text.")

private theorem one_named_paragraph_valid (uid : String) :
    validate_graph_standalone "src_00000000-0000-4000-8000-000000000001" "text/html"
      (one_named_paragraph uid) = .ok () := by
  refine validate_graph_standalone_ok_iff.mpr (forest_of_committed_roots ?_ ?_)
  · intro node hnode
    exact ⟨_, _, _, _, _, _, Store.mem_values_singleton.mp hnode⟩
  · rw [one_named_paragraph, Store.values_singleton]
    exact List.Perm.refl [0]

/-- A re-ingestion that names the paragraph anew is silent, and corresponds. -/
theorem compare_nodes_silent_one_paragraph :
    ∃ f : String → String,
      Set.BijOn f { uid | uid ∈ (one_named_paragraph "snode_b").values.map SourceNode.uid }
        { uid | uid ∈ (one_named_paragraph "snode_a").values.map SourceNode.uid } ∧
      ∀ node ∈ (one_named_paragraph "snode_b").values,
        ∃ counterpart ∈ (one_named_paragraph "snode_a").values,
          counterpart.uid = f node.uid ∧ SameFields counterpart node ∧
            counterpart.parent_uid = node.parent_uid.map f :=
  have hfresh : ∀ i : ℕ, (one_named_paragraph "snode_a").get ((fun _ => "snode_c") i) = none :=
    fun _ => (by decide +kernel : (one_named_paragraph "snode_a").get "snode_c" = none)
  compare_nodes_silent (one_named_paragraph_valid _) (one_named_paragraph_valid _)
    (fun node hnode => by rw [Store.mem_values_singleton.mp hnode]; decide +kernel)
    hfresh (by decide +kernel)

end Witness

end Evidence.Corpus
