/-
The node comparison accounts for every node exactly once.

The stages put every candidate and every committed node in one of three places. `Partition` says
this of one side: together the places hold every node of the graph, and none twice. That each
place has findings of its own, and which, is read off the categories: the comparison of a
pair never reports a node as added, removed or unreconciled.
-/
import Evidence.Corpus.Drift.Accounting

set_option autoImplicit false

namespace Evidence.Corpus

/-! ## Places -/

/-- The three lists of uids hold every node of a graph, and no node twice. -/
structure Partition (graph : SourceGraph) (unreconciled paired left_over : List String) : Prop where
  distinct : (unreconciled ++ paired ++ left_over).Nodup
  complete : ∀ uid, uid ∈ unreconciled ++ paired ++ left_over ↔ (graph.get uid).isSome = true

theorem Partition.of_perm {graph : SourceGraph} {unreconciled paired left_over : List String}
    (h : (unreconciled ++ paired ++ left_over).Perm (graph.values.map SourceNode.uid)) :
    Partition graph unreconciled paired left_over := by
  refine ⟨h.nodup_iff.mpr graph.values_keys_nodup, fun uid => ?_⟩
  rw [h.mem_iff, List.mem_map, Option.isSome_iff_exists]
  constructor
  · rintro ⟨node, hnode, rfl⟩
    exact ⟨node, Store.mem_values.mp hnode⟩
  · rintro ⟨node, hget⟩
    exact ⟨node, Store.mem_values_of_get hget, get_uid uid node hget⟩

/-! ## Findings -/

/-- The categories of a node that has no partner, or several. -/
def unpaired_categories : List DriftCategory := [.NodeUnreconciled, .NodeAdded, .NodeRemoved]

section Findings

variable [F64Display]

omit [F64Display] in
theorem push_change_category {differs : Bool} {category : DriftCategory}
    {field committed candidate : String} (hcategory : category ∉ unpaired_categories)
    {entry : DriftCategory × DriftDetail}
    (h : entry ∈ push_change differs category field committed candidate) :
    entry.1 ∉ unpaired_categories := by
  rw [push_change] at h
  split at h
  · rw [List.mem_singleton.mp h]
    exact hcategory
  · cases h

theorem compare_locators_category {committed candidate : SourceNode}
    {entry : DriftCategory × DriftDetail} (h : entry ∈ compare_locators committed candidate) :
    entry.1 ∉ unpaired_categories := by
  have hsemantic : DriftCategory.NodeSemanticLocatorChanged ∉ unpaired_categories := by decide
  have hdiagnostic : DriftCategory.DiagnosticLocatorMoved ∉ unpaired_categories := by decide
  rw [compare_locators] at h
  generalize locator_changes committed.locator candidate.locator = changes at h
  split at h
  · rw [List.mem_singleton.mp h]
    exact hsemantic
  · obtain hchange | hmoved := List.mem_append.mp h
    · obtain ⟨change, -, rfl⟩ := List.mem_map.mp hchange
      exact hsemantic
    · split at hmoved
      · cases hmoved
      · rw [List.mem_singleton.mp hmoved]
        exact hdiagnostic

/-- **The comparison of a pair reports changes only.** -/
theorem compare_matched_category {graph : SourceGraph} {uids : UidMap}
    {pair : SourceNode × SourceNode} {finding : DriftFinding}
    (h : finding ∈ compare_matched graph uids pair) : finding.category ∉ unpaired_categories := by
  obtain ⟨entry, hentry, rfl⟩ := List.mem_map.mp h
  simp only [matched_changes, List.mem_append] at hentry
  obtain ((((((hkind | hparent) | hordinal) | hlabel) | htext) | hdigest) | hfinger) | hlocator :=
    hentry
  · exact push_change_category (by decide) hkind
  · exact push_change_category (by decide) hparent
  · exact push_change_category (by decide) hordinal
  · exact push_change_category (by decide) hlabel
  · exact push_change_category (by decide) htext
  · exact push_change_category (by decide) hdigest
  · exact push_change_category (by decide) hfinger
  · exact compare_locators_category hlocator

variable [Sha256]

/-- **Each place has its findings**: of a category that only they have, one for each node there. -/
theorem compare_nodes_findings (mint : ℕ → String) (committed candidate : SourceGraph) :
    (compare_nodes mint committed candidate).filter (fun finding =>
        finding.category = .NodeUnreconciled) =
      (pair_nodes mint committed candidate).unreconciled.map (unreconciled_finding committed) ∧
    (compare_nodes mint committed candidate).filter (fun finding =>
        finding.category = .NodeAdded) =
      (pair_nodes mint committed candidate).leftover_candidates.map
        (leftover_finding candidate .NodeAdded .CandidateOnly) ∧
    (compare_nodes mint committed candidate).filter (fun finding =>
        finding.category = .NodeRemoved) =
      (pair_nodes mint committed candidate).leftover_committed.map
        (leftover_finding committed .NodeRemoved .CommittedOnly) ∧
    (compare_nodes mint committed candidate).filter (fun finding =>
        finding.category ∉ unpaired_categories) =
      (pair_nodes mint committed candidate).pairs.flatMap
        (compare_matched committed (pair_nodes mint committed candidate).reconciled_uid) := by
  -- a block of findings is kept whole or dropped whole
  have hkeep : ∀ (p : DriftFinding → Bool) (l : List DriftFinding), (∀ f ∈ l, p f = true) →
      l.filter p = l := fun p l h => List.filter_eq_self.mpr h
  have hdrop : ∀ (p : DriftFinding → Bool) (l : List DriftFinding), (∀ f ∈ l, p f = false) →
      l.filter p = [] := fun p l h => List.filter_eq_nil_iff.mpr fun f hf => by simp [h f hf]
  have hunreconciled : ∀ f ∈ (pair_nodes mint committed candidate).unreconciled.map
      (unreconciled_finding committed), f.category = .NodeUnreconciled := by
    intro f hf
    obtain ⟨pair, -, rfl⟩ := List.mem_map.mp hf
    rfl
  have hadded : ∀ f ∈ (pair_nodes mint committed candidate).leftover_candidates.map
      (leftover_finding candidate .NodeAdded .CandidateOnly), f.category = .NodeAdded := by
    intro f hf
    obtain ⟨uid, -, rfl⟩ := List.mem_map.mp hf
    rfl
  have hremoved : ∀ f ∈ (pair_nodes mint committed candidate).leftover_committed.map
      (leftover_finding committed .NodeRemoved .CommittedOnly), f.category = .NodeRemoved := by
    intro f hf
    obtain ⟨uid, -, rfl⟩ := List.mem_map.mp hf
    rfl
  have hpairs : ∀ f ∈ (pair_nodes mint committed candidate).pairs.flatMap
      (compare_matched committed (pair_nodes mint committed candidate).reconciled_uid),
      f.category ∉ unpaired_categories := by
    intro f hf
    obtain ⟨pair, -, hf⟩ := List.mem_flatMap.mp hf
    exact compare_matched_category hf
  have hchange : ∀ f : DriftFinding, f.category ∉ unpaired_categories →
      f.category ≠ .NodeUnreconciled ∧ f.category ≠ .NodeAdded ∧ f.category ≠ .NodeRemoved := by
    intro f hf
    simpa [unpaired_categories] using hf
  simp only [compare_nodes, List.filter_append]
  refine ⟨?_, ?_, ?_, ?_⟩
  · rw [hkeep _ _ fun f hf => by simp [hunreconciled f hf],
      hdrop _ _ fun f hf => by simp [(hchange f (hpairs f hf)).1],
      hdrop _ _ fun f hf => by simp [hadded f hf], hdrop _ _ fun f hf => by simp [hremoved f hf]]
    simp only [List.append_nil]
  · rw [hdrop _ _ fun f hf => by simp [hunreconciled f hf],
      hdrop _ _ fun f hf => by simp [(hchange f (hpairs f hf)).2.1],
      hkeep _ _ fun f hf => by simp [hadded f hf], hdrop _ _ fun f hf => by simp [hremoved f hf]]
    simp only [List.append_nil, List.nil_append]
  · rw [hdrop _ _ fun f hf => by simp [hunreconciled f hf],
      hdrop _ _ fun f hf => by simp [(hchange f (hpairs f hf)).2.2],
      hdrop _ _ fun f hf => by simp [hadded f hf], hkeep _ _ fun f hf => by simp [hremoved f hf]]
    simp only [List.append_nil, List.nil_append]
  · rw [hdrop _ _ fun f hf => by simp [hunreconciled f hf, unpaired_categories],
      hkeep _ _ fun f hf => by simp [hpairs f hf],
      hdrop _ _ fun f hf => by simp [hadded f hf, unpaired_categories],
      hdrop _ _ fun f hf => by simp [hremoved f hf, unpaired_categories]]
    simp only [List.append_nil, List.nil_append]

end Findings

/-! ## The partition -/

section Placement

variable [Sha256] [F64Display]

/-- **The node comparison accounts for every node exactly once.** Every candidate is
unreconciled, paired with one committed node, or added; every committed node is unreconciled,
paired with one candidate, or removed; the pairing is one to one; and the findings are those of
the places. No minted uid is a committed one. -/
theorem compare_nodes_partitions {mint : ℕ → String} {committed : SourceGraph}
    (candidate : SourceGraph) (hmint : ∀ i, committed.get (mint i) = none) :
    let placed := pair_nodes mint committed candidate
    let findings := compare_nodes mint committed candidate
    Partition candidate (placed.unreconciled.map fun pair => pair.2.uid)
      (placed.pairs.map fun pair => pair.2.uid) placed.leftover_candidates ∧
    Partition committed (placed.unreconciled.map fun pair => pair.1.uid)
      (placed.pairs.map fun pair => pair.1.uid) placed.leftover_committed ∧
    (∀ pair ∈ placed.pairs, ∀ other ∈ placed.pairs, pair.1 = other.1 ↔ pair.2 = other.2) ∧
    (findings.filter fun finding => finding.category = .NodeUnreconciled) =
      placed.unreconciled.map (unreconciled_finding committed) ∧
    (findings.filter fun finding => finding.category = .NodeAdded) =
      placed.leftover_candidates.map (leftover_finding candidate .NodeAdded .CandidateOnly) ∧
    (findings.filter fun finding => finding.category = .NodeRemoved) =
      placed.leftover_committed.map (leftover_finding committed .NodeRemoved .CommittedOnly) ∧
    (findings.filter fun finding => finding.category ∉ unpaired_categories) =
      placed.pairs.flatMap (compare_matched committed placed.reconciled_uid) := by
  have hcandidates := Partition.of_perm (candidates_accounted mint committed candidate)
  have hcommitted := Partition.of_perm (committed_accounted mint committed candidate hmint)
  refine ⟨hcandidates, hcommitted, ?_, compare_nodes_findings mint committed candidate⟩
  intro pair hpair other hother
  have hright : ((pair_nodes mint committed candidate).pairs.map fun pair => pair.2.uid).Nodup :=
    (List.nodup_append'.mp (List.nodup_append'.mp hcandidates.distinct).1).2.1
  have hleft : ((pair_nodes mint committed candidate).pairs.map fun pair => pair.1.uid).Nodup :=
    (List.nodup_append'.mp (List.nodup_append'.mp hcommitted.distinct).1).2.1
  constructor
  · intro heq
    rw [List.inj_on_of_nodup_map hleft hpair hother (congrArg SourceNode.uid heq)]
  · intro heq
    rw [List.inj_on_of_nodup_map hright hpair hother (congrArg SourceNode.uid heq)]

end Placement

/-! ## Two unlabeled roots -/

section Witness

attribute [local instance] fips180 F64.exact_display

/-- The two paragraphs are placed once each, against themselves. -/
theorem compare_nodes_partitions_two_paragraphs :
    Partition two_paragraphs
      ((pair_nodes (fun _ => "") two_paragraphs two_paragraphs).unreconciled.map
        fun pair => pair.2.uid)
      ((pair_nodes (fun _ => "") two_paragraphs two_paragraphs).pairs.map fun pair => pair.2.uid)
      (pair_nodes (fun _ => "") two_paragraphs two_paragraphs).leftover_candidates :=
  (compare_nodes_partitions two_paragraphs fun _ => by decide +kernel).1

end Witness

end Evidence.Corpus
