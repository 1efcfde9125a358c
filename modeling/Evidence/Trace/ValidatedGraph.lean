/-
A trace that validates, and the corpus graph of its entries.

The register phase admits every entry under a uid of its own and under an identity of
its own: its kind, its owner and its id. The link phase resolves the links of the
high-level and low-level requirements and of the tests. The graph asks for more in two
places: its kinds are coarser, requirements of every layer being of one kind, and the
links of the system requirements are edges like any other. What a validated trace has
to add for its graph to be built and to be valid is therefore about ids and about the
links of system requirements, and about nothing else.
-/
import Evidence.Trace.Registration

set_option autoImplicit false

namespace Evidence.Trace

open Corpus Sorting

/-! ## A validated trace -/

structure Validated (items : List TraceItem) : Prop where
  uids : ∀ item ∈ items, item.uid.isSome = true
  unique : (items.map TraceItem.uid).Nodup
  /-- Only the links of system requirements are not looked at. -/
  links : ∀ item ∈ items, item.kind ≠ .SYS → item.links.Nodup ∧
    ∀ link ∈ item.links, ∃ target ∈ items, target.kind ≠ .TEST ∧ target.uid = some link

section Validate

variable [UuidFormat] {policy : TracePolicy} {sys hlrs : List HlrEntry} {llrs : List LlrEntry}
  {tests : List TestEntry} {derived : List DerivedEntry}

/-- **What validation establishes**, where uids and owners are required. -/
theorem validated_of_ok (huids : policy.require_uids = true) (howners : policy.require_owners = true)
    (h : validate_trace_links_with_policy policy sys hlrs llrs tests derived = .ok ()) :
    Validated (trace_items sys hlrs llrs tests derived) := by
  obtain ⟨hregister, hlinks⟩ := validate_ok_iff.mp h
  obtain ⟨hall, hholds⟩ := Registry.register_entries_clean hregister
  have hitems := Registry.registers_all huids howners hall
  rw [hholds.uid_index] at hlinks
  generalize (trace_items sys hlrs llrs tests derived).filterMap Registry.registered = items
    at hitems hholds hlinks
  have huid : (trace_items sys hlrs llrs tests derived).map TraceItem.uid =
      items.map fun item => some item.uid :=
    List.forall₂_eq_eq_eq ▸ (List.forall₂_map_left_iff.mpr
      (List.forall₂_map_right_iff.mpr (hitems.imp fun _ _ hr => hr.uid)))
  -- a registered target is an entry of its kind
  have htarget : ∀ {link : String} {expected : EntryKind}, expected ≠ .TEST →
      ∀ {source_kind : EntryKind} {source_owner : Option String},
      (∃ item, Links items source_kind expected source_owner link item) →
      ∃ target ∈ trace_items sys hlrs llrs tests derived,
        target.kind ≠ .TEST ∧ target.uid = some link := by
    rintro link expected hexpected source_kind source_owner ⟨item, hlink⟩
    obtain ⟨target, hmem, hr⟩ := Collect.exists_of_mem_right hitems hlink.mem
    refine ⟨target, hmem, ?_, ?_⟩
    · rw [← hr.kind, hlink.kind]
      exact hexpected
    · rw [hr.uid, hlink.uid]
  refine ⟨fun item hitem => ?_, ?_, fun item hitem hkind => ?_⟩
  · obtain ⟨registered, -, hr⟩ := Collect.exists_of_mem_left hitems hitem
    rw [hr.uid]
    rfl
  · have hmap : (items.map fun item => some item.uid) = (items.map Item.uid).map some := by
      rw [List.map_map]
      rfl
    rw [huid, hmap, List.nodup_map_iff (Option.some_injective _)]
    exact hholds.uids
  · simp only [link_errors, List.append_eq_nil_iff, List.flatMap_eq_nil_iff] at hlinks
    obtain ⟨⟨⟨⟨-, hhlrs⟩, hllrs⟩, htests⟩, -⟩ := hlinks
    simp only [trace_items, List.mem_append, List.mem_map] at hitem
    rcases hitem with (((⟨entry, -, rfl⟩ | ⟨entry, hentry, rfl⟩) | ⟨entry, hentry, rfl⟩) |
      ⟨entry, hentry, rfl⟩) | ⟨entry, -, rfl⟩
    · exact absurd rfl hkind
    · have herrors := hhlrs entry hentry
      simp only [hlr_errors, List.append_eq_nil_iff] at herrors
      obtain ⟨hnodup, -, htargets⟩ := check_links_clean herrors.2
      exact ⟨hnodup, fun link hlink => htarget (by decide) (htargets link hlink)⟩
    · have herrors := hllrs entry hentry
      simp only [llr_errors, List.append_eq_nil_iff] at herrors
      obtain ⟨hnodup, -, htargets⟩ := check_links_clean herrors.2
      exact ⟨hnodup, fun link hlink => htarget (by decide) (htargets link hlink)⟩
    · obtain ⟨hnodup, -, htargets⟩ := check_links_clean (htests entry hentry)
      exact ⟨hnodup, fun link hlink => htarget (by decide) (htargets link hlink)⟩
    · exact ⟨List.nodup_nil, fun link hlink => absurd hlink List.not_mem_nil⟩

/-! ## Its graph -/

def requirement_ids (sys hlrs : List HlrEntry) (llrs : List LlrEntry)
    (derived : List DerivedEntry) : List String :=
  sys.map HlrEntry.id ++ hlrs.map HlrEntry.id ++ llrs.map LlrEntry.id ++ derived.map DerivedEntry.id

omit [UuidFormat] in
theorem node_ids_nodup_iff :
    ((trace_items sys hlrs llrs tests derived).map fun item =>
        (node_kind item.kind, item.id)).Nodup ↔
      (requirement_ids sys hlrs llrs derived).Nodup ∧ (tests.map TestEntry.id).Nodup := by
  have hperm := ((inserted_items_perm sys hlrs llrs tests derived).map
    fun item => (node_kind item.kind, item.id)).nodup_iff
  have hsplit : (inserted_items sys hlrs llrs tests derived).map
      (fun item => (node_kind item.kind, item.id)) =
        (requirement_ids sys hlrs llrs derived).map (NodeKind.Requirement, ·) ++
          (tests.map TestEntry.id).map (NodeKind.Test, ·) := by
    simp only [inserted_items, requirement_ids, List.map_append, List.map_map]
    rfl
  have hpair : ∀ (kind : NodeKind) (ids : List String),
      (ids.map (kind, ·)).Nodup ↔ ids.Nodup := fun kind ids =>
    List.nodup_map_iff fun _ _ heq => (Prod.mk.inj heq).2
  rw [← hperm, hsplit, List.nodup_append, hpair, hpair]
  refine ⟨fun h => ⟨h.1, h.2.1⟩, fun h => ⟨h.1, h.2, ?_⟩⟩
  intro a ha b hb
  obtain ⟨-, -, rfl⟩ := List.mem_map.mp ha
  obtain ⟨-, -, rfl⟩ := List.mem_map.mp hb
  simp

/-- **The graph of a validated trace** can be built and is valid exactly when the requirements of
all layers have distinct ids, so do the tests, and the links of the system requirements, which
validation does not look at, are distinct and resolve to requirements. -/
theorem validated_graph_iff [Sha256] [F64Display] (huids : policy.require_uids = true)
    (howners : policy.require_owners = true)
    (h : validate_trace_links_with_policy policy sys hlrs llrs tests derived = .ok ()) :
    (∃ graph, graph_from_trace_parts sys hlrs llrs tests derived = .ok graph ∧
        graph.validate = .ok ()) ↔
      (requirement_ids sys hlrs llrs derived).Nodup ∧ (tests.map TestEntry.id).Nodup ∧
        ∀ entry ∈ sys, entry.traces_to.Nodup ∧ ∀ link ∈ entry.traces_to,
          ∃ target ∈ trace_items sys hlrs llrs tests derived,
            target.kind ≠ .TEST ∧ target.uid = some link := by
  have hvalidated := validated_of_ok huids howners h
  have hsys : ∀ {entry : HlrEntry}, entry ∈ sys →
      TraceItem.Sys entry ∈ trace_items sys hlrs llrs tests derived := by
    intro entry hentry
    simp only [trace_items, List.mem_append]
    exact .inl (.inl (.inl (.inl (List.mem_map_of_mem hentry))))
  rw [valid_graph_iff]
  constructor
  · rintro ⟨hgraphable, hlinks⟩
    obtain ⟨hrequirements, htests⟩ := node_ids_nodup_iff.mp hgraphable.ids
    refine ⟨hrequirements, htests, fun entry hentry => ?_⟩
    exact ⟨hgraphable.links _ (hsys hentry), hlinks _ (hsys hentry)⟩
  · rintro ⟨hrequirements, htests, hentries⟩
    -- the links of every other entry were validated
    have hall : ∀ item ∈ trace_items sys hlrs llrs tests derived, item.links.Nodup ∧
        ∀ link ∈ item.links, ∃ target ∈ trace_items sys hlrs llrs tests derived,
          target.kind ≠ .TEST ∧ target.uid = some link := by
      intro item hitem
      by_cases hkind : item.kind = .SYS
      · simp only [trace_items, List.mem_append, List.mem_map] at hitem
        rcases hitem with (((⟨entry, hentry, rfl⟩ | ⟨entry, -, rfl⟩) | ⟨entry, -, rfl⟩) |
          ⟨entry, -, rfl⟩) | ⟨entry, -, rfl⟩
        · exact hentries entry hentry
        all_goals cases hkind
      · exact hvalidated.links item hitem hkind
    exact ⟨⟨hvalidated.uids, hvalidated.unique, node_ids_nodup_iff.mpr ⟨hrequirements, htests⟩,
      fun item hitem => (hall item hitem).1⟩, fun item hitem => (hall item hitem).2⟩

end Validate

/-! ## Two requirements of one id -/

/-- `Uuid::parse_str` on texts of the hyphenated form. -/
@[reducible] def hyphenated : UuidFormat where
  parse_str_ok := fun text => text.length == 36

def strict_policy : TracePolicy :=
  { TracePolicy.default with require_uids := true, require_owners := true }

def HLR_UID : String := "0b5f5a1e-6f0c-4c59-9d5e-0a1f0f3f6a01"

def LLR_UID : String := "0b5f5a1e-6f0c-4c59-9d5e-0a1f0f3f6a02"

def small_hlr (id : String) : HlrEntry where
  uid := some HLR_UID
  ns := none
  id := id
  title := "a requirement"
  owner := some "soi"
  scope := none
  sort_key := none
  category := none
  source := none
  description := none
  rationale := none
  verification_methods := []
  traces_to := []
  surfaces := []

def small_llr (id : String) : LlrEntry where
  uid := some LLR_UID
  ns := none
  id := id
  title := "its refinement"
  owner := some "soi"
  sort_key := none
  traces_to := [HLR_UID]
  source := none
  modules := []
  description := none
  verification_methods := []
  emits := []

/-- The condition at a trace of two requirements with different ids. -/
theorem validated_graph_iff_distinct :
    (∃ graph, graph_from_trace_parts [] [small_hlr "HLR-1"] [small_llr "LLR-1"] [] [] =
        .ok graph ∧ @CorpusGraph.validate fips180 F64.exact_display graph = .ok ()) ↔
      (requirement_ids [] [small_hlr "HLR-1"] [small_llr "LLR-1"] []).Nodup ∧
        (([] : List TestEntry).map TestEntry.id).Nodup ∧
        ∀ entry ∈ ([] : List HlrEntry), entry.traces_to.Nodup ∧ ∀ link ∈ entry.traces_to,
          ∃ target ∈ trace_items [] [small_hlr "HLR-1"] [small_llr "LLR-1"] [] [],
            target.kind ≠ .TEST ∧ target.uid = some link :=
  @validated_graph_iff hyphenated strict_policy [] [small_hlr "HLR-1"] [small_llr "LLR-1"] [] []
    fips180 F64.exact_display rfl rfl (by decide +kernel)

/-- **A high-level and a low-level requirement may share an id**: the trace validates, and has
no graph. -/
theorem validated_graph_refused :
    @validate_trace_links_with_policy hyphenated strict_policy [] [small_hlr "REQ-1"]
        [small_llr "REQ-1"] [] [] = .ok () ∧
      ¬ ∃ graph, graph_from_trace_parts [] [small_hlr "REQ-1"] [small_llr "REQ-1"] [] [] =
        .ok graph := by
  refine ⟨by decide +kernel, ?_⟩
  rintro ⟨graph, hgraph⟩
  obtain ⟨nodes, hadapt, hnodes, -⟩ := graph_from_trace_parts_ok_iff.mp hgraph
  have hitems := (insertable_iff (hadapt.imp fun _ _ => represents_of_adapt)).mp hnodes
  exact absurd hitems.ids (by decide +kernel)

end Evidence.Trace
