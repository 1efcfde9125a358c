/-
The validation of a trace does not depend on the order of its entries.

The register phase takes the entries one after another, and the first under a uid or an
identity is the one that stays; without an error each is the only one, so that the phase
is clean exactly when every entry is admitted and no uid and no identity is shared
(`register_entries_clean_iff`). The link phase looks uids up among the registered, which
are then the same in every order, and the graph that the surface check asks for is
the same graph. So a trace is accepted in every order of its entries or in none
(`validate_perm`).
-/
import Evidence.Trace.Registration

set_option autoImplicit false

namespace Evidence.Trace

open Corpus Sorting

/-! ## The register phase -/

namespace Registry

section Register

variable [UuidFormat] {policy : TracePolicy}

structure Accepted (policy : TracePolicy) (entry : TraceItem) : Prop extends
    Admitted policy entry where
  format : policy.require_uids = true → entry.owner ≠ none → ∀ uid, entry.uid = some uid →
    parse_str_ok uid = true

omit [UuidFormat] in
theorem insert_new {r : Registry} {items : List Item} (hitems : r.Holds items) {item : Item} :
    ((r.insert_uid item).insert_item item).register_errors = [] ↔
      item.uid ∉ items.map Item.uid ∧ key item ∉ items.map key := by
  constructor
  · intro h
    obtain ⟨hclean, hkey, -⟩ := insert_item_clean h
    obtain ⟨-, hnew, hinsert⟩ := insert_uid_clean hclean
    rw [hinsert, hitems.item_index] at hkey
    rw [hitems.uid_index] at hnew
    exact ⟨hnew, hkey⟩
  · rintro ⟨hnew, hkey⟩
    have huid : r.uid_index.find? (·.uid == item.uid) = none := by
      rw [List.find?_eq_none, hitems.uid_index]
      intro prev hprev heq
      exact hnew (List.mem_map.mpr ⟨prev, hprev, beq_iff_eq.mp heq⟩)
    have hitem : r.item_index.find? (fun prev =>
        prev.kind == item.kind && prev.owner == item.owner && prev.id == item.id) = none := by
      rw [List.find?_eq_none, hitems.item_index]
      intro prev hprev heq
      simp only [Bool.and_eq_true, beq_iff_eq] at heq
      refine hkey (List.mem_map.mpr ⟨prev, hprev, ?_⟩)
      rw [key, key, heq.1.1, heq.1.2, heq.2]
    unfold insert_uid
    rw [huid]
    unfold insert_item
    simp only [hitem]
    exact hitems.clean

/-- **One entry** is registered without an error exactly when it is accepted and new. -/
theorem register_clean_iff {r : Registry} {items : List Item} (hitems : r.Holds items)
    {entry : TraceItem} :
    (register policy r entry).register_errors = [] ↔
      Accepted policy entry ∧ ∀ item, registered entry = some item →
        item.uid ∉ items.map Item.uid ∧ key item ∉ items.map key := by
  constructor
  · intro h
    obtain ⟨-, hadmitted, -⟩ := register_clean h
    unfold register at h
    refine ⟨⟨hadmitted, ?_⟩, ?_⟩
    · intro huids _ uid huid
      obtain ⟨owner, howner⟩ := Option.ne_none_iff_exists'.mp ‹entry.owner ≠ none›
      simp only [howner, huid, huids, Bool.true_and] at h
      split_ifs at h with hformat
      · exact absurd h (push_error_ne _ _)
      · simpa using hformat
    · intro item hitem
      have hregisters := registered_eq_some_iff.mp hitem
      simp only [hregisters.owner, hregisters.uid] at h
      split_ifs at h with hformat
      · exact absurd h (push_error_ne _ _)
      · rw [← hregisters.kind, ← hregisters.id] at h
        exact (insert_new hitems).mp h
  · rintro ⟨⟨hadmitted, hformat⟩, hnew⟩
    unfold register
    cases howner : entry.owner with
    | none =>
      have hpolicy : ¬ policy.require_owners = true := fun h => hadmitted.owner h howner
      simp only [if_neg hpolicy]
      exact hitems.clean
    | some owner =>
      have howned : entry.owner ≠ none := by
        rw [howner]
        exact Option.some_ne_none owner
      cases huid : entry.uid with
      | none =>
        have hpolicy : ¬ policy.require_uids = true := fun h => hadmitted.uid h howned huid
        simp only [if_neg hpolicy]
        exact hitems.clean
      | some uid =>
        have hwell : ¬ (policy.require_uids && !parse_str_ok uid) = true := by
          rw [Bool.and_eq_true, not_and, Bool.not_eq_true', Bool.not_eq_false]
          exact fun h => hformat h howned uid huid
        simp only [if_neg hwell]
        exact (insert_new hitems).mpr
          (hnew ⟨uid, entry.kind, owner, entry.id⟩ (by rw [registered, howner, huid]))

/-- **The register phase is clean exactly when** every entry is accepted, and the registered
share no uid and no identity. -/
theorem register_entries_clean_iff {entries : List TraceItem} :
    (register_entries policy entries).register_errors = [] ↔
      (∀ entry ∈ entries, Accepted policy entry) ∧
        ((entries.filterMap registered).map Item.uid).Nodup ∧
        ((entries.filterMap registered).map key).Nodup := by
  induction entries using List.reverseRecOn with
  | nil => simp [register_entries, Registry.new]
  | append_singleton entries entry ih =>
    have hbefore : (register_entries policy (entries ++ [entry])).register_errors = [] →
        (register_entries policy entries).register_errors = [] := by
      intro h
      rw [register_entries, List.foldl_append] at h
      exact (register_clean h).1
    have hstep : (register_entries policy entries).register_errors = [] →
        ((register_entries policy (entries ++ [entry])).register_errors = [] ↔
          Accepted policy entry ∧ ∀ item, registered entry = some item →
            item.uid ∉ (entries.filterMap registered).map Item.uid ∧
              key item ∉ (entries.filterMap registered).map key) := by
      intro h
      rw [register_entries, List.foldl_append]
      exact register_clean_iff (register_entries_clean h).2
    have hnodup : ∀ {κ : Type} (f : Item → κ),
        (((entries ++ [entry]).filterMap registered).map f).Nodup ↔
          ((entries.filterMap registered).map f).Nodup ∧ ∀ item, registered entry = some item →
            f item ∉ (entries.filterMap registered).map f := by
      intro κ f
      rw [List.filterMap_append, Lists.filterMap_singleton, List.map_append]
      cases registered entry with
      | none => simp
      | some item => simp [Lists.nodup_snoc]
    rw [hnodup, hnodup]
    constructor
    · intro h
      obtain ⟨haccepted, huids, hkeys⟩ := ih.mp (hbefore h)
      obtain ⟨hentry, hnew⟩ := (hstep (hbefore h)).mp h
      refine ⟨?_, ⟨huids, fun item hitem => (hnew item hitem).1⟩, hkeys,
        fun item hitem => (hnew item hitem).2⟩
      intro other hother
      rcases List.mem_append.mp hother with hother | hother
      · exact haccepted other hother
      · rwa [List.mem_singleton.mp hother]
    · rintro ⟨haccepted, ⟨huids, hnewuid⟩, hkeys, hnewkey⟩
      have hclean := ih.mpr
        ⟨fun other hother => haccepted other (List.mem_append_left _ hother), huids, hkeys⟩
      refine (hstep hclean).mpr ⟨?_, fun item hitem => ⟨hnewuid item hitem, hnewkey item hitem⟩⟩
      exact haccepted entry (List.mem_append_right _ (List.mem_singleton_self entry))

/-- The register phase is clean in every order of the entries or in none. -/
theorem register_entries_perm {entries entries' : List TraceItem} (h : entries.Perm entries') :
    (register_entries policy entries).register_errors = [] ↔
      (register_entries policy entries').register_errors = [] := by
  rw [register_entries_clean_iff, register_entries_clean_iff]
  refine and_congr ?_ (and_congr ?_ ?_)
  · exact forall_congr' fun entry => by rw [h.mem_iff]
  · exact ((h.filterMap registered).map Item.uid).nodup_iff
  · exact ((h.filterMap registered).map key).nodup_iff

end Register

end Registry

/-! ## The link phase -/

section Links

variable [UuidFormat] {policy : TracePolicy}

omit [UuidFormat] in
/-- Items without a shared uid are found in every order. -/
theorem find_item_perm {items items' : List Item} (h : items.Perm items')
    (huids : (items.map Item.uid).Nodup) (link : String) :
    items.find? (·.uid == link) = items'.find? (·.uid == link) := by
  refine Option.ext fun item => ?_
  rw [Lists.find?_eq_some_iff_of_nodup huids,
    Lists.find?_eq_some_iff_of_nodup ((h.map _).nodup_iff.mp huids), h.mem_iff]

theorem check_links_congr {uid_index uid_index' : List Item}
    (h : ∀ link, uid_index.find? (·.uid == link) = uid_index'.find? (·.uid == link))
    (source_kind : EntryKind) (source_id : String) (source_owner : Option String)
    (expected_target_kind : EntryKind) (seen links : List String) :
    check_links uid_index source_kind source_id source_owner expected_target_kind seen links =
      check_links uid_index' source_kind source_id source_owner expected_target_kind seen
        links := by
  induction links generalizing seen with
  | nil => rfl
  | cons link links ih =>
    have hlink : check_link uid_index source_kind source_id source_owner link
        expected_target_kind = check_link uid_index' source_kind source_id source_owner link
        expected_target_kind := by
      rw [check_link, h, check_link]
    rw [check_links, check_links, ih, hlink]

/-! ## The surface check -/

omit [UuidFormat] in
/-- Claims are put in one order, each once. -/
theorem claims_of_congr {claims claims' : List (String × String)} (h : claims.Perm claims') :
    claims_of claims = claims_of claims' := by
  rw [claims_of, claims_of]
  congr 1
  refine sortBy_congr h fun a _ b _ heq => ?_
  rw [compareLex, Ordering.then_eq_eq] at heq
  exact Prod.ext (Std.LawfulEqOrd.compare_eq_iff_eq.mp heq.1)
    (Std.LawfulEqOrd.compare_eq_iff_eq.mp heq.2)

omit [UuidFormat] in
theorem graph_of_perm {nodes nodes' : List AdaptedNode} (h : nodes.Perm nodes')
    (huids : (nodes.map (·.node.uid)).Nodup) : graph_of nodes = graph_of nodes' := by
  have huids' := (h.map (·.node.uid)).nodup_iff.mp huids
  have hentries : ∀ nodes : List AdaptedNode,
      (nodes.map AdaptedNode.entry).map Prod.fst = nodes.map (·.node.uid) := by
    intro nodes
    rw [List.map_map]
    rfl
  rw [graph_of, graph_of]
  congr 1
  · refine Store.ext_values fun node => ?_
    rw [Store.mem_values_ofList (by rwa [map_stored_uid]),
      Store.mem_values_ofList (by rwa [map_stored_uid]), (h.map _).mem_iff]
  · refine Store.ext_values fun entry => ?_
    rw [Store.mem_values_ofList (by rwa [hentries]), Store.mem_values_ofList (by rwa [hentries]),
      (h.map _).mem_iff]

variable {sys sys' hlrs hlrs' : List HlrEntry} {llrs llrs' : List LlrEntry}
  {tests tests' : List TestEntry} {derived derived' : List DerivedEntry}

omit [UuidFormat] in
/-- The entries of a trace, in another order. -/
theorem trace_items_perm (hsys : sys.Perm sys') (hhlrs : hlrs.Perm hlrs')
    (hllrs : llrs.Perm llrs') (htests : tests.Perm tests') (hderived : derived.Perm derived') :
    (trace_items sys hlrs llrs tests derived).Perm
      (trace_items sys' hlrs' llrs' tests' derived') :=
  ((((hsys.map _).append (hhlrs.map _)).append (hllrs.map _)).append (htests.map _)).append
    (hderived.map _)

omit [UuidFormat] in
/-- **A trace has one graph**, in every order of its entries, or none. -/
theorem graph_from_trace_parts_perm (hsys : sys.Perm sys') (hhlrs : hlrs.Perm hlrs')
    (hllrs : llrs.Perm llrs') (htests : tests.Perm tests') (hderived : derived.Perm derived')
    (graph : CorpusGraph) (h : graph_from_trace_parts sys hlrs llrs tests derived = .ok graph) :
    graph_from_trace_parts sys' hlrs' llrs' tests' derived' = .ok graph := by
  obtain ⟨nodes, hadapt, hnodes, rfl⟩ := graph_from_trace_parts_ok_iff.mp h
  have hitems : (inserted_items sys' hlrs' llrs' tests' derived').Perm
      (inserted_items sys hlrs llrs tests derived) :=
    ((inserted_items_perm ..).trans
      (trace_items_perm hsys hhlrs hllrs htests hderived).symm).trans
        (inserted_items_perm ..).symm
  obtain ⟨nodes', hadapt', hperm⟩ := List.perm_comp_forall₂ hitems hadapt
  refine graph_from_trace_parts_ok_iff.mpr ⟨nodes', hadapt', ?_,
    graph_of_perm hperm.symm hnodes.uids⟩
  exact ⟨(hperm.map _).nodup_iff.mpr hnodes.uids, (hperm.map _).nodup_iff.mpr hnodes.ids,
    fun a ha => hnodes.edges a (hperm.mem_iff.mp ha)⟩

omit [UuidFormat] in
theorem surface_bijection_errors_perm (hsys : sys.Perm sys') (hhlrs : hlrs.Perm hlrs')
    (hllrs : llrs.Perm llrs') (htests : tests.Perm tests') (hderived : derived.Perm derived') :
    surface_bijection_errors policy sys hlrs llrs tests derived =
      surface_bijection_errors policy sys' hlrs' llrs' tests' derived' := by
  have hclaims : surface_claims_from_hlr_entries hlrs = surface_claims_from_hlr_entries hlrs' :=
    claims_of_congr (hhlrs.flatMap_right _)
  unfold surface_bijection_errors
  split_ifs
  · cases hgraph : graph_from_trace_parts sys hlrs llrs tests derived with
    | ok graph =>
      rw [graph_from_trace_parts_perm hsys hhlrs hllrs htests hderived graph hgraph]
    | error error =>
      cases hgraph' : graph_from_trace_parts sys' hlrs' llrs' tests' derived' with
      | ok graph =>
        rw [graph_from_trace_parts_perm hsys.symm hhlrs.symm hllrs.symm htests.symm
          hderived.symm graph hgraph'] at hgraph
        cases hgraph
      | error error' => simp only [hclaims]
  · rfl

/-! ## Both phases -/

/-- **A trace is accepted in every order of its entries or in none.** -/
theorem validate_perm (hsys : sys.Perm sys') (hhlrs : hlrs.Perm hlrs')
    (hllrs : llrs.Perm llrs') (htests : tests.Perm tests') (hderived : derived.Perm derived') :
    validate_trace_links_with_policy policy sys hlrs llrs tests derived = .ok () ↔
      validate_trace_links_with_policy policy sys' hlrs' llrs' tests' derived' = .ok () := by
  have hitems := trace_items_perm hsys hhlrs hllrs htests hderived
  rw [validate_ok_iff, validate_ok_iff, ← Registry.register_entries_perm hitems]
  refine and_congr_right fun hclean => ?_
  have hholds := (Registry.register_entries_clean hclean).2
  have hholds' := (Registry.register_entries_clean
    ((Registry.register_entries_perm hitems).mp hclean)).2
  have hfind := find_item_perm (hitems.filterMap Registry.registered) hholds.uids
  rw [hholds.uid_index, hholds'.uid_index]
  have hhlr : hlr_errors policy ((trace_items sys hlrs llrs tests derived).filterMap
        Registry.registered) = hlr_errors policy
        ((trace_items sys' hlrs' llrs' tests' derived').filterMap Registry.registered) := by
    funext entry
    rw [hlr_errors, check_links_congr hfind, hlr_errors]
  have hllr : llr_errors policy ((trace_items sys hlrs llrs tests derived).filterMap
        Registry.registered) = llr_errors policy
        ((trace_items sys' hlrs' llrs' tests' derived').filterMap Registry.registered) := by
    funext entry
    rw [llr_errors, check_links_congr hfind, llr_errors]
  have htest : test_errors ((trace_items sys hlrs llrs tests derived).filterMap
        Registry.registered) = test_errors
        ((trace_items sys' hlrs' llrs' tests' derived').filterMap Registry.registered) := by
    funext entry
    rw [test_errors, check_links_congr hfind, test_errors]
  simp only [link_errors, List.append_eq_nil_iff,
    surface_bijection_errors_perm hsys hhlrs hllrs htests hderived, hhlr, hllr, htest,
    List.flatMap_eq_nil_iff, hhlrs.mem_iff, hllrs.mem_iff, htests.mem_iff, hderived.mem_iff]

end Links

end Evidence.Trace
