/-
What an accepted validation says of the entries, phase by phase.

The register phase passes over an entry without an owner or without a uid, if the policy does
not require them; every other entry is registered under its uid and under its kind, owner and
id, each new (`register_entries_clean`). The link phase resolves every link of a requirement or
of a test in the uids registered, and a link is repeated in no entry (`check_links_clean`).
-/
import Evidence.Lib.Lists
import Evidence.Trace.Validation

set_option autoImplicit false

namespace Evidence.Trace

open Corpus Sorting

/-! ## The register phase -/

namespace Registry

structure Registers (entry : TraceItem) (item : Item) : Prop where
  uid : entry.uid = some item.uid
  owner : entry.owner = some item.owner
  kind : item.kind = entry.kind
  id : item.id = entry.id

/-- The identity of an item. -/
def key (item : Item) : EntryKind × String × String := (item.kind, item.owner, item.id)

theorem push_error_ne (r : Registry) (error : String) :
    (r.push_error error).register_errors ≠ [] := by
  simp [push_error]

theorem insert_uid_clean {r : Registry} {item : Item}
    (h : (r.insert_uid item).register_errors = []) :
    r.register_errors = [] ∧ item.uid ∉ r.uid_index.map Item.uid ∧
      r.insert_uid item = { r with uid_index := r.uid_index ++ [item] } := by
  unfold insert_uid at h ⊢
  split at h
  · exact absurd h (push_error_ne _ _)
  · next hnone =>
    refine ⟨h, ?_, rfl⟩
    rintro hmem
    obtain ⟨prev, hprev, heq⟩ := List.mem_map.mp hmem
    exact List.find?_eq_none.mp hnone prev hprev (beq_iff_eq.mpr heq)

theorem insert_item_clean {r : Registry} {item : Item}
    (h : (r.insert_item item).register_errors = []) :
    r.register_errors = [] ∧ key item ∉ r.item_index.map key ∧
      r.insert_item item = { r with item_index := r.item_index ++ [item] } := by
  unfold insert_item at h ⊢
  split at h
  · exact absurd h (push_error_ne _ _)
  · next hnone =>
    refine ⟨h, ?_, rfl⟩
    intro hmem
    obtain ⟨prev, hprev, heq⟩ := List.mem_map.mp hmem
    simp only [key, Prod.mk.injEq] at heq
    have hno := List.find?_eq_none.mp hnone prev hprev
    simp [heq.1, heq.2.1, heq.2.2] at hno

/-- Items that are registered, each under its own uid and identity. -/
structure Holds (r : Registry) (items : List Item) : Prop where
  uid_index : r.uid_index = items
  item_index : r.item_index = items
  uids : (items.map Item.uid).Nodup
  keys : (items.map key).Nodup
  clean : r.register_errors = []

section Register

variable [UuidFormat] {policy : TracePolicy}

/-- An entry with an owner and a uid is registered; one without is passed over. -/
def registered (entry : TraceItem) : Option Item :=
  match entry.owner, entry.uid with
  | some owner, some uid => some ⟨uid, entry.kind, owner, entry.id⟩
  | _, _ => none

/-- What the policy requires of an entry that is passed over. -/
structure Admitted (policy : TracePolicy) (entry : TraceItem) : Prop where
  owner : policy.require_owners = true → entry.owner ≠ none
  uid : policy.require_uids = true → entry.owner ≠ none → entry.uid ≠ none

omit [UuidFormat] in
theorem registered_eq_some_iff {entry : TraceItem} {item : Item} :
    registered entry = some item ↔ Registers entry item := by
  unfold registered
  constructor
  · intro h
    split at h
    · next owner uid howner huid =>
      cases h
      exact ⟨huid, howner, rfl, rfl⟩
    · cases h
  · rintro ⟨huid, howner, hkind, hid⟩
    rw [howner, huid, ← hkind, ← hid]

/-- **One entry**: without an error it is registered besides the others, or passed over. -/
theorem register_clean {r : Registry} {entry : TraceItem}
    (h : (register policy r entry).register_errors = []) :
    r.register_errors = [] ∧ Admitted policy entry ∧ ∀ items, r.Holds items →
      (register policy r entry).Holds (items ++ (registered entry).toList) := by
  unfold register at h ⊢
  cases howner : entry.owner with
  | none =>
    simp only [howner] at h ⊢
    split at h
    · exact absurd h (push_error_ne _ _)
    · next hpolicy =>
      rw [if_neg hpolicy, registered, howner]
      refine ⟨h, ⟨fun hrequired => absurd hrequired hpolicy,
        fun _ hsome => absurd howner hsome⟩, ?_⟩
      intro items hitems
      rwa [Option.toList_none, List.append_nil]
  | some owner =>
    cases huid : entry.uid with
    | none =>
      simp only [howner, huid] at h ⊢
      split at h
      · exact absurd h (push_error_ne _ _)
      · next hpolicy =>
        rw [if_neg hpolicy, registered, howner, huid]
        refine ⟨h, ⟨fun _ hnone => ?_, fun hrequired => absurd hrequired hpolicy⟩, ?_⟩
        · rw [howner] at hnone
          cases hnone
        · intro items hitems
          rwa [Option.toList_none, List.append_nil]
    | some uid =>
      simp only [howner, huid] at h ⊢
      split at h
      · exact absurd h (push_error_ne _ _)
      · next hformat =>
        rw [if_neg hformat, registered, howner, huid]
        obtain ⟨hclean, hkey, hitem⟩ := insert_item_clean h
        obtain ⟨hbefore, hnew, hinsert⟩ := insert_uid_clean hclean
        refine ⟨hbefore, ⟨fun _ hnone => ?_, fun _ _ hnone => ?_⟩, fun items hitems => ?_⟩
        · rw [howner] at hnone
          cases hnone
        · rw [huid] at hnone
          cases hnone
        · rw [hinsert] at hkey
          rw [hitem, hinsert, Option.toList_some]
          refine ⟨?_, ?_, ?_, ?_, hitems.clean⟩
          · rw [hitems.uid_index]
          · rw [hitems.item_index]
          · rw [List.map_append]
            refine Lists.nodup_snoc.mpr ⟨hitems.uids, ?_⟩
            rwa [← hitems.uid_index]
          · rw [List.map_append]
            refine Lists.nodup_snoc.mpr ⟨hitems.keys, ?_⟩
            rwa [← hitems.item_index]

/-- **The register phase**: without an error every entry with an owner and a uid is registered. -/
theorem register_entries_clean {entries : List TraceItem}
    (h : (register_entries policy entries).register_errors = []) :
    (∀ entry ∈ entries, Admitted policy entry) ∧
      (register_entries policy entries).Holds (entries.filterMap registered) := by
  induction entries using List.reverseRecOn with
  | nil =>
    refine ⟨fun entry hentry => absurd hentry List.not_mem_nil, ?_⟩
    exact ⟨rfl, rfl, List.nodup_nil, List.nodup_nil, rfl⟩
  | append_singleton entries entry ih =>
    rw [register_entries, List.foldl_append] at h ⊢
    obtain ⟨hclean, hadmitted, hstep⟩ := register_clean h
    obtain ⟨hall, hholds⟩ := ih hclean
    refine ⟨?_, ?_⟩
    · intro other hother
      obtain hother | hother := List.mem_append.mp hother
      · exact hall other hother
      · rw [List.mem_singleton.mp hother]
        exact hadmitted
    · rw [List.filterMap_append, Lists.filterMap_singleton]
      exact hstep _ hholds

omit [UuidFormat] in
theorem registers_all (huids : policy.require_uids = true) (howners : policy.require_owners = true)
    {entries : List TraceItem} (hall : ∀ entry ∈ entries, Admitted policy entry) :
    List.Forall₂ Registers entries (entries.filterMap registered) := by
  induction entries with
  | nil => exact .nil
  | cons entry entries ih =>
    have hadmitted := hall entry List.mem_cons_self
    obtain ⟨owner, howner⟩ := Option.ne_none_iff_exists'.mp (hadmitted.owner howners)
    obtain ⟨uid, huid⟩ := Option.ne_none_iff_exists'.mp
      (hadmitted.uid huids (hadmitted.owner howners))
    have hregisters : Registers entry ⟨uid, entry.kind, owner, entry.id⟩ := ⟨huid, howner, rfl, rfl⟩
    rw [List.filterMap_cons, registered_eq_some_iff.mpr hregisters]
    exact .cons hregisters (ih fun other hother => hall other (List.mem_cons_of_mem _ hother))

end Register

end Registry

/-! ## The link phase -/

section Links

variable [UuidFormat]

structure Links (uid_index : List Item) (source_kind expected : EntryKind)
    (source_owner : Option String) (link : String) (target : Item) : Prop where
  format : parse_str_ok link = true
  mem : target ∈ uid_index
  uid : target.uid = link
  kind : target.kind = expected
  owner : owners_allowed source_kind expected (source_owner.getD "UNKNOWN") target.owner = true

theorem target_of_check_link {uid_index : List Item} {source_kind expected : EntryKind}
    {source_id link : String} {source_owner : Option String}
    (h : check_link uid_index source_kind source_id source_owner link expected = none) :
    ∃ item, Links uid_index source_kind expected source_owner link item := by
  unfold check_link at h
  split at h
  · simp at h
  · next hformat =>
    cases hfind : uid_index.find? (·.uid == link) with
    | none => simp [hfind] at h
    | some target =>
      rw [hfind] at h
      dsimp only at h
      split at h
      · simp at h
      · next hkind =>
        split at h
        · simp at h
        · next howner =>
          rw [Bool.not_eq_true', Bool.not_eq_false] at hformat howner
          have hfound := List.find?_some hfind
          exact ⟨target, hformat, List.mem_of_find?_eq_some hfind, beq_iff_eq.mp hfound,
            not_not.mp hkind, howner⟩

/-- **The links of an entry have no error only if** none is repeated and each has none. -/
theorem check_links_clean {uid_index : List Item} {source_kind expected : EntryKind}
    {source_id : String} {source_owner : Option String} {links seen : List String}
    (h : check_links uid_index source_kind source_id source_owner expected seen links = []) :
    links.Nodup ∧ (∀ link ∈ links, link ∉ seen) ∧
      ∀ link ∈ links, ∃ item, Links uid_index source_kind expected source_owner link item := by
  induction links generalizing seen with
  | nil => simp
  | cons link links ih =>
    rw [check_links, List.append_eq_nil_iff, List.append_eq_nil_iff] at h
    obtain ⟨⟨hseen, hlink⟩, hrest⟩ := h
    obtain ⟨hnodup, hnew, htargets⟩ := ih hrest
    have hfirst : link ∉ seen := by
      intro hmem
      simp [hmem] at hseen
    have htarget := target_of_check_link (Option.toList_eq_nil_iff.mp hlink)
    refine ⟨List.nodup_cons.mpr ⟨fun hmem => ?_, hnodup⟩, ?_, ?_⟩
    · exact hnew link hmem List.mem_cons_self
    · intro other hother
      rcases List.mem_cons.mp hother with rfl | hother
      · exact hfirst
      · exact fun hmem => hnew other hother (List.mem_cons_of_mem _ hmem)
    · intro other hother
      rcases List.mem_cons.mp hother with rfl | hother
      · exact htarget
      · exact htargets other hother

end Links

/-! ## Both phases -/

section Phases

variable [UuidFormat] {policy : TracePolicy} {sys hlrs : List HlrEntry} {llrs : List LlrEntry}
  {tests : List TestEntry} {derived : List DerivedEntry}

/-- Both phases ran, and found nothing. -/
theorem validate_ok_iff :
    validate_trace_links_with_policy policy sys hlrs llrs tests derived = .ok () ↔
      (register_entries policy (trace_items sys hlrs llrs tests derived)).register_errors = [] ∧
        link_errors policy sys hlrs llrs tests derived
          (register_entries policy (trace_items sys hlrs llrs tests derived)).uid_index = [] := by
  unfold validate_trace_links_with_policy
  dsimp only
  split
  · next h => simp [h]
  · next h =>
    rw [not_not] at h
    split
    · next hlinks => simp [hlinks]
    · next hlinks =>
      rw [not_not] at hlinks
      simp [h, hlinks]

end Phases

end Evidence.Trace
