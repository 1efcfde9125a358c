/-
What an accepted validation promises, and what escapes it.

The module promises that every uid is unique and every identity of kind, owner and id, and that
links resolve under the rules of ownership. Entries are told apart in the two indexes of the
register phase, and these hold texts, of the entries with an owner and a uid only
(`register_entries_clean`). So an entry that is passed over escapes both promises, two spellings
of one uuid escape the first, the links of a system requirement are never looked at, and an
entry without an owner is taken for one whose owner is named `UNKNOWN`. `promised_iff`: nothing
else escapes.
-/
import Evidence.Trace.Registration
import Evidence.Trace.ValidatedGraph

set_option autoImplicit false

namespace Evidence.Trace

open Corpus

/-! ## The promise -/

/-- `uuid::Uuid::parse_str`, with the value. -/
class UuidParse extends UuidFormat where
  parse_str : String → Option (BitVec 128)
  parse_str_ok_eq : ∀ text, parse_str_ok text = (parse_str text).isSome

export UuidParse (parse_str)

/-- One uid: the same text, or two spellings of one uuid. -/
def same_uid [UuidParse] (u v : String) : Prop :=
  u = v ∨ ∃ value, parse_str u = some value ∧ parse_str v = some value

theorem same_uid.symm [UuidParse] {u v : String} (h : same_uid u v) : same_uid v u := by
  rcases h with rfl | ⟨value, hu, hv⟩
  · exact .inl rfl
  · exact .inr ⟨value, hv, hu⟩

/-- Two entries of one kind share owner and id. -/
def same_item (a b : TraceItem) : Prop := a.kind = b.kind ∧ a.owner = b.owner ∧ a.id = b.id

/-- Upwards a link stays with its owner, or goes to the system of interest or the project. -/
def upward (owner target_owner : Option String) : Prop :=
  owner = target_owner ∨ target_owner = some "soi" ∨ target_owner = some "project"

section Promise

variable (sys hlrs : List HlrEntry) (llrs : List LlrEntry) (tests : List TestEntry)
  (derived : List DerivedEntry)

structure Promised [UuidParse] : Prop where
  uids : (trace_items sys hlrs llrs tests derived).Pairwise fun a b =>
    ∀ u v, a.uid = some u → b.uid = some v → ¬ same_uid u v
  items : (trace_items sys hlrs llrs tests derived).Pairwise fun a b => ¬ same_item a b
  hlr_links : ∀ entry ∈ hlrs, ∀ link ∈ entry.traces_to,
    ∃ target ∈ sys, target.uid = some link ∧ upward entry.owner target.owner
  llr_linked : ∀ entry ∈ llrs, entry.traces_to ≠ []
  llr_links : ∀ entry ∈ llrs, ∀ link ∈ entry.traces_to,
    ∃ target ∈ hlrs, target.uid = some link ∧ upward entry.owner target.owner
  test_links : ∀ entry ∈ tests, ∀ link ∈ entry.traces_to,
    ∃ target ∈ llrs, target.uid = some link ∧ entry.owner = target.owner
  links : ∀ item ∈ trace_items sys hlrs llrs tests derived, item.links.Nodup

structure NothingEscapes [UuidParse] : Prop where
  /-- No uuid is spelled in two ways. -/
  spellings : (trace_items sys hlrs llrs tests derived).Pairwise fun a b =>
    ∀ u v, a.uid = some u → b.uid = some v → u ≠ v → ¬ same_uid u v
  /-- An entry without an owner shares its uid with no other. -/
  unowned_uids : (trace_items sys hlrs llrs tests derived).Pairwise fun a b =>
    a.owner = none ∨ b.owner = none → ∀ u, a.uid = some u → b.uid ≠ some u
  /-- An entry that is not registered shares kind, owner and id with no other. -/
  unregistered_items : (trace_items sys hlrs llrs tests derived).Pairwise fun a b =>
    a.owner = none ∨ a.uid = none ∨ b.uid = none → ¬ same_item a b
  /-- An entry without an owner links to none of the owner that stands for it. -/
  unowned_links : ∀ item ∈ trace_items sys hlrs llrs tests derived, item.kind ≠ .SYS →
    item.owner = none → ∀ link ∈ item.links,
    ∀ target ∈ trace_items sys hlrs llrs tests derived, target.uid = some link →
      target.owner ≠ some "UNKNOWN"
  /-- A system requirement repeats no link. -/
  sys_links : ∀ entry ∈ sys, entry.traces_to.Nodup

end Promise

/-! ## Nothing else escapes -/

section Validate

variable {policy : TracePolicy} {sys hlrs : List HlrEntry} {llrs : List LlrEntry}
  {tests : List TestEntry} {derived : List DerivedEntry}

theorem entry_of_registered {item : Item}
    (hitem : item ∈ (trace_items sys hlrs llrs tests derived).filterMap Registry.registered) :
    ∃ entry ∈ trace_items sys hlrs llrs tests derived, entry.kind = item.kind ∧
      entry.uid = some item.uid ∧ entry.owner = some item.owner := by
  obtain ⟨entry, hentry, hregistered⟩ := List.mem_filterMap.mp hitem
  have hregisters := Registry.registered_eq_some_iff.mp hregistered
  exact ⟨entry, hentry, hregisters.kind.symm, hregisters.uid, hregisters.owner⟩

theorem trace_item_cases {item : TraceItem}
    (hitem : item ∈ trace_items sys hlrs llrs tests derived) :
    (∃ entry ∈ sys, item = .Sys entry) ∨ (∃ entry ∈ hlrs, item = .Hlr entry) ∨
      (∃ entry ∈ llrs, item = .Llr entry) ∨ (∃ entry ∈ tests, item = .Test entry) ∨
      ∃ entry ∈ derived, item = .Derived entry := by
  simp only [trace_items, List.mem_append, List.mem_map] at hitem
  rcases hitem with (((⟨entry, hentry, rfl⟩ | ⟨entry, hentry, rfl⟩) | ⟨entry, hentry, rfl⟩) |
    ⟨entry, hentry, rfl⟩) | ⟨entry, hentry, rfl⟩
  · exact .inl ⟨entry, hentry, rfl⟩
  · exact .inr (.inl ⟨entry, hentry, rfl⟩)
  · exact .inr (.inr (.inl ⟨entry, hentry, rfl⟩))
  · exact .inr (.inr (.inr (.inl ⟨entry, hentry, rfl⟩)))
  · exact .inr (.inr (.inr (.inr ⟨entry, hentry, rfl⟩)))

theorem trace_item_mem {item : TraceItem}
    (hitem : (∃ entry ∈ sys, item = .Sys entry) ∨ (∃ entry ∈ hlrs, item = .Hlr entry) ∨
      (∃ entry ∈ llrs, item = .Llr entry) ∨ (∃ entry ∈ tests, item = .Test entry) ∨
      ∃ entry ∈ derived, item = .Derived entry) :
    item ∈ trace_items sys hlrs llrs tests derived := by
  simp only [trace_items, List.mem_append, List.mem_map]
  rcases hitem with ⟨entry, hentry, rfl⟩ | ⟨entry, hentry, rfl⟩ | ⟨entry, hentry, rfl⟩ |
    ⟨entry, hentry, rfl⟩ | ⟨entry, hentry, rfl⟩
  · exact .inl (.inl (.inl (.inl ⟨entry, hentry, rfl⟩)))
  · exact .inl (.inl (.inl (.inr ⟨entry, hentry, rfl⟩)))
  · exact .inl (.inl (.inr ⟨entry, hentry, rfl⟩))
  · exact .inl (.inr ⟨entry, hentry, rfl⟩)
  · exact .inr ⟨entry, hentry, rfl⟩

variable [UuidParse]

theorem uids_promised
    (hitems : (((trace_items sys hlrs llrs tests derived).filterMap Registry.registered).map
      Item.uid).Nodup) (hnothing : NothingEscapes sys hlrs llrs tests derived) :
    (trace_items sys hlrs llrs tests derived).Pairwise fun a b =>
      ∀ u v, a.uid = some u → b.uid = some v → ¬ same_uid u v := by
  have hregistered := List.pairwise_filterMap.mp (List.pairwise_map.mp hitems)
  refine ((hregistered.and hnothing.spellings).and hnothing.unowned_uids).imp ?_
  rintro a b ⟨⟨hdistinct, hspelled⟩, hunowned⟩ u v hu hv hsame
  by_cases huv : u = v
  · subst huv
    by_cases howner : a.owner = none ∨ b.owner = none
    · exact hunowned howner u hu hv
    · rw [not_or] at howner
      obtain ⟨owner, ha⟩ := Option.ne_none_iff_exists'.mp howner.1
      obtain ⟨owner', hb⟩ := Option.ne_none_iff_exists'.mp howner.2
      exact hdistinct ⟨u, a.kind, owner, a.id⟩
        (Registry.registered_eq_some_iff.mpr ⟨hu, ha, rfl, rfl⟩) ⟨u, b.kind, owner', b.id⟩
        (Registry.registered_eq_some_iff.mpr ⟨hv, hb, rfl, rfl⟩) rfl
  · exact hspelled u v hu hv huv hsame

/-- The identities of registered entries are distinct, so what escapes decides. -/
theorem items_promised
    (hitems : (((trace_items sys hlrs llrs tests derived).filterMap Registry.registered).map
      Registry.key).Nodup) (hnothing : NothingEscapes sys hlrs llrs tests derived) :
    (trace_items sys hlrs llrs tests derived).Pairwise fun a b => ¬ same_item a b := by
  have hregistered := List.pairwise_filterMap.mp (List.pairwise_map.mp hitems)
  refine (hregistered.and hnothing.unregistered_items).imp ?_
  rintro a b ⟨hdistinct, hunregistered⟩ hsame
  by_cases hescapes : a.owner = none ∨ a.uid = none ∨ b.uid = none
  · exact hunregistered hescapes hsame
  · rw [not_or, not_or] at hescapes
    obtain ⟨hkind, howner, hid⟩ := hsame
    obtain ⟨owner, ha⟩ := Option.ne_none_iff_exists'.mp hescapes.1
    obtain ⟨u, hu⟩ := Option.ne_none_iff_exists'.mp hescapes.2.1
    obtain ⟨v, hv⟩ := Option.ne_none_iff_exists'.mp hescapes.2.2
    refine hdistinct ⟨u, a.kind, owner, a.id⟩
      (Registry.registered_eq_some_iff.mpr ⟨hu, ha, rfl, rfl⟩) ⟨v, b.kind, owner, b.id⟩
      (Registry.registered_eq_some_iff.mpr ⟨hv, ?_, rfl, rfl⟩) ?_
    · rw [← howner, ha]
    · rw [Registry.key, Registry.key, hkind, hid]

theorem entry_of_links (hnothing : NothingEscapes sys hlrs llrs tests derived) {source : TraceItem}
    (hsource : source ∈ trace_items sys hlrs llrs tests derived) (hkind : source.kind ≠ .SYS)
    {expected : EntryKind} {link : String} (hlink : link ∈ source.links) {item : Item}
    (h : Links ((trace_items sys hlrs llrs tests derived).filterMap Registry.registered) source.kind
      expected source.owner link item) :
    ∃ target ∈ trace_items sys hlrs llrs tests derived, target.kind = expected ∧
      target.uid = some link ∧ target.owner = some item.owner ∧
      owners_allowed source.kind expected (source.owner.getD "UNKNOWN") item.owner = true ∧
      (source.owner = none → item.owner ≠ "UNKNOWN") := by
  obtain ⟨target, htarget, htargetkind, huid, howner⟩ := entry_of_registered h.mem
  rw [h.uid] at huid
  refine ⟨target, htarget, htargetkind.trans h.kind, huid, howner, h.owner, ?_⟩
  intro hunowned hunknown
  refine hnothing.unowned_links source hsource hkind hunowned link hlink target htarget huid ?_
  rw [howner, hunknown]

omit [UuidParse] in
/-- The rule of the upper layers, where no missing owner is taken for a name. -/
theorem upward_of_allowed {owner : Option String} {target_owner : String}
    (hallowed : owner.getD "UNKNOWN" = target_owner ∨ target_owner = "soi" ∨
      target_owner = "project")
    (hnamed : owner = none → target_owner ≠ "UNKNOWN") : upward owner (some target_owner) := by
  rw [upward, Option.some.injEq, Option.some.injEq]
  refine hallowed.imp_left fun hsame => ?_
  cases owner with
  | none => exact absurd hsame.symm (hnamed rfl)
  | some name => exact congrArg some hsame

omit [UuidParse] in
/-- The rule of the tests. -/
theorem same_owner_of_allowed {owner : Option String} {target_owner : String}
    (hallowed : owner.getD "UNKNOWN" = target_owner)
    (hnamed : owner = none → target_owner ≠ "UNKNOWN") : owner = some target_owner := by
  cases owner with
  | none => exact absurd hallowed.symm (hnamed rfl)
  | some name => exact congrArg some hallowed

/-- Entries that share a uid are one entry where uids are unique. -/
theorem eq_of_uids (huids : (trace_items sys hlrs llrs tests derived).Pairwise fun a b =>
      ∀ u v, a.uid = some u → b.uid = some v → ¬ same_uid u v) {a b : TraceItem}
    (ha : a ∈ trace_items sys hlrs llrs tests derived)
    (hb : b ∈ trace_items sys hlrs llrs tests derived) {u : String} (hu : a.uid = some u)
    (hv : b.uid = some u) : a = b := by
  by_contra hne
  have hsymm : Std.Symm fun a b : TraceItem =>
      ∀ u v, a.uid = some u → b.uid = some v → ¬ same_uid u v :=
    ⟨fun a b hab u v hu hv hsame => hab v u hv hu hsame.symm⟩
  exact huids.forall ha hb hne u u hu hv (.inl rfl)

theorem nothing_escapes_of_promised (hpromised : Promised sys hlrs llrs tests derived) :
    NothingEscapes sys hlrs llrs tests derived := by
  refine ⟨?_, ?_, ?_, ?_, ?_⟩
  · exact hpromised.uids.imp fun hab u v hu hv _ => hab u v hu hv
  · exact hpromised.uids.imp fun hab _ u hu hv => hab u u hu hv (.inl rfl)
  · refine hpromised.items.imp ?_
    exact fun hdistinct _ => hdistinct
  · intro item hitem hkind hunowned link hlink target htarget huid hunknown
    -- the entry the link is promised to name is the target
    rcases trace_item_cases hitem with ⟨entry, hentry, rfl⟩ | ⟨entry, hentry, rfl⟩ |
      ⟨entry, hentry, rfl⟩ | ⟨entry, hentry, rfl⟩ | ⟨entry, hentry, rfl⟩
    · exact hkind rfl
    · obtain ⟨found, hfound, hfounduid, hrule⟩ := hpromised.hlr_links entry hentry link hlink
      cases eq_of_uids hpromised.uids htarget (trace_item_mem (.inl ⟨found, hfound, rfl⟩)) huid
        hfounduid
      rw [show entry.owner = none from hunowned, show found.owner = some "UNKNOWN" from hunknown]
        at hrule
      simp [upward] at hrule
    · obtain ⟨found, hfound, hfounduid, hrule⟩ := hpromised.llr_links entry hentry link hlink
      cases eq_of_uids hpromised.uids htarget
        (trace_item_mem (.inr (.inl ⟨found, hfound, rfl⟩))) huid hfounduid
      rw [show entry.owner = none from hunowned, show found.owner = some "UNKNOWN" from hunknown]
        at hrule
      simp [upward] at hrule
    · obtain ⟨found, hfound, hfounduid, hrule⟩ := hpromised.test_links entry hentry link hlink
      cases eq_of_uids hpromised.uids htarget
        (trace_item_mem (.inr (.inr (.inl ⟨found, hfound, rfl⟩)))) huid hfounduid
      rw [show entry.owner = none from hunowned, show found.owner = some "UNKNOWN" from hunknown]
        at hrule
      cases hrule
    · cases hlink
  · exact fun entry hentry => hpromised.links _ (trace_item_mem (.inl ⟨entry, hentry, rfl⟩))
/-- **The link phase**: no link is repeated, each resolves, and low-level requirements have one. -/
theorem link_phase_clean {items : List Item}
    (h : link_errors policy sys hlrs llrs tests derived items = []) :
    (∀ entry ∈ hlrs, entry.traces_to.Nodup ∧
      ∀ link ∈ entry.traces_to, ∃ item, Links items .HLR .SYS entry.owner link item) ∧
    (∀ entry ∈ llrs, entry.traces_to ≠ [] ∧ entry.traces_to.Nodup ∧
      ∀ link ∈ entry.traces_to, ∃ item, Links items .LLR .HLR entry.owner link item) ∧
    ∀ entry ∈ tests, entry.traces_to.Nodup ∧
      ∀ link ∈ entry.traces_to, ∃ item, Links items .TEST .LLR entry.owner link item := by
  simp only [link_errors, List.append_eq_nil_iff, List.flatMap_eq_nil_iff] at h
  obtain ⟨⟨⟨⟨-, hhlrs⟩, hllrs⟩, htests⟩, -⟩ := h
  refine ⟨?_, ?_, ?_⟩
  · intro entry hentry
    have herrors := hhlrs entry hentry
    simp only [hlr_errors, List.append_eq_nil_iff] at herrors
    obtain ⟨hnodup, -, htargets⟩ := check_links_clean herrors.2
    exact ⟨hnodup, htargets⟩
  · intro entry hentry
    have herrors := hllrs entry hentry
    simp only [llr_errors, List.append_eq_nil_iff] at herrors
    obtain ⟨hnodup, -, htargets⟩ := check_links_clean herrors.2
    refine ⟨?_, hnodup, htargets⟩
    intro hnone
    simp [hnone] at herrors
  · intro entry hentry
    obtain ⟨hnodup, -, htargets⟩ := check_links_clean (htests entry hentry)
    exact ⟨hnodup, htargets⟩

theorem promised_of_nothing_escapes
    (h : validate_trace_links_with_policy policy sys hlrs llrs tests derived = .ok ())
    (hnothing : NothingEscapes sys hlrs llrs tests derived) :
    Promised sys hlrs llrs tests derived := by
  obtain ⟨hregister, hlinks⟩ := validate_ok_iff.mp h
  obtain ⟨-, hholds⟩ := Registry.register_entries_clean hregister
  rw [hholds.uid_index] at hlinks
  obtain ⟨hhlr, hllr, htest⟩ := link_phase_clean hlinks
  refine ⟨uids_promised hholds.uids hnothing, items_promised hholds.keys hnothing, ?_,
    fun entry hentry => (hllr entry hentry).1, ?_, ?_, ?_⟩
  · intro entry hentry link hlink
    obtain ⟨item, hitem⟩ := (hhlr entry hentry).2 link hlink
    have hsource : TraceItem.Hlr entry ∈ trace_items sys hlrs llrs tests derived :=
      trace_item_mem (.inr (.inl ⟨entry, hentry, rfl⟩))
    obtain ⟨target, htarget, hkind, huid, howner, hallowed, hnamed⟩ :=
      entry_of_links hnothing hsource (by simp [TraceItem.kind]) hlink hitem
    rcases trace_item_cases htarget with ⟨found, hfound, rfl⟩ | ⟨found, hfound, rfl⟩ |
      ⟨found, hfound, rfl⟩ | ⟨found, hfound, rfl⟩ | ⟨found, hfound, rfl⟩
    · refine ⟨found, hfound, huid, ?_⟩
      rw [show found.owner = some item.owner from howner]
      simp only [owners_allowed, TraceItem.kind, Bool.or_eq_true, beq_iff_eq, or_assoc]
        at hallowed
      exact upward_of_allowed hallowed hnamed
    all_goals cases hkind
  · intro entry hentry link hlink
    obtain ⟨item, hitem⟩ := (hllr entry hentry).2.2 link hlink
    have hsource : TraceItem.Llr entry ∈ trace_items sys hlrs llrs tests derived :=
      trace_item_mem (.inr (.inr (.inl ⟨entry, hentry, rfl⟩)))
    obtain ⟨target, htarget, hkind, huid, howner, hallowed, hnamed⟩ :=
      entry_of_links hnothing hsource (by simp [TraceItem.kind]) hlink hitem
    rcases trace_item_cases htarget with ⟨found, hfound, rfl⟩ | ⟨found, hfound, rfl⟩ |
      ⟨found, hfound, rfl⟩ | ⟨found, hfound, rfl⟩ | ⟨found, hfound, rfl⟩
    · cases hkind
    · refine ⟨found, hfound, huid, ?_⟩
      rw [show found.owner = some item.owner from howner]
      simp only [owners_allowed, TraceItem.kind, Bool.or_eq_true, beq_iff_eq, or_assoc]
        at hallowed
      exact upward_of_allowed hallowed hnamed
    all_goals cases hkind
  · intro entry hentry link hlink
    obtain ⟨item, hitem⟩ := (htest entry hentry).2 link hlink
    have hsource : TraceItem.Test entry ∈ trace_items sys hlrs llrs tests derived :=
      trace_item_mem (.inr (.inr (.inr (.inl ⟨entry, hentry, rfl⟩))))
    obtain ⟨target, htarget, hkind, huid, howner, hallowed, hnamed⟩ :=
      entry_of_links hnothing hsource (by simp [TraceItem.kind]) hlink hitem
    rcases trace_item_cases htarget with ⟨found, hfound, rfl⟩ | ⟨found, hfound, rfl⟩ |
      ⟨found, hfound, rfl⟩ | ⟨found, hfound, rfl⟩ | ⟨found, hfound, rfl⟩
    · cases hkind
    · cases hkind
    · refine ⟨found, hfound, huid, ?_⟩
      rw [show found.owner = some item.owner from howner]
      simp only [owners_allowed, TraceItem.kind, beq_iff_eq] at hallowed
      exact same_owner_of_allowed hallowed hnamed
    all_goals cases hkind
  · intro item hitem
    rcases trace_item_cases hitem with ⟨entry, hentry, rfl⟩ | ⟨entry, hentry, rfl⟩ |
      ⟨entry, hentry, rfl⟩ | ⟨entry, hentry, rfl⟩ | ⟨entry, hentry, rfl⟩
    · exact hnothing.sys_links entry hentry
    · exact (hhlr entry hentry).1
    · exact (hllr entry hentry).2.1
    · exact (htest entry hentry).1
    · exact List.nodup_nil

/-- **Nothing else escapes.** Of the entries of an accepted trace all that the module promises
holds exactly when nothing escapes. -/
theorem promised_iff
    (h : validate_trace_links_with_policy policy sys hlrs llrs tests derived = .ok ()) :
    Promised sys hlrs llrs tests derived ↔ NothingEscapes sys hlrs llrs tests derived :=
  ⟨nothing_escapes_of_promised, promised_of_nothing_escapes h⟩

end Validate

/-! ## Two requirements of one uid -/

section Texts

/-- The value of a hexadecimal digit, of either case. -/
def hex_digit (c : Char) : Option ℕ :=
  if '0' ≤ c ∧ c ≤ '9' then some (c.toNat - 48)
  else if 'a' ≤ c ∧ c ≤ 'f' then some (c.toNat - 87)
  else if 'A' ≤ c ∧ c ≤ 'F' then some (c.toNat - 55)
  else none

/-- Thirty-two digits. -/
def parse_simple (digits : List Char) : Option (BitVec 128) :=
  if digits.length = 32 then
    (digits.mapM hex_digit).map fun values =>
      BitVec.ofNat 128 (values.foldl (fun value digit => 16 * value + digit) 0)
  else none

/-- Five groups with hyphens between them. -/
def parse_hyphenated (text : List Char) : Option (BitVec 128) :=
  let groups := text.splitOn '-'
  if groups.map List.length = [8, 4, 4, 4, 12] then parse_simple groups.flatten else none

/-- The forms of a uuid: simple, hyphenated, in braces, or as a URN. -/
def parse_uuid (text : String) : Option (BitVec 128) :=
  let chars := text.toList
  if chars.length = 32 then parse_simple chars
  else if chars.length = 36 then parse_hyphenated chars
  else if chars.length = 38 ∧ chars.head? = some '\x7b' ∧ chars.getLast? = some '\x7d' then
    parse_hyphenated (chars.drop 1).dropLast
  else if chars.length = 45 ∧ chars.take 9 = "urn:uuid:".toList then
    parse_hyphenated (chars.drop 9)
  else none

@[reducible] def uuid_texts : UuidParse where
  parse_str_ok := fun text => (parse_uuid text).isSome
  parse_str := parse_uuid
  parse_str_ok_eq := fun _ => rfl

end Texts

attribute [local instance] uuid_texts

/-- A refined requirement, under the strict policy: nothing escapes. -/
theorem promised_refined :
    Promised [] [small_hlr "HLR-1"] [small_llr "LLR-1"] [] [] ↔
      NothingEscapes [] [small_hlr "HLR-1"] [small_llr "LLR-1"] [] [] := by
  have hok : validate_trace_links_with_policy strict_policy [] [small_hlr "HLR-1"]
      [small_llr "LLR-1"] [] [] = .ok () := by decide +kernel
  exact promised_iff hok

/-- A requirement without an owner. -/
def unowned_hlr (id : String) : HlrEntry := { small_hlr id with owner := none }

/-- **Two requirements of one uid are accepted** by the default policy when they have no owner. -/
theorem uids_escape :
    validate_trace_links_with_policy .default [] [unowned_hlr "HLR-1", unowned_hlr "HLR-2"] []
        [] [] = .ok () ∧
      ¬ Promised [] [unowned_hlr "HLR-1", unowned_hlr "HLR-2"] [] [] [] := by
  refine ⟨by decide +kernel, ?_⟩
  intro hpromised
  have hfirst := (List.pairwise_cons.mp hpromised.uids).1 _ (List.mem_singleton_self _)
  exact hfirst HLR_UID HLR_UID rfl rfl (.inl rfl)

end Evidence.Trace
