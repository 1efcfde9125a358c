/-
What `backfill_uuids` does to the references between the entries.

A run that nothing stops is a `References.Renaming` of the items that need a uuid. So the
references survive exactly when every placeholder that a link names belongs to one entry, and
no link of the system layer names one.
-/
import Evidence.Lib.References
import Evidence.Trace.BackfillLayers
import Evidence.Trace.UniqueEntries

set_option autoImplicit false

namespace Evidence.Trace

open Check References

section Uuids

variable [UuidFormat] {new_v4 : ℕ → String}

/-! ## A run -/

/-- **What a run does**, if nothing stops it. -/
theorem backfill_uuids_ok {root after : TraceRoot} {total : ℕ}
    (h : backfill_uuids new_v4 root = .ok (total, after)) :
    ∃ remap, after.items = (renew new_v4 root.items 0).1.map (TraceItem.relinked remap) ∧
      Remaps (root.items.zip (renew new_v4 root.items 0).1) remap ∧
      ¬ after.Unreadable ∧ ∃ changed, Updates root.loaded after.loaded changed := by
  obtain ⟨loaded, hload, h⟩ := bind_ok_iff.mp h
  obtain ⟨hreadable, rfl⟩ := load_root_ok_iff.mp hload
  obtain ⟨⟨assigned, changed, state⟩, hassign, h⟩ := bind_ok_iff.mp h
  obtain ⟨hlayered, hupdates, -⟩ := assign_root_ok hassign
  obtain ⟨hrelinked, hupdated⟩ := relink_root_spec state.remap hupdates
  obtain ⟨hwritten, hread⟩ := write_root_spec hupdated hreadable
  obtain rfl : write_root root (relink_root state.remap assigned changed).1
      (relink_root state.remap assigned changed).2 = after := congrArg Prod.snd (Except.ok.inj h)
  have hrenewed : (renew new_v4 root.items 0).1 = assigned.layers.flatten := by
    rw [TraceRoot.items, ← hlayered.renewed]
  refine ⟨state.remap, ?_, ?_, hread, (relink_root state.remap assigned changed).2, ?_⟩
  · rw [TraceRoot.items, hwritten, hrelinked, hrenewed]
  · rw [hrenewed]
    exact hlayered.remap
  · rw [hwritten]
    exact hupdated

/-- **What stops a run.** -/
theorem backfill_uuids_ok_iff {root : TraceRoot} :
    (∃ out, backfill_uuids new_v4 root = .ok out) ↔
      ¬ root.Unreadable ∧ ¬ Clashing root.loaded.layers := by
  constructor
  · rintro ⟨out, h⟩
    obtain ⟨loaded, hload, h⟩ := bind_ok_iff.mp h
    obtain ⟨hreadable, rfl⟩ := load_root_ok_iff.mp hload
    obtain ⟨assigned, hassign, -⟩ := bind_ok_iff.mp h
    exact ⟨hreadable, (assign_root_ok hassign).2.2⟩
  · rintro ⟨hreadable, hclash⟩
    have hload : load_root root = .ok root.loaded := load_root_ok_iff.mpr ⟨hreadable, rfl⟩
    cases hassign : assign_root new_v4 root.loaded with
    | error failure => exact absurd (assign_root_error hassign) hclash
    | ok assigned =>
      refine ⟨_, bind_ok_iff.mpr ⟨_, hload, bind_ok_iff.mpr ⟨_, hassign, rfl⟩⟩⟩

/-! ## A run that finds nothing to do -/

def Valid (items : List TraceItem) : Prop := ∀ item ∈ items, needs_new_uuid item.uid = false

theorem renew_valid {items : List TraceItem} (h : Valid items) (next : ℕ) :
    renew new_v4 items next = (items, next) := by
  induction items with
  | nil => rfl
  | cons item items ih =>
    obtain ⟨hfirst, hrest⟩ := List.forall_mem_cons.mp h
    rw [renew, hfirst, ih hrest]
    rfl

section Layer

variable {φ ε : Type} {entries : φ → List ε} {with_entries : φ → List ε → φ}
  {uid : ε → Option String} {with_uid : ε → String → ε} {item : ε → TraceItem}

theorem Member.layer_valid (hmember : Member entries with_entries uid with_uid item)
    (file : Option φ) (state : Backfill) (h : Valid (layer_items entries item file)) :
    backfill_layer entries with_entries (assign_valid_uuids new_v4 uid with_uid) file state =
      .ok (file, false, state) := by
  cases file with
  | none => rfl
  | some f =>
    have hspec : AssignedFrom new_v4 item state.next (entries f)
        (assign_valid_uuids new_v4 uid with_uid (entries f) state.next) :=
      assign_valid_uuids_spec _ _ hmember.item_uid hmember.item_with_uid
    generalize hassigned : assign_valid_uuids new_v4 uid with_uid (entries f) state.next = assigned
      at hspec
    have hlayer : Valid ((entries f).map item) := h
    have hrenewed := hspec.renewed
    rw [renew_valid hlayer, Prod.mk.injEq] at hrenewed
    have hcount : assigned.count = 0 := by
      have hcount := hspec.count
      rw [hrenewed.2] at hcount
      omega
    have hremap : assigned.remap = Store.empty := by
      refine Store.ext fun old => ?_
      rw [Store.get_empty]
      by_contra hkey
      obtain ⟨rewrite, hrewrite⟩ := Option.ne_none_iff_exists'.mp hkey
      obtain ⟨pair, hpair, hold, -⟩ := hspec.remap.sound old rewrite hrewrite
      have hvalid := h pair.1 (List.of_mem_zip hpair).1
      rw [hold.2] at hvalid
      cases hvalid
    have hentries : assigned.entries = entries f := hmember.injective.list_map hrenewed.1
    rw [backfill_layer, hassigned, hremap, hcount, hentries, hrenewed.2, hmember.rest]
    rfl

end Layer


theorem Valid.append_iff {items more : List TraceItem} :
    Valid (items ++ more) ↔ Valid items ∧ Valid more := List.forall_mem_append

/-- **A run over valid uuids** assigns none, and changes nothing. -/
theorem backfill_uuids_valid {root : TraceRoot} (hreadable : ¬ root.Unreadable)
    (h : Valid root.items) : backfill_uuids new_v4 root = .ok (0, root) := by
  simp only [TraceRoot.items, LoadedRoot.layers, List.flatten_cons, List.flatten_nil,
    List.append_nil, Valid.append_iff] at h
  obtain ⟨hsys, hhlr, hllr, htests, hderived⟩ := h
  have hload : load_root root = .ok root.loaded := load_root_ok_iff.mpr ⟨hreadable, rfl⟩
  have hassign : assign_root new_v4 root.loaded =
      .ok (root.loaded, ⟨false, false, false, false, false⟩, ⟨0, Store.empty, 0⟩) := by
    refine bind_ok_iff.mpr ⟨_, sys_member.layer_valid _ _ hsys, ?_⟩
    refine bind_ok_iff.mpr ⟨_, hlr_member.layer_valid _ _ hhlr, ?_⟩
    refine bind_ok_iff.mpr ⟨_, llr_member.layer_valid _ _ hllr, ?_⟩
    refine bind_ok_iff.mpr ⟨_, test_member.layer_valid _ _ htests, ?_⟩
    exact bind_ok_iff.mpr ⟨_, derived_member.layer_valid _ _ hderived, rfl⟩
  refine bind_ok_iff.mpr ⟨_, hload, bind_ok_iff.mpr ⟨_, hassign, ?_⟩⟩
  -- no link has a rewrite
  have hnone : ∀ {φ ε : Type} (entries : φ → List ε) (links : ε → List String)
      (file : Option φ), (file.any fun file => (entries file).any fun entry =>
        (rewrite_traces_to (links entry) Store.empty).2) = false := by
    intro φ ε entries links file
    have hlinks : ∀ refs, (rewrite_traces_to refs Store.empty).2 = false := by
      intro refs
      simp [rewrite_traces_to]
    cases file with
    | none => rfl
    | some file => simp [hlinks]
  have hquiet : (relink_root Store.empty root.loaded ⟨false, false, false, false, false⟩).2 =
      ⟨false, false, false, false, false⟩ := by
    simp only [relink_root, relink_layer, hnone, Bool.or_false]
  show Except.ok (0, write_root root _ (relink_root Store.empty root.loaded
    ⟨false, false, false, false, false⟩).2) = _
  rw [hquiet]
  rfl

/-! ## The claim -/

/-- A link at a position of an entry, and the name of an entry. -/
def TraceRoot.name (root : TraceRoot) (j : ℕ) : Option String :=
  root.items[j]?.bind TraceItem.uid

def TraceRoot.link (root : TraceRoot) (position : ℕ × ℕ) : Option String :=
  root.items[position.1]?.bind fun item => item.links[position.2]?

/-- The documents themselves: whether they are there, and their heads. -/
def LoadedRoot.heads (root : LoadedRoot) :
    Option (Schema × TraceMeta) × Option (Schema × TraceMeta) × Option (Schema × TraceMeta) ×
      Option (Schema × TraceMeta) × Option (Schema × TraceMeta) :=
  (root.sys.map fun file => (file.schema, file.meta),
    root.hlr.map fun file => (file.schema, file.meta),
    root.llr.map fun file => (file.schema, file.meta),
    root.tests.map fun file => (file.schema, file.meta),
    root.derived.map fun file => (file.schema, file.meta))

/-- **What the files are after a run that keeps the reference structure.** -/
structure Backfilled (root after : TraceRoot) : Prop where
  valid : ∀ item ∈ after.items, ∃ uid, item.uid = some uid ∧ parse_str_ok uid = true
  kept : ∀ (j : ℕ) uid, root.name j = some uid → parse_str_ok uid = true →
    after.name j = some uid
  heads : after.loaded.heads = root.loaded.heads
  unchanged : after.items.map TraceItem.blank = root.items.map TraceItem.blank
  references : ∀ (position : ℕ × ℕ) (j : ℕ),
    Refers after.name after.link position j ↔ Refers root.name root.link position j
  again : ∀ new_v4 : ℕ → String, backfill_uuids new_v4 after = .ok (0, after)

/-- Every placeholder that a link names belongs to one entry, and no link of the system layer
names one. -/
def Followed (root : TraceRoot) : Prop :=
  ∀ (position : ℕ × ℕ) (j : ℕ), Refers root.name root.link position j →
    ∀ old, root.name j = some old → parse_str_ok old = false →
      (∀ item, root.items[position.1]? = some item → item.kind ≠ .SYS) ∧
        ∀ i, root.name i = some old → i = j


section Run

variable {root after : TraceRoot} {remap : Remap}

/-- What becomes of an entry. -/
theorem after_getElem? (hitems : after.items =
      (renew new_v4 root.items 0).1.map (TraceItem.relinked remap)) {j : ℕ} {item : TraceItem}
    (h : root.items[j]? = some item) :
    after.items[j]? = some ((if needs_new_uuid item.uid then
      item.with_uid (new_v4 (renew new_v4 (root.items.take j) 0).2) else item).relinked remap) := by
  rw [hitems, List.getElem?_map, renew_getElem? h, Option.map_some]

theorem after_none (hitems : after.items =
      (renew new_v4 root.items 0).1.map (TraceItem.relinked remap)) {j : ℕ}
    (h : root.items[j]? = none) : after.items[j]? = none := by
  rw [List.getElem?_eq_none_iff] at h ⊢
  rwa [hitems, List.length_map, renew_length]

omit [UuidFormat] in
theorem name_eq_some_iff {j : ℕ} {uid : String} :
    root.name j = some uid ↔ ∃ item, root.items[j]? = some item ∧ item.uid = some uid :=
  Option.bind_eq_some_iff

omit [UuidFormat] in
theorem link_eq_some_iff {position : ℕ × ℕ} {link : String} :
    root.link position = some link ↔
      ∃ item, root.items[position.1]? = some item ∧ item.links[position.2]? = some link :=
  Option.bind_eq_some_iff

theorem needs_new_uuid_some {uid : String} :
    needs_new_uuid (some uid) = true ↔ parse_str_ok uid = false := by
  rw [needs_new_uuid, Option.all_some, Bool.not_eq_true']

/-- **A run is a renaming** of the items that need a uuid. -/
theorem backfill_renaming
    (hinj : ∀ m < root.items.length, ∀ n < root.items.length, new_v4 m = new_v4 n → m = n)
    (hnew : ∀ n < root.items.length, ∀ item ∈ root.items,
      item.uid ≠ some (new_v4 n) ∧ new_v4 n ∉ item.links)
    (hitems : after.items = (renew new_v4 root.items 0).1.map (TraceItem.relinked remap))
    (hremap : Remaps (root.items.zip (renew new_v4 root.items 0).1) remap) :
    Renaming root.name after.name root.link after.link
      (fun j => ∃ item, root.items[j]? = some item ∧ needs_new_uuid item.uid = true)
      (fun position => ∃ item, root.items[position.1]? = some item ∧ item.kind ≠ .SYS)
      fun old => (remap.get old).map Prod.snd where
  kept := by
    intro j hkept
    cases hget : root.items[j]? with
    | none =>
      rw [TraceRoot.name, TraceRoot.name, hget, after_none hitems hget]
    | some item =>
      have hneeds : ¬ needs_new_uuid item.uid = true := fun hneeds => hkept ⟨item, hget, hneeds⟩
      rw [TraceRoot.name, TraceRoot.name, after_getElem? hitems hget, hget, if_neg hneeds,
        Option.bind_some, Option.bind_some, TraceItem.relinked_uid]
  fresh := by
    rintro j ⟨item, hget, hneeds⟩
    refine ⟨new_v4 (renew new_v4 (root.items.take j) 0).2, ?_, ?_, ?_⟩
    · rw [TraceRoot.name, after_getElem? hitems hget, if_pos hneeds, Option.bind_some,
        TraceItem.relinked_uid, TraceItem.with_uid_uid]
    · intro i hname
      obtain ⟨other, hother, huid⟩ := name_eq_some_iff.mp hname
      exact (hnew _ (renew_take_bound hget) other (List.mem_of_getElem? hother)).1 huid
    · intro position hlink
      obtain ⟨other, hother, hmem⟩ := link_eq_some_iff.mp hlink
      exact (hnew _ (renew_take_bound hget) other (List.mem_of_getElem? hother)).2
        (List.mem_of_getElem? hmem)
  distinct := by
    rintro i j ⟨p, hp, hpneeds⟩ ⟨q, hq, hqneeds⟩ hsame
    rw [TraceRoot.name, TraceRoot.name, after_getElem? hitems hp, after_getElem? hitems hq,
      if_pos hpneeds, if_pos hqneeds, Option.bind_some, Option.bind_some, TraceItem.relinked_uid,
      TraceItem.relinked_uid, TraceItem.with_uid_uid, TraceItem.with_uid_uid,
      Option.some.injEq] at hsame
    have hnumber := hinj _ (renew_take_bound hp) _ (renew_take_bound hq) hsame
    rcases Nat.lt_trichotomy i j with hlt | heq | hlt
    · exact absurd hnumber (Nat.ne_of_lt (renew_take_lt hp hpneeds hlt))
    · exact heq
    · exact absurd hnumber.symm (Nat.ne_of_lt (renew_take_lt hq hqneeds hlt))
  apart := by
    rintro i j l ⟨p, hp, hneeds⟩ hkept hpname hqname
    obtain ⟨p', hp', hpuid⟩ := name_eq_some_iff.mp hpname
    obtain ⟨q, hq, hquid⟩ := name_eq_some_iff.mp hqname
    cases hp.symm.trans hp'
    exact hkept ⟨q, hq, by rw [hquid, ← hpuid, hneeds]⟩
  sound := by
    intro old new hget
    obtain ⟨rewrite, hrewrite, rfl⟩ := Option.map_eq_some_iff.mp hget
    obtain ⟨pair, hpair, hold, hnewuid⟩ := hremap.sound old rewrite hrewrite
    obtain ⟨j, hj⟩ := List.mem_iff_getElem?.mp hpair
    obtain ⟨hbefore, hafter⟩ := List.getElem?_zip_eq_some.mp hj
    refine ⟨j, ⟨pair.1, hbefore, hold.2⟩, name_eq_some_iff.mpr ⟨pair.1, hbefore, hold.1⟩, ?_⟩
    rw [TraceRoot.name, hitems, List.getElem?_map, hafter, Option.map_some, Option.bind_some,
      TraceItem.relinked_uid, hnewuid]
  complete := by
    rintro j old ⟨item, hget, hneeds⟩ hname
    obtain ⟨item', hget', huid⟩ := name_eq_some_iff.mp hname
    cases hget.symm.trans hget'
    have hpair : (item, _) ∈ root.items.zip (renew new_v4 root.items 0).1 :=
      List.mem_of_getElem? (List.getElem?_zip_eq_some.mpr ⟨hget, renew_getElem? hget⟩)
    obtain ⟨rewrite, hrewrite⟩ := hremap.complete _ hpair old ⟨huid, hneeds⟩
    exact ⟨rewrite.2, by rw [hrewrite, Option.map_some]⟩
  links := by
    rintro position ⟨item, hget, hkind⟩
    rw [TraceRoot.link, TraceRoot.link, after_getElem? hitems hget, hget, Option.bind_some,
      Option.bind_some]
    have hlinks : ((if needs_new_uuid item.uid then
        item.with_uid (new_v4 (renew new_v4 (root.items.take position.1) 0).2)
        else item).relinked remap).links = item.links.map (rewrite_link remap) := by
      by_cases hneeds : needs_new_uuid item.uid = true
      · rw [if_pos hneeds, TraceItem.relinked_links (by rwa [TraceItem.with_uid_kind]),
          TraceItem.with_uid_links]
      · rw [if_neg hneeds, TraceItem.relinked_links hkind]
    rw [hlinks, List.getElem?_map]
    refine congrArg (fun follow => Option.map follow item.links[position.2]?) (funext fun old => ?_)
    rw [rewrite_link]
    cases remap.get old <;> rfl
  others := by
    intro position hsys
    cases hget : root.items[position.1]? with
    | none => rw [TraceRoot.link, TraceRoot.link, hget, after_none hitems hget]
    | some item =>
      have hkind : item.kind = .SYS := by
        by_contra hkind
        exact hsys ⟨item, hget, hkind⟩
      rw [TraceRoot.link, TraceRoot.link, after_getElem? hitems hget, hget, Option.bind_some,
        Option.bind_some]
      by_cases hneeds : needs_new_uuid item.uid = true
      · rw [if_pos hneeds, TraceItem.relinked_sys (by rwa [TraceItem.with_uid_kind]),
          TraceItem.with_uid_links]
      · rw [if_neg hneeds, TraceItem.relinked_sys hkind]

omit [UuidFormat] in
theorem Updates.heads {loaded loaded' : LoadedRoot} {changed : Changed}
    (h : Updates loaded loaded' changed) : loaded'.heads = loaded.heads := by
  obtain ⟨-, sys, hsys⟩ := h.sys
  obtain ⟨-, hlr, hhlr⟩ := h.hlr
  obtain ⟨-, llr, hllr⟩ := h.llr
  obtain ⟨-, tests, htests⟩ := h.tests
  obtain ⟨-, derived, hderived⟩ := h.derived
  rw [LoadedRoot.heads, LoadedRoot.heads, hsys, hhlr, hllr, htests, hderived]
  simp only [Option.map_map]
  rfl

/-- All that a run keeps, whatever the links are. -/
theorem after_valid (hvalid : ∀ n < root.items.length, parse_str_ok (new_v4 n) = true)
    (hitems : after.items = (renew new_v4 root.items 0).1.map (TraceItem.relinked remap)) :
    ∀ item ∈ after.items, ∃ uid, item.uid = some uid ∧ parse_str_ok uid = true := by
  intro item hitem
  obtain ⟨j, hj⟩ := List.mem_iff_getElem?.mp hitem
  cases hget : root.items[j]? with
  | none =>
    rw [after_none hitems hget] at hj
    cases hj
  | some old =>
    rw [after_getElem? hitems hget, Option.some.injEq] at hj
    rw [← hj, TraceItem.relinked_uid]
    by_cases hneeds : needs_new_uuid old.uid = true
    · rw [if_pos hneeds, TraceItem.with_uid_uid]
      exact ⟨_, rfl, hvalid _ (renew_take_bound hget)⟩
    · rw [if_neg hneeds]
      cases huid : old.uid with
      | none =>
        rw [huid] at hneeds
        exact absurd rfl hneeds
      | some uid =>
        rw [huid, needs_new_uuid_some, Bool.not_eq_false] at hneeds
        exact ⟨uid, rfl, hneeds⟩

theorem after_blank (hitems : after.items =
      (renew new_v4 root.items 0).1.map (TraceItem.relinked remap)) :
    after.items.map TraceItem.blank = root.items.map TraceItem.blank := by
  refine List.ext_getElem? fun j => ?_
  rw [List.getElem?_map, List.getElem?_map]
  cases hget : root.items[j]? with
  | none => rw [after_none hitems hget]
  | some item =>
    rw [after_getElem? hitems hget, Option.map_some, Option.map_some, TraceItem.relinked_blank]
    by_cases hneeds : needs_new_uuid item.uid = true
    · rw [if_pos hneeds, TraceItem.with_uid_blank]
    · rw [if_neg hneeds]

end Run

theorem followed_iff {root : TraceRoot} :
    Followed root ↔ ∀ (position : ℕ × ℕ) (j : ℕ), Refers root.name root.link position j →
      (∃ item, root.items[j]? = some item ∧ needs_new_uuid item.uid = true) →
        (∃ item, root.items[position.1]? = some item ∧ item.kind ≠ .SYS) ∧
          ∀ i, root.name i = root.name j → i = j := by
  constructor
  · rintro hfollowed position j hnames ⟨item, hget, hneeds⟩
    obtain ⟨old, hlink, hname⟩ := hnames
    obtain ⟨item', hget', huid⟩ := name_eq_some_iff.mp hname
    cases hget.symm.trans hget'
    rw [huid, needs_new_uuid_some] at hneeds
    obtain ⟨hkind, hunique⟩ := hfollowed position j ⟨old, hlink, hname⟩ old hname hneeds
    obtain ⟨source, hsource, -⟩ := link_eq_some_iff.mp hlink
    exact ⟨⟨source, hsource, hkind source hsource⟩, fun i hi => hunique i (hi.trans hname)⟩
  · intro hfollowed position j hnames old hname hplaceholder
    obtain ⟨item, hget, huid⟩ := name_eq_some_iff.mp hname
    have hneeds : needs_new_uuid item.uid = true := by
      rw [huid]
      exact needs_new_uuid_some.mpr hplaceholder
    obtain ⟨⟨source, hsource, hkind⟩, hunique⟩ := hfollowed position j hnames ⟨item, hget, hneeds⟩
    refine ⟨fun other hother => ?_, fun i hi => hunique i (hi.trans hname.symm)⟩
    cases hsource.symm.trans hother
    exact hkind

/-- **Backfilling keeps the reference structure exactly when** nothing stops the run and every
placeholder that a link names belongs to one entry, and no link of the system layer names one; or
when the run stops before it writes. -/
theorem backfill_uuids_iff {root : TraceRoot}
    (hvalid : ∀ n < root.items.length, parse_str_ok (new_v4 n) = true)
    (hinj : ∀ m < root.items.length, ∀ n < root.items.length, new_v4 m = new_v4 n → m = n)
    (hnew : ∀ n < root.items.length, ∀ item ∈ root.items,
      item.uid ≠ some (new_v4 n) ∧ new_v4 n ∉ item.links) :
    (∀ total after, backfill_uuids new_v4 root = .ok (total, after) → Backfilled root after) ↔
      root.Unreadable ∨ Clashing root.loaded.layers ∨ Followed root := by
  constructor
  · intro hkeeps
    by_cases hreadable : root.Unreadable
    · exact .inl hreadable
    by_cases hclash : Clashing root.loaded.layers
    · exact .inr (.inl hclash)
    obtain ⟨⟨total, after⟩, hok⟩ : ∃ out, backfill_uuids new_v4 root = .ok out :=
      backfill_uuids_ok_iff.mpr ⟨hreadable, hclash⟩
    obtain ⟨remap, hitems, hremap, -⟩ := backfill_uuids_ok hok
    have hrenaming := backfill_renaming hinj hnew hitems hremap
    exact .inr (.inr (followed_iff.mpr (hrenaming.faithful_iff.mp
      (hkeeps total after hok).references)))
  · intro hcondition total after hok
    obtain ⟨hreadable, hclash⟩ := backfill_uuids_ok_iff.mp ⟨_, hok⟩
    have hfollowed : Followed root := (hcondition.resolve_left hreadable).resolve_left hclash
    obtain ⟨remap, hitems, hremap, hread, changed, hupdates⟩ := backfill_uuids_ok hok
    have hrenaming := backfill_renaming hinj hnew hitems hremap
    have hafter := after_valid hvalid hitems
    refine ⟨hafter, ?_, hupdates.heads, after_blank hitems,
      hrenaming.faithful_iff.mpr (followed_iff.mp hfollowed), ?_⟩
    · intro j uid hname huid
      refine (hrenaming.kept j ?_).trans hname
      rintro ⟨item, hget, hneeds⟩
      obtain ⟨item', hget', hitem⟩ := name_eq_some_iff.mp hname
      cases hget.symm.trans hget'
      rw [hitem, needs_new_uuid_some, huid] at hneeds
      cases hneeds
    · intro later
      refine backfill_uuids_valid hread fun item hitem => ?_
      obtain ⟨uid, huid, hok⟩ := hafter item hitem
      rw [huid, ← Bool.not_eq_true, needs_new_uuid_some, hok]
      exact Bool.noConfusion

end Uuids

/-! ## Two requirements of one placeholder -/

attribute [local instance] uuid_texts

/-- The uuids of a run. -/
def sample_uuid (n : ℕ) : String := "0b5f5a1e-6f0c-4c59-9d5e-0a1f0f3f6b0" ++ decimal n

def sample_head : TraceMeta := ⟨"DOC-1", "1.0"⟩

/-- High-level requirements with their placeholders, and a low-level one that refines the
first. -/
def sample_root (placeholders : List String) : TraceRoot where
  sys := .Absent
  hlr := .Parsed ⟨⟨"1"⟩, sample_head,
    placeholders.map fun uid => { small_hlr uid with uid := some uid }⟩
  llr := .Parsed ⟨⟨"1"⟩, sample_head,
    [{ small_llr "LLR-001" with uid := some "LLR-001", traces_to := ["HLR-001"] }]⟩
  tests := .Absent
  derived := .Absent

/-- The condition at a trace with different placeholders. -/
theorem backfill_uuids_distinct :
    (∀ total after, backfill_uuids sample_uuid (sample_root ["HLR-001", "HLR-002"]) =
        .ok (total, after) → Backfilled (sample_root ["HLR-001", "HLR-002"]) after) ↔
      (sample_root ["HLR-001", "HLR-002"]).Unreadable ∨
        Clashing (sample_root ["HLR-001", "HLR-002"]).loaded.layers ∨
        Followed (sample_root ["HLR-001", "HLR-002"]) :=
  backfill_uuids_iff (by decide +kernel) (by decide +kernel) (by decide +kernel)

/-- **Two requirements may have one placeholder**: a link that names both names the second one
alone afterwards. -/
theorem backfill_uuids_redirects : ∃ total after,
    backfill_uuids sample_uuid (sample_root ["HLR-001", "HLR-001"]) = .ok (total, after) ∧
      ¬ Backfilled (sample_root ["HLR-001", "HLR-001"]) after := by
  have hrun : (backfill_uuids sample_uuid (sample_root ["HLR-001", "HLR-001"])).toOption.map
      (fun out => (out.2.name 0, out.2.link (2, 0))) =
        some (some (sample_uuid 0), some (sample_uuid 1)) := by
    decide +kernel
  cases hok : backfill_uuids sample_uuid (sample_root ["HLR-001", "HLR-001"]) with
  | error failure =>
    rw [hok] at hrun
    cases hrun
  | ok out =>
    rw [hok] at hrun
    have hafter : (out.2.name 0, out.2.link (2, 0)) =
        (some (sample_uuid 0), some (sample_uuid 1)) := Option.some.inj hrun
    rw [Prod.mk.injEq] at hafter
    refine ⟨out.1, out.2, rfl, fun hkeeps => ?_⟩
    obtain ⟨link, hlink, hname⟩ := (hkeeps.references (2, 0) 0).mpr ⟨"HLR-001", rfl, rfl⟩
    rw [hafter.2] at hlink
    rw [hafter.1, ← hlink] at hname
    exact absurd hname (by decide +kernel)

end Evidence.Trace
