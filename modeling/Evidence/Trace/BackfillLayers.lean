/-
What the phases of `backfill_uuids` do, layer by layer.

All entries of a root are one list of items, layer after layer. Phase 2 gives a fresh uuid to each
item that needs one (`renew`), and its remaps lead from the placeholders to the new uids
(`Remaps`); phase 3 lets the links of all layers but the system one follow
(`TraceItem.relinked`); and what phase 4 leaves unwritten has not changed (`Updated`).
-/
import Evidence.Lib.Check
import Evidence.Trace.Backfill

set_option autoImplicit false

namespace Evidence.Trace

open Check

/-! ## Items -/

/-- What a file holds; nothing, if it is absent or not readable. -/
def TraceFile.loaded {φ : Type} : TraceFile φ → Option φ
  | .Parsed file => some file
  | .Absent => none
  | .Unreadable => none

def layer_items {φ ε : Type} (entries : φ → List ε) (item : ε → TraceItem) (file : Option φ) :
    List TraceItem := file.elim [] fun file => (entries file).map item

def LoadedRoot.layers (root : LoadedRoot) : List (List TraceItem) :=
  [layer_items HlrFile.requirements .Sys root.sys, layer_items HlrFile.requirements .Hlr root.hlr,
    layer_items LlrFile.requirements .Llr root.llr, layer_items TestsFile.tests .Test root.tests,
    layer_items DerivedFile.requirements .Derived root.derived]

def TraceRoot.loaded (root : TraceRoot) : LoadedRoot where
  sys := root.sys.loaded
  hlr := root.hlr.loaded
  llr := root.llr.loaded
  tests := root.tests.loaded
  derived := root.derived.loaded

/-- The entries of a root, layer after layer. -/
def TraceRoot.items (root : TraceRoot) : List TraceItem := root.loaded.layers.flatten

def TraceItem.with_uid (item : TraceItem) (uid : String) : TraceItem :=
  match item with
  | .Sys entry => .Sys (entry.with_uid uid)
  | .Hlr entry => .Hlr (entry.with_uid uid)
  | .Llr entry => .Llr (entry.with_uid uid)
  | .Test entry => .Test (entry.with_uid uid)
  | .Derived entry => .Derived (entry.with_uid uid)

@[simp] theorem TraceItem.with_uid_uid (item : TraceItem) (uid : String) :
    (item.with_uid uid).uid = some uid := by
  cases item <;> rfl

@[simp] theorem TraceItem.with_uid_links (item : TraceItem) (uid : String) :
    (item.with_uid uid).links = item.links := by
  cases item <;> rfl

@[simp] theorem TraceItem.with_uid_kind (item : TraceItem) (uid : String) :
    (item.with_uid uid).kind = item.kind := by
  cases item <;> rfl

/-- An item whose links follow a remap; those of the system layer stay. -/
def TraceItem.relinked (remap : Remap) (item : TraceItem) : TraceItem :=
  match item with
  | .Sys entry => .Sys entry
  | .Hlr entry => .Hlr (entry.with_links (rewrite_traces_to entry.traces_to remap).1)
  | .Llr entry => .Llr (entry.with_links (rewrite_traces_to entry.traces_to remap).1)
  | .Test entry => .Test (entry.with_links (rewrite_traces_to entry.traces_to remap).1)
  | .Derived entry => .Derived entry

@[simp] theorem TraceItem.relinked_uid (remap : Remap) (item : TraceItem) :
    (item.relinked remap).uid = item.uid := by
  cases item <;> rfl

theorem TraceItem.relinked_links {remap : Remap} {item : TraceItem} (h : item.kind ≠ .SYS) :
    (item.relinked remap).links = item.links.map (rewrite_link remap) := by
  cases item with
  | Sys entry => exact absurd rfl h
  | Hlr | Llr | Test | Derived => rfl

theorem TraceItem.relinked_sys {remap : Remap} {item : TraceItem} (h : item.kind = .SYS) :
    item.relinked remap = item := by
  cases item with
  | Sys entry => rfl
  | Hlr | Llr | Test | Derived => cases h

/-- An item without its uid, and without the texts of its links. -/
def TraceItem.blank (item : TraceItem) : TraceItem :=
  match item with
  | .Sys entry => .Sys { entry with uid := none, traces_to := entry.traces_to.map fun _ => "" }
  | .Hlr entry => .Hlr { entry with uid := none, traces_to := entry.traces_to.map fun _ => "" }
  | .Llr entry => .Llr { entry with uid := none, traces_to := entry.traces_to.map fun _ => "" }
  | .Test entry => .Test { entry with uid := none, traces_to := entry.traces_to.map fun _ => "" }
  | .Derived entry => .Derived { entry with uid := none }

theorem TraceItem.with_uid_blank (item : TraceItem) (uid : String) :
    (item.with_uid uid).blank = item.blank := by
  cases item <;> rfl

theorem TraceItem.relinked_blank (remap : Remap) (item : TraceItem) :
    (item.relinked remap).blank = item.blank := by
  have hmap : ∀ links : List String,
      ((rewrite_traces_to links remap).1.map fun _ => "") = links.map fun _ => "" := by
    intro links
    rw [rewrite_traces_to, List.map_map]
    rfl
  cases item with
  | Sys entry => rfl
  | Hlr entry => simp only [relinked, blank, HlrEntry.with_links, hmap]
  | Llr entry => simp only [relinked, blank, LlrEntry.with_links, hmap]
  | Test entry => simp only [relinked, blank, TestEntry.with_links, hmap]
  | Derived entry => rfl

section Uuids

variable [UuidFormat] {new_v4 : ℕ → String}

/-! ## Renewing -/

/-- Fresh uuids for the items that need one, from a position of the supply on. -/
def renew (new_v4 : ℕ → String) : List TraceItem → ℕ → List TraceItem × ℕ
  | [], next => ([], next)
  | item :: rest, next =>
    if needs_new_uuid item.uid then
      (item.with_uid (new_v4 next) :: (renew new_v4 rest (next + 1)).1,
        (renew new_v4 rest (next + 1)).2)
    else (item :: (renew new_v4 rest next).1, (renew new_v4 rest next).2)

theorem renew_append (items more : List TraceItem) (next : ℕ) :
    renew new_v4 (items ++ more) next =
      ((renew new_v4 items next).1 ++ (renew new_v4 more (renew new_v4 items next).2).1,
        (renew new_v4 more (renew new_v4 items next).2).2) := by
  induction items generalizing next with
  | nil => rfl
  | cons item items ih =>
    rw [List.cons_append, renew, renew]
    by_cases hneeds : needs_new_uuid item.uid = true
    · rw [if_pos hneeds, if_pos hneeds, ih, List.cons_append]
    · rw [if_neg hneeds, if_neg hneeds, ih, List.cons_append]

theorem le_renew_next (items : List TraceItem) (next : ℕ) :
    next ≤ (renew new_v4 items next).2 := by
  induction items generalizing next with
  | nil => exact le_refl _
  | cons item items ih =>
    rw [renew]
    by_cases hneeds : needs_new_uuid item.uid = true
    · rw [if_pos hneeds]
      have hrest := ih (next + 1)
      omega
    · rw [if_neg hneeds]
      exact ih next

theorem renew_next_le (items : List TraceItem) (next : ℕ) :
    (renew new_v4 items next).2 ≤ next + items.length := by
  induction items generalizing next with
  | nil => exact le_refl _
  | cons item items ih =>
    rw [renew, List.length_cons]
    by_cases hneeds : needs_new_uuid item.uid = true
    · rw [if_pos hneeds]
      have hrest := ih (next + 1)
      dsimp only
      omega
    · rw [if_neg hneeds]
      have hrest := ih next
      dsimp only
      omega

/-- Nothing changes when no uuid is taken. -/
theorem renew_same {items : List TraceItem} {next : ℕ} (h : (renew new_v4 items next).2 = next) :
    (renew new_v4 items next).1 = items := by
  induction items with
  | nil => rfl
  | cons item items ih =>
    rw [renew] at h ⊢
    by_cases hneeds : needs_new_uuid item.uid = true
    · rw [if_pos hneeds] at h
      have hrest : next + 1 ≤ (renew new_v4 items (next + 1)).2 := le_renew_next _ _
      dsimp only at h
      omega
    · rw [if_neg hneeds] at h ⊢
      exact congrArg (item :: ·) (ih h)

theorem renew_length (items : List TraceItem) (next : ℕ) :
    (renew new_v4 items next).1.length = items.length := by
  induction items generalizing next with
  | nil => rfl
  | cons item items ih =>
    rw [renew]
    by_cases hneeds : needs_new_uuid item.uid = true
    · rw [if_pos hneeds, List.length_cons, List.length_cons, ih]
    · rw [if_neg hneeds, List.length_cons, List.length_cons, ih]

/-- What becomes of the item at a position. -/
theorem renew_getElem? {items : List TraceItem} {next i : ℕ} {item : TraceItem}
    (h : items[i]? = some item) :
    (renew new_v4 items next).1[i]? =
      some (if needs_new_uuid item.uid then
        item.with_uid (new_v4 (renew new_v4 (items.take i) next).2) else item) := by
  obtain ⟨hlt, hget⟩ := List.getElem?_eq_some_iff.mp h
  have hsplit : items = items.take i ++ item :: items.drop (i + 1) := by
    rw [← hget, List.cons_getElem_drop_succ, List.take_append_drop]
  have hlength : (renew new_v4 (items.take i) next).1.length = i := by
    rw [renew_length, List.length_take, Nat.min_eq_left (Nat.le_of_lt hlt)]
  conv_lhs => rw [hsplit]
  rw [renew_append, List.getElem?_append_right (le_of_eq hlength), hlength, Nat.sub_self, renew]
  by_cases hneeds : needs_new_uuid item.uid = true
  · rw [if_pos hneeds, if_pos hneeds]
    rfl
  · rw [if_neg hneeds, if_neg hneeds]
    rfl

theorem renew_take_bound {items : List TraceItem} {j : ℕ} {item : TraceItem}
    (h : items[j]? = some item) : (renew new_v4 (items.take j) 0).2 < items.length := by
  have hlt := (List.getElem?_eq_some_iff.mp h).1
  have hle : (renew new_v4 (items.take j) 0).2 ≤ 0 + (items.take j).length :=
    renew_next_le _ _
  rw [List.length_take] at hle
  omega

theorem renew_take_lt {items : List TraceItem} {next i j : ℕ} {item : TraceItem}
    (h : items[i]? = some item) (hneeds : needs_new_uuid item.uid = true) (hlt : i < j) :
    (renew new_v4 (items.take i) next).2 < (renew new_v4 (items.take j) next).2 := by
  have hsplit : items.take j = items.take i ++ item :: (items.take j).drop (i + 1) := by
    have hget : (items.take j)[i]? = some item := by
      rw [List.getElem?_take_of_lt hlt, h]
    obtain ⟨hi, hget⟩ := List.getElem?_eq_some_iff.mp hget
    have htake : items.take i = (items.take j).take i := by
      rw [List.take_take, Nat.min_eq_left (Nat.le_of_lt hlt)]
    rw [htake, ← hget, List.cons_getElem_drop_succ, List.take_append_drop]
  rw [hsplit, renew_append, renew, if_pos hneeds]
  exact le_renew_next _ _

/-! ## Remaps -/

/-- A placeholder: a uid that is no valid uuid. -/
def Placeholder (item : TraceItem) (old : String) : Prop :=
  item.uid = some old ∧ needs_new_uuid item.uid = true

/-- The remap of some items and what they have become: it leads from the placeholders to the new
uids. -/
structure Remaps (pairs : List (TraceItem × TraceItem)) (remap : Remap) : Prop where
  sound : ∀ old rewrite, remap.get old = some rewrite →
    ∃ pair ∈ pairs, Placeholder pair.1 old ∧ pair.2.uid = some rewrite.2
  complete : ∀ pair ∈ pairs, ∀ old, Placeholder pair.1 old → ∃ rewrite, remap.get old = some rewrite

theorem Remaps.nil : Remaps [] Store.empty := by
  constructor
  · intro old rewrite hget
    rw [Store.get_empty] at hget
    cases hget
  · intro pair hpair
    cases hpair

theorem Remaps.skip {pairs : List (TraceItem × TraceItem)} {remap : Remap}
    {pair : TraceItem × TraceItem} (h : Remaps pairs remap)
    (hpair : ∀ old, ¬ Placeholder pair.1 old) : Remaps (pairs ++ [pair]) remap := by
  constructor
  · intro old rewrite hget
    obtain ⟨found, hfound, hrest⟩ := h.sound old rewrite hget
    exact ⟨found, List.mem_append_left _ hfound, hrest⟩
  · intro found hfound old hold
    rcases List.mem_append.mp hfound with hfound | hfound
    · exact h.complete found hfound old hold
    · rw [List.mem_singleton.mp hfound] at hold
      exact absurd hold (hpair old)

theorem Remaps.put {pairs : List (TraceItem × TraceItem)} {remap : Remap}
    {pair : TraceItem × TraceItem} {old new : String} (h : Remaps pairs remap)
    (hold : Placeholder pair.1 old) (hnew : pair.2.uid = some new) :
    Remaps (pairs ++ [pair]) (remap.put (old, new)) := by
  constructor
  · intro o rewrite hget
    rw [Store.get_put] at hget
    by_cases hsame : old = o
    · rw [if_pos hsame, Option.some.injEq] at hget
      refine ⟨pair, List.mem_append_right _ List.mem_cons_self, hsame ▸ hold, ?_⟩
      rw [hnew, ← hget]
    · rw [if_neg hsame] at hget
      obtain ⟨found, hfound, hrest⟩ := h.sound o rewrite hget
      exact ⟨found, List.mem_append_left _ hfound, hrest⟩
  · intro found hfound o ho
    rw [Store.get_put]
    by_cases hsame : old = o
    · rw [if_pos hsame]
      exact ⟨_, rfl⟩
    · rw [if_neg hsame]
      rcases List.mem_append.mp hfound with hfound | hfound
      · exact h.complete found hfound o ho
      · rw [List.mem_singleton.mp hfound] at ho
        exact absurd (Option.some.inj (hold.1.symm.trans ho.1)) hsame

/-- Two remaps of which the first has no key of the second. -/
theorem Remaps.merge {pairs more : List (TraceItem × TraceItem)} {remap remap' merged : Remap}
    (h : Remaps pairs remap) (h' : Remaps more remap')
    (hget : ∀ old, merged.get old = (remap'.get old).or (remap.get old)) :
    Remaps (pairs ++ more) merged := by
  constructor
  · intro old rewrite hmerged
    rw [hget, Option.or_eq_some_iff] at hmerged
    rcases hmerged with hnew | ⟨-, hold⟩
    · obtain ⟨found, hfound, hrest⟩ := h'.sound old rewrite hnew
      exact ⟨found, List.mem_append_right _ hfound, hrest⟩
    · obtain ⟨found, hfound, hrest⟩ := h.sound old rewrite hold
      exact ⟨found, List.mem_append_left _ hfound, hrest⟩
  · intro found hfound old hold
    rw [hget]
    rcases List.mem_append.mp hfound with hfound | hfound
    · obtain ⟨rewrite, hrewrite⟩ := h.complete found hfound old hold
      cases hnew : remap'.get old with
      | none => exact ⟨rewrite, hrewrite⟩
      | some other => exact ⟨other, rfl⟩
    · obtain ⟨rewrite, hrewrite⟩ := h'.complete found hfound old hold
      exact ⟨rewrite, by rw [hrewrite]; rfl⟩

omit [UuidFormat] in
theorem foldlM_merge (dst : Remap) (rewrites : List (String × String))
    (hnodup : (rewrites.map Prod.fst).Nodup) :
    (∃ merged : Remap, rewrites.foldlM merge_rewrite dst = .ok merged ∧
        (∀ old, merged.get old = (rewrites.find? fun r => r.1 = old).or (dst.get old)) ∧
        ∀ rewrite ∈ rewrites, dst.get rewrite.1 = none) ∨
      ∃ failure, rewrites.foldlM merge_rewrite dst = .error failure ∧
        ∃ rewrite ∈ rewrites, dst.get rewrite.1 ≠ none := by
  induction rewrites generalizing dst with
  | nil => exact .inl ⟨dst, rfl, fun old => rfl, fun rewrite h => absurd h List.not_mem_nil⟩
  | cons rewrite rewrites ih =>
    obtain ⟨hfirst, hrest⟩ := List.nodup_cons.mp hnodup
    have hother : ∀ r ∈ rewrites, r.1 ≠ rewrite.1 := by
      intro r hr heq
      exact hfirst (heq ▸ List.mem_map_of_mem hr)
    rw [List.foldlM_cons]
    cases hget : dst.get rewrite.1 with
    | some existing =>
      right
      refine ⟨.DuplicatePlaceholder rewrite.1 existing.2 rewrite.2, ?_, rewrite,
        List.mem_cons_self, ?_⟩
      · rw [merge_rewrite, hget]
        rfl
      · rw [hget]
        exact Option.some_ne_none _
    | none =>
      have hstep : merge_rewrite dst rewrite = .ok (dst.put rewrite) := by
        rw [merge_rewrite, hget]
      have hput : ∀ r ∈ rewrites, (dst.put rewrite).get r.1 = dst.get r.1 := by
        intro r hr
        rw [Store.get_put, if_neg (hother r hr).symm]
      rw [hstep]
      rcases ih (dst.put rewrite) hrest with
        ⟨merged, hok, hall, hnone⟩ | ⟨failure, herror, r, hr, hin⟩
      · refine .inl ⟨merged, hok, fun old => ?_, ?_⟩
        · rw [hall, Store.get_put, List.find?_cons]
          by_cases hsame : rewrite.1 = old
          · have hnot : rewrites.find? (fun r => decide (r.1 = old)) = none := by
              rw [List.find?_eq_none]
              intro r hr heq
              exact hother r hr ((of_decide_eq_true heq).trans hsame.symm)
            rw [hnot, if_pos hsame, decide_eq_true hsame]
            rfl
          · rw [if_neg hsame, decide_eq_false hsame]
        · intro r hr
          rcases List.mem_cons.mp hr with rfl | hr
          · exact hget
          · rw [← hput r hr]
            exact hnone r hr
      · exact .inr ⟨failure, herror, r, List.mem_cons_of_mem _ hr, hput r hr ▸ hin⟩

omit [UuidFormat] in
/-- **Merging** stops at a key that both have, and otherwise has all. -/
theorem merge_remap_cases (dst src : Remap) :
    (∃ merged, merge_remap dst src = .ok merged ∧
        (∀ old, merged.get old = (src.get old).or (dst.get old)) ∧
        ∀ rewrite ∈ src.values, dst.get rewrite.1 = none) ∨
      ∃ failure, merge_remap dst src = .error failure ∧
        ∃ rewrite ∈ src.values, dst.get rewrite.1 ≠ none := by
  have hcases := foldlM_merge dst src.values src.values_keys_nodup
  simp only [Store.find?_values] at hcases
  exact hcases

/-! ## One layer -/

/-- What the loop over a file's entries has come to. -/
structure AssignedFrom {ε : Type} (new_v4 : ℕ → String) (item : ε → TraceItem) (start : ℕ)
    (done : List ε) (state : Assigned ε) : Prop where
  renewed : (state.entries.map item, state.next) = renew new_v4 (done.map item) start
  count : state.next = start + state.count
  remap : Remaps ((done.map item).zip (state.entries.map item)) state.remap

section Layer

variable {ε : Type} {uid : ε → Option String} {with_uid : ε → String → ε} {item : ε → TraceItem}

theorem AssignedFrom.entry {start : ℕ} {done : List ε} {state : Assigned ε} (e : ε)
    (huid : ∀ e, (item e).uid = uid e)
    (hwith : ∀ e new, item (with_uid e new) = (item e).with_uid new)
    (h : AssignedFrom new_v4 item start done state) :
    AssignedFrom new_v4 item start (done ++ [e]) (assign_entry new_v4 uid with_uid state e) := by
  have hlength : (done.map item).length = (state.entries.map item).length := by
    have hrenewed := congrArg (fun r => r.1.length) h.renewed
    rw [renew_length] at hrenewed
    exact hrenewed.symm
  have hnext : (renew new_v4 (done.map item) start).2 = state.next := by rw [← h.renewed]
  have hafter : (renew new_v4 (done.map item) start).1 = state.entries.map item := by
    rw [← h.renewed]
  have hdone : (done ++ [e]).map item = done.map item ++ [item e] := List.map_append
  have hzip : ∀ e' : ε, ((done ++ [e]).map item).zip ((state.entries ++ [e']).map item) =
      (done.map item).zip (state.entries.map item) ++ [(item e, item e')] := by
    intro e'
    rw [List.map_append, List.map_append, List.zip_append hlength]
    rfl
  by_cases hneeds : needs_new_uuid (uid e) = true
  · have hstate : assign_entry new_v4 uid with_uid state e =
        { entries := state.entries ++ [with_uid e (new_v4 state.next)]
          count := state.count + 1
          remap := (uid e).elim state.remap fun old => state.remap.put (old, new_v4 state.next)
          next := state.next + 1 } := by
      rw [assign_entry, rewrite_uid_if_needed, if_pos hneeds]
      cases uid e <;> rfl
    rw [hstate]
    refine ⟨?_, ?_, ?_⟩
    · rw [hdone, renew_append, hnext, hafter, renew, huid, if_pos hneeds, List.map_append,
        List.map_singleton, hwith]
      rfl
    · show state.next + 1 = start + (state.count + 1)
      rw [h.count]
      rfl
    · rw [hzip]
      cases hold : uid e with
      | none =>
        refine h.remap.skip ?_
        rintro old ⟨hsome, -⟩
        rw [huid, hold] at hsome
        cases hsome
      | some old =>
        refine h.remap.put ⟨?_, ?_⟩ ?_
        · rw [huid, hold]
        · rw [huid]
          exact hneeds
        · rw [hwith, TraceItem.with_uid_uid]
  · have hstate : assign_entry new_v4 uid with_uid state e =
        { state with entries := state.entries ++ [e] } := by
      rw [assign_entry, rewrite_uid_if_needed, if_neg hneeds]
      rfl
    rw [hstate]
    refine ⟨?_, h.count, ?_⟩
    · rw [hdone, renew_append, hnext, hafter, renew, huid, if_neg hneeds, List.map_append]
      rfl
    · rw [hzip]
      refine h.remap.skip ?_
      rintro old ⟨-, hplaceholder⟩
      rw [huid] at hplaceholder
      exact hneeds hplaceholder

/-- **A file's entries are renewed**, and its remap is theirs. -/
theorem assign_valid_uuids_spec (entries : List ε) (start : ℕ) (huid : ∀ e, (item e).uid = uid e)
    (hwith : ∀ e new, item (with_uid e new) = (item e).with_uid new) :
    AssignedFrom new_v4 item start entries
      (assign_valid_uuids new_v4 uid with_uid entries start) := by
  induction entries using List.reverseRecOn with
  | nil => exact ⟨rfl, rfl, .nil⟩
  | append_singleton entries e ih =>
    rw [assign_valid_uuids, List.foldl_append]
    exact ih.entry e huid hwith

end Layer

/-- What the layers so far have come to. -/
structure Layered (new_v4 : ℕ → String) (before after : List TraceItem) (state : Backfill) :
    Prop where
  renewed : (after, state.next) = renew new_v4 before 0
  total : state.total = state.next
  remap : Remaps (before.zip after) state.remap

theorem Layered.length {before after : List TraceItem} {state : Backfill}
    (h : Layered new_v4 before after state) : before.length = after.length := by
  have hlength := congrArg (fun r => r.1.length) h.renewed
  rw [renew_length] at hlength
  exact hlength.symm

/-- Two lists of items share a placeholder. -/
def Share (items more : List TraceItem) : Prop :=
  ∃ p ∈ items, ∃ q ∈ more, ∃ old, Placeholder p old ∧ Placeholder q old

theorem Remaps.key_iff {before after : List TraceItem} {remap : Remap}
    (hlength : before.length = after.length) (h : Remaps (before.zip after) remap) {old : String} :
    remap.get old ≠ none ↔ ∃ p ∈ before, Placeholder p old := by
  constructor
  · intro hget
    obtain ⟨rewrite, hrewrite⟩ := Option.ne_none_iff_exists'.mp hget
    obtain ⟨pair, hpair, hold, -⟩ := h.sound old rewrite hrewrite
    exact ⟨pair.1, (List.of_mem_zip hpair).1, hold⟩
  · rintro ⟨p, hp, hold⟩ hnone
    obtain ⟨i, hi⟩ := List.mem_iff_getElem?.mp hp
    have hlt : i < after.length := hlength ▸ (List.getElem?_eq_some_iff.mp hi).1
    have hpair : (p, after.get ⟨i, hlt⟩) ∈ before.zip after := by
      refine List.mem_iff_getElem?.mpr ⟨i, ?_⟩
      rw [List.getElem?_zip_eq_some]
      exact ⟨hi, List.getElem?_eq_getElem hlt⟩
    obtain ⟨rewrite, hrewrite⟩ := h.complete _ hpair old hold
    rw [hnone] at hrewrite
    cases hrewrite

section Layer

variable {φ ε : Type} {entries : φ → List ε} {with_entries : φ → List ε → φ}
  {uid : ε → Option String} {with_uid : ε → String → ε} {item : ε → TraceItem}

/-- A layer is read off its file's entries and written back into them. -/
structure Member (entries : φ → List ε) (with_entries : φ → List ε → φ)
    (uid : ε → Option String) (with_uid : ε → String → ε) (item : ε → TraceItem) : Prop where
  item_uid : ∀ e, (item e).uid = uid e
  item_with_uid : ∀ e new, item (with_uid e new) = (item e).with_uid new
  injective : Function.Injective item
  read_back : ∀ f es, entries (with_entries f es) = es
  rest : ∀ f, with_entries f (entries f) = f

structure Updated (with_entries : φ → List ε → φ) (file file' : Option φ) (changed : Bool) :
    Prop where
  same : changed = false → file' = file
  shape : ∃ es, file' = file.map fun f => with_entries f es

/-- **One layer.** It stops when its placeholders clash with those of the layers before. -/
theorem backfill_layer_cases (file : Option φ) {before after : List TraceItem} {state : Backfill}
    (hmember : Member entries with_entries uid with_uid item)
    (h : Layered new_v4 before after state) :
    (∃ file' changed state',
        backfill_layer entries with_entries (assign_valid_uuids new_v4 uid with_uid) file state =
          .ok (file', changed, state') ∧
        Layered new_v4 (before ++ layer_items entries item file)
          (after ++ layer_items entries item file') state' ∧
        Updated with_entries file file' changed ∧
        ¬ Share before (layer_items entries item file)) ∨
      ∃ failure,
        backfill_layer entries with_entries (assign_valid_uuids new_v4 uid with_uid) file state =
          .error failure ∧ Share before (layer_items entries item file) := by
  cases file with
  | none =>
    left
    refine ⟨none, false, state, rfl, ?_, ⟨fun _ => rfl, [], rfl⟩, ?_⟩
    · rw [layer_items, Option.elim_none, List.append_nil, List.append_nil]
      exact h
    · rintro ⟨p, -, q, hq, -⟩
      cases hq
  | some f =>
    have hspec : AssignedFrom new_v4 item state.next (entries f)
        (assign_valid_uuids new_v4 uid with_uid (entries f) state.next) :=
      assign_valid_uuids_spec _ _ hmember.item_uid hmember.item_with_uid
    generalize hassigned : assign_valid_uuids new_v4 uid with_uid (entries f) state.next = assigned
      at hspec
    have hown : ((entries f).map item).length = (assigned.entries.map item).length := by
      have hrenewed := congrArg (fun r => r.1.length) hspec.renewed
      rw [renew_length] at hrenewed
      exact hrenewed.symm
    rw [backfill_layer, hassigned]
    rcases merge_remap_cases state.remap assigned.remap with
      ⟨merged, hok, hget, hapart⟩ | ⟨failure, herror, rewrite, hrewrite, hin⟩
    · left
      refine ⟨some (with_entries f assigned.entries), assigned.count > 0,
        { total := state.total + assigned.count, remap := merged, next := assigned.next },
        ?_, ⟨?_, ?_, ?_⟩, ⟨?_, ?_⟩, ?_⟩
      · rw [hok]
        rfl
      · show (after ++ (entries (with_entries f assigned.entries)).map item, assigned.next) =
          renew new_v4 (before ++ (entries f).map item) 0
        rw [renew_append, ← h.renewed, ← hspec.renewed, hmember.read_back]
      · show state.total + assigned.count = assigned.next
        rw [h.total, hspec.count]
      · show Remaps ((before ++ (entries f).map item).zip
          (after ++ (entries (with_entries f assigned.entries)).map item)) merged
        rw [hmember.read_back, List.zip_append h.length]
        exact h.remap.merge hspec.remap hget
      · intro hunchanged
        have hcount : assigned.count = 0 := by
          have hnot := of_decide_eq_false hunchanged
          omega
        have hnext : (renew new_v4 ((entries f).map item) state.next).2 = state.next := by
          rw [← hspec.renewed]
          show assigned.next = state.next
          rw [hspec.count, hcount]
          rfl
        have hsame := renew_same hnext
        rw [← hspec.renewed] at hsame
        rw [hmember.injective.list_map hsame, hmember.rest]
      · exact ⟨assigned.entries, rfl⟩
      · rintro ⟨p, hp, q, hq, old, hpold, hqold⟩
        have hkey := (h.remap.key_iff h.length).mpr ⟨p, hp, hpold⟩
        have hnew := (hspec.remap.key_iff hown).mpr ⟨q, hq, hqold⟩
        obtain ⟨rewrite, hrewrite⟩ := Option.ne_none_iff_exists'.mp hnew
        have hnone := hapart rewrite (Store.mem_values_of_get hrewrite)
        have hold : rewrite.1 = old := Store.key_of_get hrewrite
        exact hkey (hold ▸ hnone)
    · right
      refine ⟨failure, ?_, ?_⟩
      · rw [herror]
        rfl
      · obtain ⟨p, hp, hpold⟩ := (h.remap.key_iff h.length).mp hin
        have hnew : assigned.remap.get rewrite.1 ≠ none := by
          rw [Store.mem_values.mp hrewrite]
          exact Option.some_ne_none _
        obtain ⟨q, hq, hqold⟩ := (hspec.remap.key_iff hown).mp hnew
        exact ⟨p, hp, q, hq, rewrite.1, hpold, hqold⟩

end Layer

/-! ## All layers -/

theorem share_append {items more rest : List TraceItem} :
    Share (items ++ more) rest ↔ Share items rest ∨ Share more rest := by
  constructor
  · rintro ⟨p, hp, hshare⟩
    rcases List.mem_append.mp hp with hp | hp
    · exact .inl ⟨p, hp, hshare⟩
    · exact .inr ⟨p, hp, hshare⟩
  · rintro (⟨p, hp, hshare⟩ | ⟨p, hp, hshare⟩)
    · exact ⟨p, List.mem_append_left _ hp, hshare⟩
    · exact ⟨p, List.mem_append_right _ hp, hshare⟩

/-- Two layers share a placeholder. -/
def Clashing (layers : List (List TraceItem)) : Prop :=
  ¬ layers.Pairwise fun upper lower => ¬ Share upper lower

theorem clashing_snoc {layers : List (List TraceItem)} {layer : List TraceItem} :
    Clashing (layers ++ [layer]) ↔ Clashing layers ∨ Share layers.flatten layer := by
  have hflat : (∀ upper ∈ layers, ¬ Share upper layer) ↔ ¬ Share layers.flatten layer := by
    induction layers with
    | nil =>
      constructor
      · rintro - ⟨p, hp, -⟩
        cases hp
      · intro _ upper hupper
        cases hupper
    | cons first layers ih =>
      rw [List.forall_mem_cons, ih, List.flatten_cons, share_append, not_or]
  rw [Clashing, List.pairwise_append, Clashing, ← not_iff_not, not_not, not_or, not_not, ← hflat]
  constructor
  · rintro ⟨hlayers, -, hacross⟩
    exact ⟨hlayers, fun upper hupper => hacross upper hupper layer List.mem_cons_self⟩
  · rintro ⟨hlayers, hacross⟩
    refine ⟨hlayers, List.pairwise_singleton _ _, ?_⟩
    intro upper hupper lower hlower
    rw [List.mem_singleton.mp hlower]
    exact hacross upper hupper


theorem clashing_layers {sys hlr llr tests derived : List TraceItem} :
    Clashing [sys, hlr, llr, tests, derived] ↔
      Share [] sys ∨ Share ([] ++ sys) hlr ∨ Share ([] ++ sys ++ hlr) llr ∨
        Share ([] ++ sys ++ hlr ++ llr) tests ∨
        Share ([] ++ sys ++ hlr ++ llr ++ tests) derived := by
  have hnil : ¬ Clashing [] := not_not_intro List.Pairwise.nil
  have hlist : [sys, hlr, llr, tests, derived] =
      [] ++ [sys] ++ [hlr] ++ [llr] ++ [tests] ++ [derived] := rfl
  rw [hlist, clashing_snoc, clashing_snoc, clashing_snoc, clashing_snoc, clashing_snoc]
  simp only [hnil, false_or, List.flatten_append, List.flatten_singleton, List.flatten_nil,
    or_assoc]

/-- What the phases leave of the files. -/
structure Updates (loaded loaded' : LoadedRoot) (changed : Changed) : Prop where
  sys : Updated HlrFile.with_requirements loaded.sys loaded'.sys changed.sys
  hlr : Updated HlrFile.with_requirements loaded.hlr loaded'.hlr changed.hlr
  llr : Updated LlrFile.with_requirements loaded.llr loaded'.llr changed.llr
  tests : Updated TestsFile.with_tests loaded.tests loaded'.tests changed.tests
  derived : Updated DerivedFile.with_requirements loaded.derived loaded'.derived changed.derived

section Member

variable {φ ε : Type} {entries : φ → List ε} {with_entries : φ → List ε → φ}
  {uid : ε → Option String} {with_uid : ε → String → ε} {item : ε → TraceItem}

theorem Member.layer_ok (hmember : Member entries with_entries uid with_uid item)
    {file : Option φ} {before after : List TraceItem} {state : Backfill}
    {out : Option φ × Bool × Backfill} (h : Layered new_v4 before after state)
    (hok : backfill_layer entries with_entries (assign_valid_uuids new_v4 uid with_uid) file
      state = .ok out) :
    Layered new_v4 (before ++ layer_items entries item file)
        (after ++ layer_items entries item out.1) out.2.2 ∧
      Updated with_entries file out.1 out.2.1 ∧ ¬ Share before (layer_items entries item file) := by
  rcases backfill_layer_cases file hmember h with
    ⟨file', changed, state', hlayer, hrest⟩ | ⟨failure, hlayer, -⟩
  · cases hok.symm.trans hlayer
    exact hrest
  · cases hok.symm.trans hlayer

theorem Member.layer_error (hmember : Member entries with_entries uid with_uid item)
    {file : Option φ} {before after : List TraceItem} {state : Backfill}
    {failure : BackfillFailure} (h : Layered new_v4 before after state)
    (herror : backfill_layer entries with_entries (assign_valid_uuids new_v4 uid with_uid) file
      state = .error failure) : Share before (layer_items entries item file) := by
  rcases backfill_layer_cases file hmember h with
    ⟨file', changed, state', hlayer, -⟩ | ⟨other, -, hshare⟩
  · cases herror.symm.trans hlayer
  · exact hshare

end Member

omit [UuidFormat] in
theorem sys_member : Member HlrFile.requirements HlrFile.with_requirements HlrEntry.uid
    HlrEntry.with_uid .Sys :=
  ⟨fun _ => rfl, fun _ _ => rfl, fun _ _ => TraceItem.Sys.inj, fun _ _ => rfl, fun _ => rfl⟩

omit [UuidFormat] in
theorem hlr_member : Member HlrFile.requirements HlrFile.with_requirements HlrEntry.uid
    HlrEntry.with_uid .Hlr :=
  ⟨fun _ => rfl, fun _ _ => rfl, fun _ _ => TraceItem.Hlr.inj, fun _ _ => rfl, fun _ => rfl⟩

omit [UuidFormat] in
theorem llr_member : Member LlrFile.requirements LlrFile.with_requirements LlrEntry.uid
    LlrEntry.with_uid .Llr :=
  ⟨fun _ => rfl, fun _ _ => rfl, fun _ _ => TraceItem.Llr.inj, fun _ _ => rfl, fun _ => rfl⟩

omit [UuidFormat] in
theorem test_member : Member TestsFile.tests TestsFile.with_tests TestEntry.uid
    TestEntry.with_uid .Test :=
  ⟨fun _ => rfl, fun _ _ => rfl, fun _ _ => TraceItem.Test.inj, fun _ _ => rfl, fun _ => rfl⟩

omit [UuidFormat] in
theorem derived_member : Member DerivedFile.requirements DerivedFile.with_requirements
    DerivedEntry.uid DerivedEntry.with_uid .Derived :=
  ⟨fun _ => rfl, fun _ _ => rfl, fun _ _ => TraceItem.Derived.inj, fun _ _ => rfl, fun _ => rfl⟩

theorem Layered.start : Layered new_v4 [] [] ⟨0, Store.empty, 0⟩ := ⟨rfl, rfl, .nil⟩

/-- **Phase 2**, when it goes through. -/
theorem assign_root_ok {loaded : LoadedRoot} {out : LoadedRoot × Changed × Backfill}
    (h : assign_root new_v4 loaded = .ok out) :
    Layered new_v4 loaded.layers.flatten out.1.layers.flatten out.2.2 ∧
      Updates loaded out.1 out.2.1 ∧ ¬ Clashing loaded.layers := by
  obtain ⟨sys, hsys, h⟩ := bind_ok_iff.mp h
  obtain ⟨hlr, hhlr, h⟩ := bind_ok_iff.mp h
  obtain ⟨llr, hllr, h⟩ := bind_ok_iff.mp h
  obtain ⟨tests, htests, h⟩ := bind_ok_iff.mp h
  obtain ⟨derived, hderived, h⟩ := bind_ok_iff.mp h
  obtain ⟨hlayered, hsys_updated, hno_sys⟩ := sys_member.layer_ok .start hsys
  obtain ⟨hlayered, hhlr_updated, hno_hlr⟩ := hlr_member.layer_ok hlayered hhlr
  obtain ⟨hlayered, hllr_updated, hno_llr⟩ := llr_member.layer_ok hlayered hllr
  obtain ⟨hlayered, htests_updated, hno_tests⟩ := test_member.layer_ok hlayered htests
  obtain ⟨hlayered, hderived_updated, hno_derived⟩ := derived_member.layer_ok hlayered hderived
  cases h
  refine ⟨?_, ⟨hsys_updated, hhlr_updated, hllr_updated, htests_updated, hderived_updated⟩, ?_⟩
  · simp only [LoadedRoot.layers, List.flatten_cons, List.flatten_nil, List.append_nil]
    simpa only [List.nil_append, List.append_assoc] using hlayered
  · rw [LoadedRoot.layers, clashing_layers]
    rintro (hshare | hshare | hshare | hshare | hshare)
    · exact hno_sys hshare
    · exact hno_hlr hshare
    · exact hno_llr hshare
    · exact hno_tests hshare
    · exact hno_derived hshare

/-- **Phase 2 stops at a clash.** -/
theorem assign_root_error {loaded : LoadedRoot} {failure : BackfillFailure}
    (h : assign_root new_v4 loaded = .error failure) : Clashing loaded.layers := by
  rw [LoadedRoot.layers, clashing_layers]
  rcases bind_error_iff.mp h with hsys | ⟨sys, hsys, h⟩
  · exact .inl (sys_member.layer_error .start hsys)
  obtain ⟨hlayered, -, -⟩ := sys_member.layer_ok .start hsys
  rcases bind_error_iff.mp h with hhlr | ⟨hlr, hhlr, h⟩
  · exact .inr (.inl (hlr_member.layer_error hlayered hhlr))
  obtain ⟨hlayered, -, -⟩ := hlr_member.layer_ok hlayered hhlr
  rcases bind_error_iff.mp h with hllr | ⟨llr, hllr, h⟩
  · exact .inr (.inr (.inl (llr_member.layer_error hlayered hllr)))
  obtain ⟨hlayered, -, -⟩ := llr_member.layer_ok hlayered hllr
  rcases bind_error_iff.mp h with htests | ⟨tests, htests, h⟩
  · exact .inr (.inr (.inr (.inl (test_member.layer_error hlayered htests))))
  obtain ⟨hlayered, -, -⟩ := test_member.layer_ok hlayered htests
  rcases bind_error_iff.mp h with hderived | ⟨derived, hderived, h⟩
  · exact .inr (.inr (.inr (.inr (derived_member.layer_error hlayered hderived))))
  · cases h


/-! ## The other phases -/

section Relink

variable {φ ε : Type} {entries : φ → List ε} {with_entries : φ → List ε → φ}
  {links : ε → List String} {with_links : ε → List String → ε} {item : ε → TraceItem}
  {remap : Remap}

omit [UuidFormat] in
theorem relink_layer_items (file : Option φ) (hread : ∀ f es, entries (with_entries f es) = es)
    (hlinks : ∀ e, (item e).relinked remap =
      item (with_links e (rewrite_traces_to (links e) remap).1)) :
    layer_items entries item (relink_layer entries with_entries links with_links remap file).1 =
      (layer_items entries item file).map (TraceItem.relinked remap) := by
  cases file with
  | none => rfl
  | some f =>
    show (entries (with_entries f _)).map item = ((entries f).map item).map _
    rw [hread, List.map_map, List.map_map]
    exact List.map_congr_left fun e _ => (hlinks e).symm

omit [UuidFormat] in
theorem layer_items_unlinked (remap : Remap) (entries : φ → List ε) (item : ε → TraceItem)
    (file : Option φ)
    (hsame : ∀ e, (item e).relinked remap = item e) :
    (layer_items entries item file).map (TraceItem.relinked remap) =
      layer_items entries item file := by
  cases file with
  | none => rfl
  | some f =>
    rw [layer_items, Option.elim_some, List.map_map]
    exact List.map_congr_left fun e _ => hsame e

omit [UuidFormat] in
/-- Links that no rewrite is for stay as they are. -/
theorem rewrite_traces_to_same {refs : List String} (h : (rewrite_traces_to refs remap).2 = false) :
    (rewrite_traces_to refs remap).1 = refs := by
  refine (List.map_congr_left fun r hr => ?_).trans (List.map_id refs)
  have hnone : (remap.get r).isSome = false := by
    rw [Bool.eq_false_iff]
    intro hsome
    exact Bool.eq_false_iff.mp h (List.any_eq_true.mpr ⟨r, hr, hsome⟩)
  rw [Option.isSome_eq_false_iff, Option.isNone_iff_eq_none] at hnone
  rw [rewrite_link, hnone]
  rfl

omit [UuidFormat] in
theorem relink_layer_updated (file : Option φ) (hrest : ∀ f, with_entries f (entries f) = f)
    (hsame : ∀ e, with_links e (links e) = e) :
    Updated with_entries file (relink_layer entries with_entries links with_links remap file).1
      (relink_layer entries with_entries links with_links remap file).2 := by
  cases file with
  | none => exact ⟨fun _ => rfl, [], rfl⟩
  | some f =>
    refine ⟨fun hunchanged => ?_, _, rfl⟩
    have hentries : ((entries f).map fun e =>
        with_links e (rewrite_traces_to (links e) remap).1) = entries f := by
      refine (List.map_congr_left fun e he => ?_).trans (List.map_id _)
      have hlinks : (rewrite_traces_to (links e) remap).2 = false := by
        rw [Bool.eq_false_iff]
        intro hchanged
        exact Bool.eq_false_iff.mp hunchanged (List.any_eq_true.mpr ⟨e, he, hchanged⟩)
      rw [rewrite_traces_to_same hlinks, hsame]
      rfl
    show some (with_entries f _) = some f
    rw [hentries, hrest]

omit [UuidFormat] in
theorem Updated.trans {file file' file'' : Option φ} {changed changed' : Bool}
    (hagain : ∀ f es es', with_entries (with_entries f es) es' = with_entries f es')
    (h : Updated with_entries file file' changed)
    (h' : Updated with_entries file' file'' changed') :
    Updated with_entries file file'' (changed || changed') := by
  obtain ⟨es, hes⟩ := h.shape
  obtain ⟨es', hes'⟩ := h'.shape
  refine ⟨fun hunchanged => ?_, es', ?_⟩
  · rw [Bool.or_eq_false_iff] at hunchanged
    rw [h'.same hunchanged.2, h.same hunchanged.1]
  · rw [hes', hes, Option.map_map]
    exact congrArg (fun g => file.map g) (funext fun f => hagain f es es')

omit [UuidFormat] in
theorem Updated.write_back {before : TraceFile φ} {file : Option φ} {changed : Bool}
    (h : Updated with_entries before.loaded file changed) :
    (write_back changed before file).loaded = file ∧
      (before ≠ .Unreadable → write_back changed before file ≠ .Unreadable) := by
  cases changed with
  | false => exact ⟨(h.same rfl).symm, fun hreadable => hreadable⟩
  | true =>
    cases file with
    | some f => exact ⟨rfl, fun _ hparsed => by cases hparsed⟩
    | none =>
      obtain ⟨es, hes⟩ := h.shape
      exact ⟨Option.map_eq_none_iff.mp hes.symm, fun hreadable => hreadable⟩

end Relink

omit [UuidFormat] in
/-- **Phase 3.** -/
theorem relink_root_spec {loaded loaded' : LoadedRoot} {changed : Changed} (remap : Remap)
    (h : Updates loaded loaded' changed) :
    (relink_root remap loaded' changed).1.layers.flatten =
        loaded'.layers.flatten.map (TraceItem.relinked remap) ∧
      Updates loaded (relink_root remap loaded' changed).1
        (relink_root remap loaded' changed).2 := by
  constructor
  · have hsys := layer_items_unlinked remap HlrFile.requirements TraceItem.Sys
      loaded'.sys fun _ => rfl
    have hderived := layer_items_unlinked remap DerivedFile.requirements
      TraceItem.Derived loaded'.derived fun _ => rfl
    have hhlr : layer_items HlrFile.requirements TraceItem.Hlr
        (relink_root remap loaded' changed).1.hlr = _ :=
      relink_layer_items loaded'.hlr (fun _ _ => rfl) fun _ => rfl
    have hllr : layer_items LlrFile.requirements TraceItem.Llr
        (relink_root remap loaded' changed).1.llr = _ :=
      relink_layer_items loaded'.llr (fun _ _ => rfl) fun _ => rfl
    have htests : layer_items TestsFile.tests TraceItem.Test
        (relink_root remap loaded' changed).1.tests = _ :=
      relink_layer_items loaded'.tests (fun _ _ => rfl) fun _ => rfl
    simp only [LoadedRoot.layers, List.flatten_cons, List.flatten_nil, List.map_append,
      List.map_nil, hsys, hhlr, hllr, htests, hderived]
    rfl
  · refine ⟨h.sys, ?_, ?_, ?_, h.derived⟩
    · exact h.hlr.trans (fun _ _ _ => rfl) (relink_layer_updated _ (fun _ => rfl) fun _ => rfl)
    · exact h.llr.trans (fun _ _ _ => rfl) (relink_layer_updated _ (fun _ => rfl) fun _ => rfl)
    · exact h.tests.trans (fun _ _ _ => rfl) (relink_layer_updated _ (fun _ => rfl) fun _ => rfl)

/-- A file that there is cannot be read. -/
def TraceRoot.Unreadable (root : TraceRoot) : Prop :=
  root.sys = .Unreadable ∨ root.hlr = .Unreadable ∨ root.llr = .Unreadable ∨
    root.tests = .Unreadable ∨ root.derived = .Unreadable

omit [UuidFormat] in
theorem load_existing_ok_iff {φ : Type} {filename : String} {before : TraceFile φ}
    {file : Option φ} :
    load_existing filename before = .ok file ↔ before ≠ .Unreadable ∧ file = before.loaded := by
  cases before with
  | Absent =>
    rw [load_existing, Except.ok.injEq, eq_comm (a := none)]
    exact (and_iff_right (by simp)).symm
  | Unreadable =>
    constructor
    · intro h
      cases h
    · intro h
      exact absurd rfl h.1
  | Parsed f =>
    rw [load_existing, Except.ok.injEq, eq_comm (a := some f)]
    exact (and_iff_right (by simp)).symm

omit [UuidFormat] in
/-- **Phase 1.** -/
theorem load_root_ok_iff {root : TraceRoot} {loaded : LoadedRoot} :
    load_root root = .ok loaded ↔ ¬ root.Unreadable ∧ loaded = root.loaded := by
  simp only [load_root, bind_ok_iff, load_existing_ok_iff, TraceRoot.Unreadable, not_or]
  constructor
  · rintro ⟨_, ⟨hsys, rfl⟩, _, ⟨hhlr, rfl⟩, _, ⟨hllr, rfl⟩, _, ⟨htests, rfl⟩, _, ⟨hderived, rfl⟩, h⟩
    cases h
    exact ⟨⟨hsys, hhlr, hllr, htests, hderived⟩, rfl⟩
  · rintro ⟨⟨hsys, hhlr, hllr, htests, hderived⟩, rfl⟩
    exact ⟨_, ⟨hsys, rfl⟩, _, ⟨hhlr, rfl⟩, _, ⟨hllr, rfl⟩, _, ⟨htests, rfl⟩, _, ⟨hderived, rfl⟩,
      rfl⟩

omit [UuidFormat] in
/-- **Phase 4.** -/
theorem write_root_spec {root : TraceRoot} {loaded : LoadedRoot} {changed : Changed}
    (h : Updates root.loaded loaded changed) (hreadable : ¬ root.Unreadable) :
    (write_root root loaded changed).loaded = loaded ∧
      ¬ (write_root root loaded changed).Unreadable := by
  simp only [TraceRoot.Unreadable, not_or] at hreadable ⊢
  obtain ⟨hsys, hhlr, hllr, htests, hderived⟩ := hreadable
  have hwsys := h.sys.write_back
  have hwhlr := h.hlr.write_back
  have hwllr := h.llr.write_back
  have hwtests := h.tests.write_back
  have hwderived := h.derived.write_back
  refine ⟨?_, hwsys.2 hsys, hwhlr.2 hhlr, hwllr.2 hllr, hwtests.2 htests, hwderived.2 hderived⟩
  simp only [TraceRoot.loaded, write_root, hwsys.1, hwhlr.1, hwllr.1, hwtests.1, hwderived.1]

end Uuids

end Evidence.Trace
