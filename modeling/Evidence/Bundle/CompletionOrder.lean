/-
What the order of the events leaves in a nextest capture.

The records are what the `test` events give, one by one, so a stream read in another
order gives the same records in another order, and sorting them brings the order back
up to records that are tied. The tallies of a key are folded in any order. A `suite`
event without an identity has a key that depends on where it stands among its like;
that cannot be seen in the sums as long as no event with an identity has such a key.
-/
import Evidence.Bundle.Nextest
import Evidence.Lib.Lists

set_option autoImplicit false

namespace Evidence.Bundle

open Std Sorting

/-! ## Events in any order -/

theorem exists_perm_filterMap {α β : Type} (f : α → Option β) {l : List α} {l' : List β}
    (h : (l.filterMap f).Perm l') : ∃ m, l.Perm m ∧ m.filterMap f = l' := by
  generalize hk : l.filterMap f = k at h
  induction h generalizing l with
  | nil => exact ⟨l, .refl _, hk⟩
  | cons b _ ih =>
    obtain ⟨pre, a, post, rfl, hpre, ha, hpost⟩ := List.filterMap_eq_cons_iff.mp hk
    obtain ⟨m, hm, rfl⟩ := ih hpost
    refine ⟨pre ++ a :: m, (hm.cons a).append_left pre, ?_⟩
    rw [List.filterMap_append, List.filterMap_eq_nil_iff.mpr hpre, List.nil_append,
      List.filterMap_cons_some ha]
  | swap b c k =>
    obtain ⟨pre, a, post, rfl, hpre, ha, hpost⟩ := List.filterMap_eq_cons_iff.mp hk
    obtain ⟨mid, d, post, rfl, hmid, hd, rfl⟩ := List.filterMap_eq_cons_iff.mp hpost
    refine ⟨pre ++ (mid ++ d :: a :: post), ?_, ?_⟩
    · refine List.Perm.append_left pre ?_
      refine ((@List.perm_middle _ d mid post).cons a).trans ?_
      exact (List.Perm.swap d a _).trans
        ((List.perm_middle.symm.cons d).trans List.perm_middle.symm)
    · rw [List.filterMap_append, List.filterMap_append, List.filterMap_eq_nil_iff.mpr hpre,
        List.filterMap_eq_nil_iff.mpr hmid, List.nil_append, List.nil_append,
        List.filterMap_cons_some hd, List.filterMap_cons_some ha]
  | trans _ _ ih ih' =>
    obtain ⟨m, hm, hk'⟩ := ih hk
    obtain ⟨m', hm', hl'⟩ := ih' hk'
    exact ⟨m', hm.trans hm', hl'⟩

/-- Lines that end in CR LF are read back as they are. -/
theorem lines_unlines_crlf {ls : List (List Char)} (hls : ∀ l ∈ ls, '\n' ∉ l) :
    lines (unlines .Crlf ls) = ls := by
  have hbreak : ∀ l ∈ ls.map (· ++ ['\r']), '\n' ∉ l := by
    intro l hl
    obtain ⟨m, hm, rfl⟩ := List.mem_map.mp hl
    intro hmem
    rcases List.mem_append.mp hmem with h | h
    · exact hls m hm h
    · exact absurd h (by decide)
  have htext : unlines .Crlf ls = (ls.map (· ++ ['\r'])).flatMap (· ++ ['\n']) := by
    rw [unlines, List.flatMap_map]
    refine congrArg (ls.flatMap ·) (funext fun l => ?_)
    rw [List.append_assoc]
    rfl
  rw [htext, lines_flatMap hbreak, List.map_map]
  refine (List.map_congr_left fun l _ => ?_).trans (List.map_id ls)
  simp [strip_cr]

/-! ## Records -/

theorem test_record_of_suite {v : Json.Value} (h : is_suite v = true) : test_record v = none := by
  simp only [is_suite, Bool.and_eq_true, beq_iff_eq] at h
  simp [test_record, h.1]

/-- **The records are those of the `test` events, in order.** -/
theorem records_run (evs : List Json.Value) (c : Capture) :
    (evs.foldl Capture.event c).records = c.records ++ evs.filterMap test_record := by
  induction evs generalizing c with
  | nil => simp
  | cons v evs ih =>
    rw [List.foldl_cons, ih, Capture.event]
    by_cases hsuite : is_suite v = true
    · rw [if_pos hsuite, List.filterMap_cons_none (test_record_of_suite hsuite)]
      cases suite_identity v <;> rfl
    · rw [if_neg hsuite]
      cases hrecord : test_record v with
      | none => rw [List.filterMap_cons_none hrecord]
      | some record => rw [List.filterMap_cons_some hrecord, List.append_assoc]; rfl

/-! ## Tallies -/

theorem toNat_max_u32 (a b : UInt32) : (max a b).toNat = max a.toNat b.toNat := by
  have hmax : max a b = if a ≤ b then b else a := rfl
  rw [hmax]
  by_cases h : a ≤ b
  · rw [if_pos h]
    exact (Nat.max_eq_right (UInt32.le_iff_toNat_le.mp h)).symm
  · rw [if_neg h]
    have hle := UInt32.le_iff_toNat_le.not.mp h
    omega

theorem toNat_min_u32 (a b : UInt32) : (min a b).toNat = min a.toNat b.toNat := by
  have hmin : min a b = if a ≤ b then a else b := rfl
  rw [hmin]
  by_cases h : a ≤ b
  · rw [if_pos h]
    exact (Nat.min_eq_left (UInt32.le_iff_toNat_le.mp h)).symm
  · rw [if_neg h]
    have hle := UInt32.le_iff_toNat_le.not.mp h
    omega

/-- Two events of one binary are counted in either order. -/
theorem SuiteTally.fold_comm (t : SuiteTally) (v w : Json.Value) :
    (t.fold v).fold w = (t.fold w).fold v := by
  simp only [SuiteTally.fold, SuiteTally.mk.injEq, Option.some.injEq]
  refine ⟨saturating_add_u32_right_comm _ _ _, saturating_add_u32_right_comm _ _ _, ?_, ?_⟩
  · apply UInt32.toNat_inj.mp
    simp only [toNat_max_u32]
    omega
  · apply UInt32.toNat_inj.mp
    cases t.filtered_out with
    | none =>
      simp only [Option.map_none, Option.getD_none, Option.map_some, Option.getD_some,
        toNat_min_u32]
      omega
    | some m =>
      simp only [Option.map_some, Option.getD_some, toNat_min_u32]
      omega

/-- So are two events of any binaries. -/
theorem fold_suite_comm (s : Suites) (k k' : String) (v w : Json.Value) :
    fold_suite (fold_suite s k v) k' w = fold_suite (fold_suite s k' w) k v := by
  refine Store.ext fun a => ?_
  simp only [fold_suite, Store.get_put]
  by_cases hkk : k = k'
  · subst hkk
    by_cases hka : k = a
    · simp only [hka, if_true, Option.map_some, Option.getD_some, SuiteTally.fold_comm]
    · simp only [hka, if_false]
  · have hkk' : ¬ k' = k := fun h => hkk h.symm
    simp only [hkk, hkk', if_false]
    by_cases hka : k = a
    · subst hka
      simp only [hkk', if_false, if_true]
    · simp only [hka, if_false]

/-- The sums do not depend on the order of the tallies. -/
theorem totals_perm {l l' : List SuiteTally} (h : l.Perm l') (totals : Totals) :
    l.foldl Totals.add totals = l'.foldl Totals.add totals := by
  refine h.foldl_eq' (fun t _ t' _ totals => ?_) totals
  simp only [Totals.add, Prod.mk.injEq]
  exact ⟨saturating_add_u32_right_comm _ _ _, saturating_add_u32_right_comm _ _ _,
    saturating_add_u32_right_comm _ _ _, saturating_add_u32_right_comm _ _ _⟩

/-! ## Binaries with and without an identity -/

/-- An event that is counted under its binary's identity, with that. -/
def identified (v : Json.Value) : Option (String × Json.Value) :=
  if is_suite v then (suite_identity v).map fun key => (key, v) else none

/-- An event that is counted under a key of its own. -/
def unidentified (v : Json.Value) : Bool :=
  is_suite v && (suite_identity v).isNone

/-- Count a list of events under their keys. -/
def fold_suites (s : Suites) (keyed : List (String × Json.Value)) : Suites :=
  keyed.foldl (fun s entry => fold_suite s entry.1 entry.2) s

/-- Keyed events can be counted in any order. -/
theorem fold_suites_perm {l l' : List (String × Json.Value)} (h : l.Perm l') (s : Suites) :
    fold_suites s l = fold_suites s l' :=
  h.foldl_eq' (fun _ _ _ _ _ => fold_suite_comm _ _ _ _ _) s

/-- Only the keys of the events appear. -/
theorem fold_suites_get_none {keyed : List (String × Json.Value)} {s : Suites} {k : String}
    (hkeyed : ∀ entry ∈ keyed, entry.1 ≠ k) (hs : s.get k = none) :
    (fold_suites s keyed).get k = none := by
  induction keyed generalizing s with
  | nil => exact hs
  | cons entry keyed ih =>
    rw [List.forall_mem_cons] at hkeyed
    have hput : (fold_suite s entry.1 entry.2).get k = none := by
      simp only [fold_suite, Store.get_put, if_neg hkeyed.1, hs]
    exact ih hkeyed.2 hput

/-- The numbered keys differ. -/
theorem noident_key_inj {i j : ℕ} (hi : i < 2 ^ 32) (hj : j < 2 ^ 32)
    (h : noident_key (UInt32.ofNat i) = noident_key (UInt32.ofNat j)) : i = j := by
  rw [noident_key, noident_key, UInt32.toNat_ofNat_of_lt' hi, UInt32.toNat_ofNat_of_lt' hj] at h
  have hlist := congrArg String.toList h
  simp only [String.toList_append, List.append_cancel_left_eq] at hlist
  exact decimal_inj.mp (String.toList_inj.mp hlist)

/-- The tallies of the events without identity, under their numbers. -/
def numbered (evs : List Json.Value) : List (String × SuiteTally) :=
  (evs.filter unidentified).zipIdx.map fun entry =>
    (noident_key (UInt32.ofNat entry.2), SuiteTally.default.fold entry.1)

/-- Every event without an identity has a key of its own: there are at most as many as there are
numbers, and no event with an identity has one of these keys. -/
structure Clear (evs : List Json.Value) : Prop where
  few : (evs.filter unidentified).length ≤ 2 ^ 32
  apart : ∀ entry ∈ evs.filterMap identified, ∀ i < (evs.filter unidentified).length,
    entry.1 ≠ noident_key (UInt32.ofNat i)

theorem Clear.of_append {evs evs' : List Json.Value} (h : Clear (evs ++ evs')) : Clear evs := by
  obtain ⟨hfew, hapart⟩ := h
  rw [List.filter_append, List.length_append] at hfew hapart
  rw [List.filterMap_append] at hapart
  exact ⟨by omega, fun entry hentry i hi =>
    hapart entry (List.mem_append_left _ hentry) i (by omega)⟩

theorem Clear.of_perm {evs evs' : List Json.Value} (h : Clear evs) (hperm : evs.Perm evs') :
    Clear evs' := by
  have hlength := (hperm.filter unidentified).length_eq
  refine ⟨hlength ▸ h.few, fun entry hentry i hi => ?_⟩
  exact h.apart entry ((hperm.filterMap identified).mem_iff.mpr hentry) i (hlength ▸ hi)

theorem numbered_keys (evs : List Json.Value) :
    (numbered evs).map Prod.fst =
      (List.range (evs.filter unidentified).length).map fun i => noident_key (UInt32.ofNat i) := by
  rw [numbered, List.map_map, List.range_eq_range', ← List.zipIdx_map_snd, List.map_map]
  rfl

theorem numbered_keys_nodup {evs : List Json.Value}
    (hfew : (evs.filter unidentified).length ≤ 2 ^ 32) :
    ((numbered evs).map Prod.fst).Nodup := by
  rw [numbered_keys]
  refine List.nodup_range.map_on fun i hi j hj hkey => ?_
  rw [List.mem_range] at hi hj
  exact noident_key_inj (by omega) (by omega) hkey

/-- Counting under a key that is not put changes nothing about what is. -/
theorem fold_suite_foldl_put {pairs : List (String × SuiteTally)} {k : String}
    (hk : k ∉ pairs.map Prod.fst) (s : Suites) (v : Json.Value) :
    fold_suite (pairs.foldl Store.put s) k v = pairs.foldl Store.put (fold_suite s k v) := by
  induction pairs generalizing s with
  | nil => rfl
  | cons p pairs ih =>
    rw [List.map_cons, List.mem_cons, not_or] at hk
    rw [List.foldl_cons, List.foldl_cons, ih hk.2]
    refine congrArg (pairs.foldl Store.put) (Store.ext fun a => ?_)
    have hne : ¬ p.1 = k := fun h => hk.1 h.symm
    simp only [fold_suite, Store.get_put, if_neg hne]
    by_cases hka : k = a
    · subst hka
      simp only [if_true, if_neg hne]
    · simp only [if_neg hka]

/-- **What an event does to the tallies**: it counts under its binary's identity, under the next
number, or not at all. -/
theorem event_cases (c : Capture) (v : Json.Value) :
    (∃ key, identified v = some (key, v) ∧ unidentified v = false ∧
      (c.event v).suites = fold_suite c.suites key v ∧
      (c.event v).noident_seq = c.noident_seq) ∨
    (identified v = none ∧ unidentified v = true ∧
      (c.event v).suites = fold_suite c.suites (noident_key c.noident_seq) v ∧
      (c.event v).noident_seq = c.noident_seq + 1) ∨
    (identified v = none ∧ unidentified v = false ∧ (c.event v).suites = c.suites ∧
      (c.event v).noident_seq = c.noident_seq) := by
  rw [Capture.event, identified, unidentified]
  by_cases hsuite : is_suite v = true
  · cases hidentity : suite_identity v with
    | some key => exact .inl ⟨key, by simp [hsuite], by simp, by simp [hsuite], by simp [hsuite]⟩
    | none => exact .inr (.inl (by simp [hsuite]))
  · refine .inr (.inr ⟨by simp [hsuite], by simp [hsuite], ?_⟩)
    rw [if_neg hsuite]
    cases test_record v with
    | some record => exact ⟨rfl, rfl⟩
    | none => exact ⟨rfl, rfl⟩

theorem mem_numbered_keys {evs : List Json.Value} {k : String} :
    k ∈ (numbered evs).map Prod.fst ↔
      ∃ i < (evs.filter unidentified).length, noident_key (UInt32.ofNat i) = k := by
  rw [numbered_keys, List.mem_map]
  simp only [List.mem_range]

/-- An event that has an identity, or is no suite's, is given no number. -/
theorem numbered_snoc_of_not {evs : List Json.Value} {v : Json.Value}
    (hv : unidentified v = false) : numbered (evs ++ [v]) = numbered evs := by
  simp [numbered, hv]

/-- An event without an identity is given the next number. -/
theorem numbered_snoc {evs : List Json.Value} {v : Json.Value} (hv : unidentified v = true) :
    numbered (evs ++ [v]) = numbered evs ++
      [(noident_key (UInt32.ofNat (evs.filter unidentified).length),
        SuiteTally.default.fold v)] := by
  simp [numbered, hv, List.zipIdx_append]

theorem Clear.identity_fresh {evs : List Json.Value} {v : Json.Value} {key : String}
    (hclear : Clear (evs ++ [v])) (hid : identified v = some (key, v)) :
    key ∉ (numbered evs).map Prod.fst := by
  intro hmem
  obtain ⟨i, hi, hkey⟩ := mem_numbered_keys.mp hmem
  refine hclear.apart (key, v) ?_ i ?_ hkey.symm
  · rw [List.mem_filterMap]
    exact ⟨v, List.mem_append_right _ (List.mem_singleton.mpr rfl), hid⟩
  · rw [List.filter_append, List.length_append]
    omega

theorem Clear.number_fresh {evs : List Json.Value} {v : Json.Value}
    (hclear : Clear (evs ++ [v])) (hv : unidentified v = true) :
    ((numbered evs).foldl Store.put
      (fold_suites Store.empty (evs.filterMap identified))).get
        (noident_key (UInt32.ofNat (evs.filter unidentified).length)) = none := by
  have hlength : ((evs ++ [v]).filter unidentified).length =
      (evs.filter unidentified).length + 1 := by
    simp [hv]
  have hfew := hlength ▸ hclear.few
  have hfresh : noident_key (UInt32.ofNat (evs.filter unidentified).length) ∉
      (numbered evs).map Prod.fst := by
    intro hmem
    obtain ⟨i, hi, hkey⟩ := mem_numbered_keys.mp hmem
    have heq := noident_key_inj (by omega) (by omega) hkey
    omega
  have hkeep := Store.get_foldl_put_of_not_mem id (numbered_keys_nodup (by omega))
    (fold_suites Store.empty (evs.filterMap identified)) hfresh
  simp only [id_eq] at hkeep
  refine hkeep.trans (fold_suites_get_none (fun entry hentry => ?_) (Store.get_empty _))
  refine hclear.apart entry ?_ _ (by omega)
  rw [List.filterMap_append]
  exact List.mem_append_left _ hentry

/-- **What the tallies of a clear stream are**: those of the binaries with an identity, and one for
each event without. -/
theorem suites_run {evs : List Json.Value} (hclear : Clear evs) :
    (evs.foldl Capture.event .start).suites =
        (numbered evs).foldl Store.put (fold_suites Store.empty (evs.filterMap identified)) ∧
      (evs.foldl Capture.event .start).noident_seq =
        UInt32.ofNat (evs.filter unidentified).length := by
  induction evs using List.reverseRecOn with
  | nil => exact ⟨rfl, rfl⟩
  | append_singleton evs v ih =>
    obtain ⟨hsuites, hseq⟩ := ih hclear.of_append
    rw [List.foldl_concat, List.filterMap_append, Lists.filterMap_singleton, List.filter_append]
    obtain ⟨key, hid, hun, hs, hn⟩ | ⟨hid, hun, hs, hn⟩ | ⟨hid, hun, hs, hn⟩ :=
      event_cases (evs.foldl Capture.event .start) v
    · rw [hs, hn, hsuites, hseq, numbered_snoc_of_not hun,
        fold_suite_foldl_put (hclear.identity_fresh hid), hid, Option.toList_some, fold_suites,
        fold_suites, List.foldl_concat, List.filter_cons_of_neg (by simp [hun]), List.filter_nil,
        List.append_nil]
      exact ⟨rfl, rfl⟩
    · rw [hs, hn, hsuites, hseq, numbered_snoc hun, hid, Option.toList_none, List.append_nil,
        List.foldl_concat, fold_suite, hclear.number_fresh hun, List.filter_cons_of_pos hun,
        List.filter_nil, List.length_append, List.length_singleton, UInt32.ofNat_add]
      exact ⟨rfl, rfl⟩
    · rw [hs, hn, hsuites, hseq, numbered_snoc_of_not hun, hid, Option.toList_none,
        List.append_nil, List.filter_cons_of_neg (by simp [hun]), List.filter_nil,
        List.append_nil]
      exact ⟨rfl, rfl⟩

theorem suites_values_run {evs : List Json.Value} (hclear : Clear evs) :
    ((evs.foldl Capture.event .start).suites.values.map Prod.snd).Perm
      ((evs.filter unidentified).map SuiteTally.default.fold ++
        (fold_suites Store.empty (evs.filterMap identified)).values.map Prod.snd) := by
  have htallies : (numbered evs).map Prod.snd =
      (evs.filter unidentified).map SuiteTally.default.fold := by
    rw [numbered, List.map_map, ← List.zipIdx_map_fst 0 (evs.filter unidentified), List.map_map]
    simp
  rw [(suites_run hclear).1, ← htallies, ← List.map_append]
  refine (Store.values_foldl_put_perm (numbered_keys_nodup hclear.few) fun entry hentry => ?_).map _
  have hkey : entry.1 ∈ (numbered evs).map Prod.fst := List.mem_map_of_mem hentry
  rw [numbered_keys] at hkey
  obtain ⟨i, hi, heq⟩ := List.mem_map.mp hkey
  rw [List.mem_range] at hi
  rw [← heq]
  exact fold_suites_get_none (fun entry' hentry' => hclear.apart entry' hentry' i hi)
    (Store.get_empty _)

/-- **The summary of a clear stream does not depend on the order of the events.** -/
theorem summary_of_perm {evs evs' : List Json.Value} (hclear : Clear evs)
    (hperm : evs.Perm evs') :
    summarize_suites (evs'.foldl Capture.event .start).suites =
      summarize_suites (evs.foldl Capture.event .start).suites := by
  have hvalues := suites_values_run (hclear.of_perm hperm)
  rw [← fold_suites_perm (hperm.filterMap identified)] at hvalues
  have hsame := hvalues.trans ((((hperm.filter unidentified).symm.map _).append_right _).trans
    (suites_values_run hclear).symm)
  rw [summarize_suites, summarize_suites, totals_perm hsame]

/-! ## One event without an identity -/

/-- The key of an event where only one has none. -/
def keyed (v : Json.Value) : Option (String × Json.Value) :=
  if is_suite v then some ((suite_identity v).getD (noident_key 0), v) else none

theorem keyed_eq (v : Json.Value) :
    keyed v = if unidentified v then some (noident_key 0, v) else identified v := by
  rw [keyed, unidentified, identified]
  by_cases hsuite : is_suite v = true
  · cases suite_identity v <;> simp [hsuite]
  · simp [hsuite]

/-- A single event without an identity always has the first key. -/
theorem suites_run_lone {evs : List Json.Value} (hlone : (evs.filter unidentified).length ≤ 1) :
    (evs.foldl Capture.event .start).suites = fold_suites Store.empty (evs.filterMap keyed) ∧
      (evs.foldl Capture.event .start).noident_seq =
        UInt32.ofNat (evs.filter unidentified).length := by
  induction evs using List.reverseRecOn with
  | nil => exact ⟨rfl, rfl⟩
  | append_singleton evs v ih =>
    rw [List.filter_append, List.length_append] at hlone ⊢
    obtain ⟨hsuites, hseq⟩ := ih (by omega)
    rw [List.foldl_concat, List.filterMap_append, Lists.filterMap_singleton, keyed_eq]
    obtain ⟨key, hid, hun, hs, hn⟩ | ⟨hid, hun, hs, hn⟩ | ⟨hid, hun, hs, hn⟩ :=
      event_cases (evs.foldl Capture.event .start) v
    · rw [hs, hn, hsuites, hseq, hun, if_neg Bool.false_ne_true, hid, Option.toList_some,
        fold_suites, fold_suites, List.foldl_concat, List.filter_cons_of_neg (by simp [hun])]
      exact ⟨rfl, rfl⟩
    · rw [List.filter_cons_of_pos hun, List.filter_nil, List.length_singleton] at hlone ⊢
      have hfirst : (evs.filter unidentified).length = 0 := by omega
      rw [hs, hn, hsuites, hseq, hun, if_pos rfl, hfirst, Option.toList_some, fold_suites,
        fold_suites, List.foldl_concat]
      exact ⟨rfl, rfl⟩
    · rw [hs, hn, hsuites, hseq, hun, if_neg Bool.false_ne_true, hid, Option.toList_none,
        List.append_nil, List.filter_cons_of_neg (by simp [hun])]
      exact ⟨rfl, rfl⟩

/-! ## The capture -/

/-- At most one `suite` event has no identity, or those that have none are clear of the others. -/
def Apart (evs : List Json.Value) : Prop :=
  (evs.filter unidentified).length ≤ 1 ∨ Clear evs

/-- The summary of such a stream does not depend on the order of the events. -/
theorem summary_of_perm_apart {evs evs' : List Json.Value} (hapart : Apart evs)
    (hperm : evs.Perm evs') :
    summarize_suites (evs'.foldl Capture.event .start).suites =
      summarize_suites (evs.foldl Capture.event .start).suites := by
  rcases hapart with hlone | hclear
  · have hlone' := (hperm.filter unidentified).length_eq ▸ hlone
    rw [(suites_run_lone hlone).1, (suites_run_lone hlone').1,
      fold_suites_perm (hperm.filterMap keyed)]
  · exact summary_of_perm hclear hperm

/-- Two events with the same module path and test name give the same record. -/
def TiedAlike (evs : List Json.Value) : Prop :=
  ∀ a ∈ evs.filterMap test_record, ∀ b ∈ evs.filterMap test_record,
    a.module_path = b.module_path → a.name = b.name → a = b

instance : TransCmp record_cmp :=
  inferInstanceAs (TransCmp (compareLex (compareOn TestOutcomeRecord.module_path)
    (compareOn TestOutcomeRecord.name)))

theorem record_cmp_eq_iff {a b : TestOutcomeRecord} :
    record_cmp a b = .eq ↔ a.module_path = b.module_path ∧ a.name = b.name := by
  rw [record_cmp, compareLex_eq_eq, compareOn, compareOn, LawfulEqCmp.compare_eq_iff_eq,
    LawfulEqCmp.compare_eq_iff_eq]

section Streams

variable [SerdeJson]

/-- Every order of the lines gives the same records and the same summary. -/
def CompletionIndependent (stdout : String) : Prop :=
  ∀ stdout' : String, (lines stdout.toList).Perm (lines stdout'.toList) →
    parse_nextest_libtest_json stdout' = parse_nextest_libtest_json stdout

theorem records_capture (stdout : String) :
    ((events stdout).foldl Capture.event .start).records =
      (events stdout).filterMap test_record := by
  rw [records_run, Capture.start, List.nil_append]

theorem exists_stdout_of_perm {stdout : String} {l : List TestOutcomeRecord}
    (h : ((events stdout).filterMap test_record).Perm l) :
    ∃ stdout' : String, (lines stdout.toList).Perm (lines stdout'.toList) ∧
      (events stdout').filterMap test_record = l := by
  rw [events, List.filterMap_filterMap] at h
  obtain ⟨m, hperm, hm⟩ := exists_perm_filterMap _ h
  have hlines : lines (String.ofList (unlines .Crlf m)).toList = m := by
    rw [String.toList_ofList]
    exact lines_unlines_crlf fun l hl => (of_mem_lines (hperm.mem_iff.mpr hl)).1
  refine ⟨String.ofList (unlines .Crlf m), by rwa [hlines], ?_⟩
  rw [events, List.filterMap_filterMap, hlines, hm]

/-- **A capture forgets the order its tests completed in** where tied events give one record and
the `suite` events without an identity are clear of the others; a tie of two records that differ
always shows the order. -/
theorem parse_nextest_order_independent (stdout : String) :
    (CompletionIndependent stdout → TiedAlike (events stdout)) ∧
      (TiedAlike (events stdout) → Apart (events stdout) → CompletionIndependent stdout) := by
  constructor
  · intro hsame a ha b hb hmodule hname
    refine (@sortBy_reordered_iff _ record_cmp _ _ _).mp ?_ a ha b hb
      (record_cmp_eq_iff.mpr ⟨hmodule, hname⟩)
    intro l hl
    obtain ⟨stdout', hlines, rfl⟩ := exists_stdout_of_perm hl
    have hrecords := congrArg NextestRun.records (hsame stdout' hlines)
    simpa only [parse_nextest_libtest_json, records_capture] using hrecords
  · intro htied hapart stdout' hlines
    have hperm : (events stdout).Perm (events stdout') := hlines.filterMap line_event
    have hsort : sortBy record_cmp ((events stdout).filterMap test_record) =
        sortBy record_cmp ((events stdout').filterMap test_record) := by
      refine sortBy_congr (hperm.filterMap test_record) fun a ha b hb hcmp => ?_
      obtain ⟨hmodule, hname⟩ := record_cmp_eq_iff.mp hcmp
      exact htied a ha b hb hmodule hname
    simp only [parse_nextest_libtest_json, records_capture, hsort,
      summary_of_perm_apart hapart hperm]

end Streams

/-! ## Two packages with a binary and a test of the same names -/

section Witness

def passed_event (name : String) : Json.Value :=
  .object [("type", .string "test"), ("event", .string "ok"), ("name", .string name)]

/-- The line of such an event. -/
def passed_line (name : String) : String :=
  "\x7b\"type\":\"test\",\"event\":\"ok\",\"name\":\"" ++ name ++ "\"\x7d"

/-- The values of three lines. -/
local instance three_lines : SerdeJson where
  from_str text :=
    (["alpha::api$smoke", "beta::api$smoke", "beta::api$load"].find? fun name =>
      passed_line name == text).map passed_event

/-- A stream of lines. -/
def stream_of (names : List String) : String :=
  String.join (names.map fun name => passed_line name ++ "\n")

/-- `parse_nextest_order_independent` on a stream without ties. -/
theorem parse_nextest_order_independent_untied :
    CompletionIndependent (stream_of ["beta::api$load", "alpha::api$smoke"]) := by
  have htied : TiedAlike (events (stream_of ["beta::api$load", "alpha::api$smoke"])) := by
    unfold TiedAlike
    decide +kernel
  have hlone : ((events (stream_of ["beta::api$load", "alpha::api$smoke"])).filter
      unidentified).length ≤ 1 := by
    decide +kernel
  exact (parse_nextest_order_independent _).2 htied (.inl hlone)

/-- **Two packages that share binary and test names show the order of completion**: the records
are tied, and stay as they came. -/
theorem parse_nextest_shows_order :
    (parse_nextest_libtest_json (stream_of ["alpha::api$smoke", "beta::api$smoke"])).records.map
        TestOutcomeRecord.package = ["alpha", "beta"] ∧
      (parse_nextest_libtest_json (stream_of ["beta::api$smoke", "alpha::api$smoke"])).records.map
        TestOutcomeRecord.package = ["beta", "alpha"] ∧
      ¬ CompletionIndependent (stream_of ["alpha::api$smoke", "beta::api$smoke"]) := by
  have halpha : (parse_nextest_libtest_json (stream_of ["alpha::api$smoke",
      "beta::api$smoke"])).records.map TestOutcomeRecord.package = ["alpha", "beta"] := by
    decide +kernel
  have hbeta : (parse_nextest_libtest_json (stream_of ["beta::api$smoke",
      "alpha::api$smoke"])).records.map TestOutcomeRecord.package = ["beta", "alpha"] := by
    decide +kernel
  refine ⟨halpha, hbeta, fun hsame => ?_⟩
  have hlines : (lines (stream_of ["alpha::api$smoke", "beta::api$smoke"]).toList).Perm
      (lines (stream_of ["beta::api$smoke", "alpha::api$smoke"]).toList) := by
    decide +kernel
  rw [hsame _ hlines, halpha] at hbeta
  exact absurd hbeta (by decide)

end Witness

end Evidence.Bundle
