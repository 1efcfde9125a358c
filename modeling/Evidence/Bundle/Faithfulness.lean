/-
When `parse_cargo_test_output_with_outcomes` returns what was run.

The scan leaves the fold of the tests that were not lost, so the result is
faithful exactly when that fold lists the run. A map has one entry per key and
files no key twice: a run of as many entries as tests therefore lost none, and a
`should_panic` test, which is filed under a name with a blank in it, cannot
stand in for a test of the run.
-/
import Mathlib.Algebra.Order.BigOperators.Group.List
import Mathlib.Algebra.Order.Group.Nat
import Evidence.Bundle.TestRun

set_option autoImplicit false

namespace Evidence.Bundle

/-! ## Filing a list -/

theorem file_all_get_ne_none {outcomes : Outcomes} {entries : List (String × TestOutcome)}
    {k : String} :
    (file_all outcomes entries).get k ≠ none ↔
      k ∈ entries.map Prod.fst ∨ outcomes.get k ≠ none := by
  induction entries generalizing outcomes with
  | nil => simp [file_all]
  | cons entry entries ih =>
    have hstep : file_all outcomes (entry :: entries) =
        file_all (record_outcome outcomes entry.1 entry.2) entries := rfl
    rw [hstep, ih, record_outcome_get_ne_none, List.map_cons, List.mem_cons, or_assoc,
      or_left_comm]

/-- Entries of distinct keys, all of them new, are stored as they come. -/
theorem file_all_fresh {entries : List (String × TestOutcome)} {outcomes : Outcomes}
    (hnodup : (entries.map Prod.fst).Nodup)
    (hnew : ∀ k ∈ entries.map Prod.fst, outcomes.get k = none) :
    file_all outcomes entries = entries.foldl Store.put outcomes := by
  induction entries generalizing outcomes with
  | nil => rfl
  | cons entry entries ih =>
    rw [List.map_cons, List.nodup_cons] at hnodup
    have hstep : record_outcome outcomes entry.1 entry.2 = outcomes.put entry :=
      record_outcome_fresh (hnew _ List.mem_cons_self)
    have hrest : ∀ k ∈ entries.map Prod.fst, (outcomes.put entry).get k = none := by
      intro k hk
      have hne : entry.1 ≠ k := fun h => hnodup.1 (h ▸ hk)
      rw [Store.get_put, if_neg hne]
      exact hnew k (List.mem_cons_of_mem _ hk)
    unfold file_all at ih ⊢
    rw [List.foldl_cons, List.foldl_cons, hstep, ih hnodup.2 hrest]

/-- **Entries of distinct keys are all listed.** -/
theorem file_all_values {entries : List (String × TestOutcome)}
    (hnodup : (entries.map Prod.fst).Nodup) :
    (file_all Store.empty entries).values.Perm entries := by
  rw [file_all_fresh hnodup fun k _ => Store.get_empty k]
  exact Store.values_ofList_perm hnodup

theorem length_file_all_le (entries : List (String × TestOutcome)) :
    (file_all Store.empty entries).values.length ≤ entries.length := by
  have hsub : (file_all Store.empty entries).values.map Prod.fst ⊆ entries.map Prod.fst := by
    intro k hk
    obtain ⟨entry, hentry, rfl⟩ := List.mem_map.mp hk
    have hget : (file_all Store.empty entries).get entry.1 ≠ none := by
      rw [Store.mem_values.mp hentry]
      exact nofun
    exact (file_all_get_ne_none.mp hget).resolve_right fun h => h (Store.get_empty _)
  have hlen := (List.subperm_of_subset (Store.values_keys_nodup _) hsub).length_le
  rwa [List.length_map, List.length_map] at hlen

/-! ## The result of a run -/

def run_tests (run : List TestBinary) : List (TestBinary × TestCase) :=
  run.flatMap fun b => b.tests.map fun t => (b, t)

theorem run_seen_eq (run : List TestBinary) :
    run_seen run = (run_tests run).filterMap fun test => test.2.filed test.1.name.toList := by
  rw [run_seen, run_tests, List.filterMap_flatMap]
  refine congrArg (run.flatMap ·) (funext fun b => ?_)
  rw [TestBinary.seen, List.filterMap_map]
  rfl

theorem run_entries_eq (run : List TestBinary) :
    run_entries run = (run_tests run).map fun test =>
      (test.1.name ++ "::" ++ test.2.name, test.2.reported.outcome) := by
  rw [run_entries, run_tests, List.map_flatMap]
  refine congrArg (run.flatMap ·) (funext fun b => ?_)
  rw [List.map_map]
  rfl

theorem le_run_total {run : List TestBinary} {b : TestBinary} (hb : b ∈ run) :
    (∀ o, b.count o ≤ run_total run) ∧ b.filtered_out ≤ run_total run := by
  have hcount (o : TestOutcome) : b.count o ≤ run_count run o :=
    List.single_le_sum (fun _ _ => Nat.zero_le _) _ (List.mem_map.mpr ⟨b, hb, rfl⟩)
  have hfiltered : b.filtered_out ≤ run_filtered run :=
    List.single_le_sum (fun _ _ => Nat.zero_le _) _ (List.mem_map.mpr ⟨b, hb, rfl⟩)
  have hpassed := hcount .Passed
  have hfailed := hcount .Failed
  have hignored := hcount .Ignored
  unfold run_total
  refine ⟨fun o => ?_, by omega⟩
  cases o <;> omega

/-- **What the text of a run is read as**: nothing without a binary, else the filed tests,
with the counts of the run as far as they are numbers of 32 bits. -/
theorem parse_captured (order : StreamOrder) (line_end : LineEnd) (run : List TestBinary)
    (hne : run ≠ []) :
    ∃ summary, parse_cargo_test_output_with_outcomes (captured_text order line_end run) =
        some (summary, file_all Store.empty (run_seen run)) ∧
      (run_total run < 2 ^ 32 →
        summary.total.toNat = run_total run ∧
        summary.passed.toNat = run_count run .Passed ∧
        summary.failed.toNat = run_count run .Failed ∧
        summary.ignored.toNat = run_count run .Ignored ∧
        summary.filtered_out.toNat = run_filtered run) := by
  have hlines : (lines (replace_crlf (captured_text order line_end run).toList)).map trim_chars =
      (captured_lines order run).map trim_chars := by
    rw [captured_text, String.toList_ofList]
    exact trimmed_lines_unlines line_end (captured_lines_no_break order run)
  have hscan := @Scan.run (run.map fun b => b.name.toList) Scan.start [] run rfl rfl
  rw [← scan_captured _ order] at hscan
  unfold parse_cargo_test_output_with_outcomes
  simp only [hlines, harvest_captured]
  generalize ((captured_lines order run).map trim_chars).foldl
    (Scan.line (run.map fun b => b.name.toList)) Scan.start = t at hscan ⊢
  obtain ⟨houtcomes, hfound, hcounts⟩ := hscan
  have hfound' : t.found = true := by
    rw [hfound, List.isEmpty_eq_false_iff.mpr hne]
    rfl
  rw [if_pos hfound']
  refine ⟨_, congrArg some (Prod.ext rfl houtcomes), fun htotal => ?_⟩
  obtain ⟨hpassed, hfailed, hignored, hfiltered⟩ := hcounts fun b hb => by
    obtain ⟨hcount, hfilter⟩ := le_run_total hb
    exact ⟨fun o => by have := hcount o; omega, by omega⟩
  simp only [Scan.start, UInt64.zero_add] at hpassed hfailed hignored hfiltered
  -- no sum leaves 32 bits, so nothing wraps, saturates or is cut off
  have hnat (n : ℕ) (hn : n < 2 ^ 32) : (UInt64.ofNat n).toNat = n := by
    rw [UInt64.toNat_ofNat', Nat.mod_eq_of_lt (by omega)]
  unfold run_total at htotal ⊢
  have hp : t.total_passed.toNat = run_count run .Passed := by rw [hpassed, hnat _ (by omega)]
  have hf : t.total_failed.toNat = run_count run .Failed := by rw [hfailed, hnat _ (by omega)]
  have hi : t.total_ignored.toNat = run_count run .Ignored := by rw [hignored, hnat _ (by omega)]
  have hx : t.total_filtered_out.toNat = run_filtered run := by rw [hfiltered, hnat _ (by omega)]
  have hpf : (saturating_add t.total_passed t.total_failed).toNat =
      run_count run .Passed + run_count run .Failed := by
    rw [toNat_saturating_add (by omega), hp, hf]
  have hpfi : (saturating_add (saturating_add t.total_passed t.total_failed)
      t.total_ignored).toNat =
        run_count run .Passed + run_count run .Failed + run_count run .Ignored := by
    rw [toNat_saturating_add (by omega), hpf, hi]
  simp only [UInt64.toNat_toUInt32, hp, hf, hi, hx,
    toNat_saturating_add (show (saturating_add (saturating_add t.total_passed t.total_failed)
      t.total_ignored).toNat + t.total_filtered_out.toNat < 2 ^ 64 by omega), hpfi]
  refine ⟨Nat.mod_eq_of_lt htotal, Nat.mod_eq_of_lt ?_, Nat.mod_eq_of_lt ?_, Nat.mod_eq_of_lt ?_,
    Nat.mod_eq_of_lt ?_⟩ <;> omega

/-- Nothing is read out of a run without a binary. -/
theorem parse_captured_nil (order : StreamOrder) (line_end : LineEnd) :
    parse_cargo_test_output_with_outcomes (captured_text order line_end []) = none := by
  cases order <;> rfl

/-! ## The claim -/

theorem panic_key_ne (bin name bin' : List Char) (t : TestCase) :
    bin ++ "::".toList ++ (name ++ " - should panic".toList) ≠
      bin' ++ "::".toList ++ t.name.toList := by
  intro h
  have hname : ∀ c ∈ t.name.toList.reverse, (c != ' ') = true :=
    fun c hc => bne_iff_ne.mpr fun hblank => t.name_plain.1 (hblank ▸ List.mem_reverse.mp hc)
  have hleft : (bin ++ "::".toList ++ (name ++ " - should panic".toList)).reverse.takeWhile
      (· != ' ') = "cinap".toList := by
    rw [List.reverse_append, List.reverse_append,
      show " - should panic".toList.reverse = "cinap".toList ++ ' ' :: "dluohs - ".toList by decide,
      List.append_assoc, List.append_assoc, List.takeWhile_append_of_pos (by decide),
      List.cons_append, List.takeWhile_cons_of_neg (by decide), List.append_nil]
  have hright : ':' ∈ (bin' ++ "::".toList ++ t.name.toList).reverse.takeWhile (· != ' ') := by
    rw [List.reverse_append, List.reverse_append,
      show "::".toList.reverse = [':', ':'] by decide, List.takeWhile_append_of_pos hname,
      List.cons_append, List.takeWhile_cons_of_pos (by decide)]
    exact List.mem_append_right _ List.mem_cons_self
  rw [← h, hleft] at hright
  exact absurd hright (by decide)

theorem TestCase.Ordinary.filed {t : TestCase} (h : t.Ordinary) (bin : String) :
    t.filed bin.toList = some (bin ++ "::" ++ t.name, t.reported.outcome) := by
  obtain ⟨hpanic, hreason, hname⟩ := h
  have hannounced : t.reported.announced = some t.reported.outcome := by
    rcases hreported : t.reported with _ | _ | _ | reason
    · rfl
    · rfl
    · rfl
    · exact absurd hreported (hreason reason)
  have hkey : outcome_key bin.toList (t.name.toList ++ t.suffix) = bin ++ "::" ++ t.name := by
    rw [TestCase.suffix, hpanic, if_neg Bool.false_ne_true, List.append_nil, outcome_key,
      ← String.toList_inj, String.toList_ofList, String.toList_append, String.toList_append]
  rw [TestCase.filed, hname, if_neg Bool.false_ne_true, hannounced, Option.map_some, hkey]

theorem run_seen_of_ordinary {run : List TestBinary}
    (h : ∀ b ∈ run, ∀ t ∈ b.tests, t.Ordinary) : run_seen run = run_entries run := by
  rw [run_seen_eq, run_entries_eq, ← List.filterMap_eq_map]
  refine List.filterMap_congr fun test htest => ?_
  obtain ⟨b, hb, hmem⟩ := List.mem_flatMap.mp htest
  obtain ⟨t, ht, rfl⟩ := List.mem_map.mp hmem
  exact (h b hb t ht).filed b.name

theorem ordinary_of_listed {run : List TestBinary}
    (h : (file_all Store.empty (run_seen run)).values.Perm (run_entries run)) :
    ∀ b ∈ run, ∀ t ∈ b.tests, t.Ordinary := by
  have hall : ∀ test ∈ run_tests run, (test.2.filed test.1.name.toList).isSome = true := by
    rw [← List.filterMap_length_eq_length]
    have hle := length_file_all_le (run_seen run)
    have hlen := h.length_eq
    rw [run_entries_eq, List.length_map] at hlen
    rw [run_seen_eq] at hle hlen
    exact le_antisymm (List.length_filterMap_le _ _) (hlen ▸ hle)
  intro b hb t ht
  have htest : (b, t) ∈ run_tests run :=
    List.mem_flatMap.mpr ⟨b, hb, List.mem_map.mpr ⟨t, ht, rfl⟩⟩
  have hfiled := hall _ htest
  unfold TestCase.filed at hfiled
  split at hfiled
  · exact absurd hfiled Bool.false_ne_true
  · next hname =>
    refine ⟨?_, fun reason hreason => ?_, Bool.not_eq_true _ ▸ hname⟩
    · -- the entry of a `should_panic` test would be one of the run's
      by_contra hpanic
      have hsuffix : t.suffix = " - should panic".toList := if_pos (Bool.not_eq_false _ ▸ hpanic)
      obtain ⟨o, ho⟩ := Option.isSome_iff_exists.mp hfiled
      obtain ⟨announced, -, hentry⟩ := Option.map_eq_some_iff.mp ho
      have hseen : o ∈ run_seen run := by
        rw [run_seen_eq]
        refine List.mem_filterMap.mpr ⟨_, htest, ?_⟩
        rw [TestCase.filed, if_neg hname, ho]
      have hget : (file_all Store.empty (run_seen run)).get o.1 ≠ none :=
        file_all_get_ne_none.mpr (.inl (List.mem_map.mpr ⟨o, hseen, rfl⟩))
      obtain ⟨entry, hstored⟩ := Option.ne_none_iff_exists'.mp hget
      have hmem := h.mem_iff.mp (Store.mem_values_of_get hstored)
      obtain ⟨b', hb', hmem⟩ := List.mem_flatMap.mp hmem
      obtain ⟨t', ht', rfl⟩ := List.mem_map.mp hmem
      have hkey := Store.key_of_get hstored
      rw [← hentry, hsuffix, outcome_key, ← String.toList_inj, String.toList_ofList,
        String.toList_append, String.toList_append] at hkey
      exact panic_key_ne _ _ _ t' hkey.symm
    · rw [hreason] at hfiled
      exact absurd hfiled Bool.false_ne_true

/-- **A capture is faithful exactly when every test line is ordinary**: no `should_panic`,
no reason, no module called `result`; and when no two tests have one key and the run is
not too long for the summary's numbers. -/
theorem parse_cargo_test_output_faithful (order : StreamOrder) (line_end : LineEnd)
    (run : List TestBinary) :
    Faithful run (parse_cargo_test_output_with_outcomes (captured_text order line_end run)) ↔
      run ≠ [] ∧ (∀ b ∈ run, ∀ t ∈ b.tests, t.Ordinary) ∧
        ((run_entries run).map Prod.fst).Nodup ∧ run_total run < 2 ^ 32 := by
  constructor
  · rintro ⟨summary, outcomes, hparse, hlisted, htotal, -⟩
    have hne : run ≠ [] := by
      rintro rfl
      rw [parse_captured_nil] at hparse
      exact nomatch hparse
    obtain ⟨summary', hparse', -⟩ := parse_captured order line_end run hne
    rw [hparse, Option.some.injEq, Prod.mk.injEq] at hparse'
    obtain ⟨rfl, rfl⟩ := hparse'
    refine ⟨hne, ordinary_of_listed hlisted, ?_, ?_⟩
    · exact (hlisted.map Prod.fst).nodup_iff.mp (Store.values_keys_nodup _)
    · rw [← htotal]
      exact summary.total.toNat_lt
  · rintro ⟨hne, hordinary, hnodup, htotal⟩
    obtain ⟨summary, hparse, hcounts⟩ := parse_captured order line_end run hne
    have hseen := run_seen_of_ordinary hordinary
    refine ⟨summary, _, hparse, ?_, hcounts htotal⟩
    rw [hseen]
    exact file_all_values hnodup

/-! ## A test that is expected to panic -/

/-- `tests::rejects_empty`, which panics as it should. -/
def panicking_test : TestCase where
  name := "tests::rejects_empty"
  should_panic := true
  reported := .passed
  name_plain := by decide
  reason_plain := nofun

/-- A library's unit tests. -/
def library_tests (tests : List TestCase) : TestBinary where
  name := "library"
  described := "unittests src/lib.rs"
  dir := "target/debug/deps"
  hash := "1f0a7c2e9b3d4c55"
  tests := tests
  filtered_out := 0
  duration := "0.00"
  name_ne := by decide
  name_plain := by decide
  hash_plain := by decide
  header_plain := by decide
  duration_plain := by decide

/-- **A `should_panic` test has no entry**: it is filed as
`library::tests::rejects_empty - should panic`. -/
theorem parse_cargo_test_output_misnames :
    ¬ ∀ (order : StreamOrder) (line_end : LineEnd) (run : List TestBinary), run ≠ [] →
      ((run_entries run).map Prod.fst).Nodup → run_total run < 2 ^ 32 →
      Faithful run
        (parse_cargo_test_output_with_outcomes (captured_text order line_end run)) := by
  intro hclaim
  have hne : [library_tests [panicking_test]] ≠ [] := nofun
  obtain ⟨summary, outcomes, hparse, hlisted, -⟩ :=
    hclaim .Interleaved .Lf [library_tests [panicking_test]] hne (List.nodup_singleton _)
      (by decide)
  obtain ⟨summary', hparse', -⟩ := parse_captured .Interleaved .Lf _ hne
  rw [hparse, Option.some.injEq, Prod.mk.injEq] at hparse'
  rw [hparse'.2] at hlisted
  have hordinary := ordinary_of_listed hlisted _ List.mem_cons_self panicking_test
    List.mem_cons_self
  exact absurd hordinary.1 (by decide)

end Evidence.Bundle
