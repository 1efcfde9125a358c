/-
`NextestRun::reconcile` (`bundle/nextest.rs`) -- the counts of the suites against the records.

A stream tells the outcomes twice: in the `test` events, and in the counts of the `suite`
events. A binary that is run in partitions has several `suite` events; passed and failed
tests are disjoint over them, and the ignored ones are restated. So the counts are summed, or
their maximum is taken, for each binary, and then summed over the binaries
(`tallies_perm`). What the reduction calls a binary is a key, made of the identity an
event gives; an event without an identity is a binary of its own.

For binaries that are told apart by their keys the summary is the truth, and a stream that
lost or repeated `test` events is reported in every dimension it lost or repeated one of
(`reconcile_detects`).
-/
import Mathlib.Algebra.Ring.Nat
import Mathlib.Algebra.Order.BigOperators.Group.List
import Mathlib.Algebra.Order.Group.Nat
import Evidence.Bundle.CompletionOrder

set_option autoImplicit false

namespace Evidence.Bundle

open Std Sorting

/-! ## The reconciliation -/

/-- One outcome dimension where the summary and the records disagree. -/
structure SummaryDiscrepancy where
  dimension : String
  summary : UInt32
  records : UInt32
deriving DecidableEq

/-- The counts of the records so far: passed, failed, ignored. The additions wrap. -/
abbrev RecordCounts := UInt32 × UInt32 × UInt32

def count_record (counts : RecordCounts) (r : TestOutcomeRecord) : RecordCounts :=
  if r.ignored then (counts.1, counts.2.1, counts.2.2 + 1)
  else if r.passed then (counts.1 + 1, counts.2.1, counts.2.2)
  else (counts.1, counts.2.1 + 1, counts.2.2)

def NextestRun.reconcile (run : NextestRun) : List SummaryDiscrepancy :=
  let rec_counts := run.records.foldl count_record (0, 0, 0)
  [(⟨"passed", run.summary.passed, rec_counts.1⟩ : SummaryDiscrepancy),
    ⟨"failed", run.summary.failed, rec_counts.2.1⟩,
    ⟨"ignored", run.summary.ignored, rec_counts.2.2⟩].filter fun d => d.summary != d.records

/-! ## Dimensions -/

def dimension_name : TestOutcome → String
  | .Passed => "passed"
  | .Failed => "failed"
  | .Ignored => "ignored"

/-- The dimension that a record is counted in. -/
def recorded_as (r : TestOutcomeRecord) : TestOutcome :=
  if r.ignored then .Ignored else if r.passed then .Passed else .Failed

def TestSummary.count_of (s : TestSummary) : TestOutcome → UInt32
  | .Passed => s.passed
  | .Failed => s.failed
  | .Ignored => s.ignored

def RecordCounts.count_of (counts : RecordCounts) : TestOutcome → UInt32
  | .Passed => counts.1
  | .Failed => counts.2.1
  | .Ignored => counts.2.2

/-- The records of a dimension. -/
def records_of (d : TestOutcome) (records : List TestOutcomeRecord) : ℕ :=
  records.countP fun r => recorded_as r = d

theorem count_record_of (counts : RecordCounts) (r : TestOutcomeRecord) (d : TestOutcome) :
    (count_record counts r).count_of d =
      counts.count_of d + if recorded_as r = d then 1 else 0 := by
  unfold count_record recorded_as
  cases r.ignored <;> cases r.passed <;> cases d <;> simp [RecordCounts.count_of]

/-- **The records are counted**, up to the size of a number. -/
theorem count_records_of (records : List TestOutcomeRecord) (counts : RecordCounts)
    (d : TestOutcome) :
    (records.foldl count_record counts).count_of d =
      counts.count_of d + UInt32.ofNat (records_of d records) := by
  induction records generalizing counts with
  | nil => simp [records_of]
  | cons r records ih =>
    have hcons : records_of d (r :: records) =
        records_of d records + if recorded_as r = d then 1 else 0 := by
      simp only [records_of, List.countP_cons, decide_eq_true_eq]
    rw [List.foldl_cons, ih, count_record_of, hcons, UInt32.add_assoc]
    by_cases h : recorded_as r = d
    · rw [if_pos h, if_pos h, UInt32.ofNat_add, UInt32.add_comm 1]
      rfl
    · rw [if_neg h, if_neg h, UInt32.zero_add, Nat.add_zero]

theorem dimension_name_inj {d d' : TestOutcome} (h : dimension_name d = dimension_name d') :
    d = d' := by
  revert h
  cases d <;> cases d' <;> decide

theorem mem_reconcile (run : NextestRun) (found : SummaryDiscrepancy) :
    found ∈ run.reconcile ↔ ∃ d, found.dimension = dimension_name d ∧
      found.summary = run.summary.count_of d ∧
      found.records = UInt32.ofNat (records_of d run.records) ∧ found.summary ≠ found.records := by
  have hcounts : ∀ d, (run.records.foldl count_record (0, 0, 0)).count_of d =
      UInt32.ofNat (records_of d run.records) := by
    intro d
    rw [count_records_of]
    cases d <;> exact UInt32.zero_add _
  simp only [← hcounts]
  unfold NextestRun.reconcile
  simp only [List.mem_filter, List.mem_cons, List.not_mem_nil, or_false, bne_iff_ne]
  constructor
  · rintro ⟨rfl | rfl | rfl, hne⟩
    · exact ⟨.Passed, rfl, rfl, rfl, hne⟩
    · exact ⟨.Failed, rfl, rfl, rfl, hne⟩
    · exact ⟨.Ignored, rfl, rfl, rfl, hne⟩
  · rintro ⟨d, hname, hsummary, hrecords, hne⟩
    refine ⟨?_, hne⟩
    obtain ⟨dimension, summary, records⟩ := found
    simp only at hname hsummary hrecords
    subst hname hsummary hrecords
    cases d with
    | Passed => exact .inl rfl
    | Failed => exact .inr (.inl rfl)
    | Ignored => exact .inr (.inr rfl)

theorem mem_reconcile_iff (run : NextestRun) (d : TestOutcome) :
    dimension_name d ∈ run.reconcile.map SummaryDiscrepancy.dimension ↔
      run.summary.count_of d ≠ UInt32.ofNat (records_of d run.records) := by
  rw [List.mem_map]
  constructor
  · rintro ⟨found, hfound, hdimension⟩
    obtain ⟨d', hname, hsummary, hrecords, hne⟩ := (mem_reconcile run found).mp hfound
    have hsame : d' = d := dimension_name_inj (hname.symm.trans hdimension)
    rwa [hsummary, hrecords, hsame] at hne
  · intro hne
    exact ⟨⟨dimension_name d, _, _⟩, (mem_reconcile run _).mpr ⟨d, rfl, rfl, rfl, hne⟩, rfl⟩

/-- Nothing is reported exactly when no dimension is. -/
theorem reconcile_eq_nil_iff (run : NextestRun) :
    run.reconcile = [] ↔
      ∀ d, run.summary.count_of d = UInt32.ofNat (records_of d run.records) := by
  rw [List.eq_nil_iff_forall_not_mem]
  constructor
  · intro h d
    by_contra hne
    obtain ⟨found, hfound, -⟩ := List.mem_map.mp ((mem_reconcile_iff run d).mpr hne)
    exact h found hfound
  · intro h found hfound
    obtain ⟨d, -, hsummary, hrecords, hne⟩ := (mem_reconcile run found).mp hfound
    rw [hsummary, hrecords] at hne
    exact hne (h d)

/-! ## Saturating sums -/

section Sums

variable {α : Type}

theorem toNat_foldl_saturating (f : α → UInt32) (l : List α) (a : UInt32) :
    (l.foldl (fun a x => saturating_add_u32 a (f x)) a).toNat =
      min (a.toNat + (l.map fun x => (f x).toNat).sum) (2 ^ 32 - 1) := by
  induction l generalizing a with
  | nil =>
    have hlt := a.toNat_lt
    simp only [List.foldl_nil, List.map_nil, List.sum_nil]
    omega
  | cons x l ih =>
    rw [List.foldl_cons, ih, toNat_saturating_add_u32, List.map_cons, List.sum_cons]
    omega

/-- A maximum is reached, and bounds what it is taken of. -/
theorem toNat_foldl_max (f : α → UInt32) (l : List α) (a : UInt32) {n : ℕ} (ha : a.toNat ≤ n)
    (hbound : ∀ x ∈ l, (f x).toNat ≤ n) :
    (l.foldl (fun a x => max a (f x)) a).toNat ≤ n ∧
      ((a.toNat = n ∨ ∃ x ∈ l, (f x).toNat = n) →
        (l.foldl (fun a x => max a (f x)) a).toNat = n) := by
  induction l generalizing a with
  | nil =>
    refine ⟨ha, ?_⟩
    rintro (h | ⟨x, hx, -⟩)
    · exact h
    · cases hx
  | cons x l ih =>
    rw [List.forall_mem_cons] at hbound
    have hmax := toNat_max_u32 a (f x)
    obtain ⟨hle, heq⟩ := ih (max a (f x)) (by omega) hbound.2
    refine ⟨hle, fun h => heq ?_⟩
    rcases h with h | ⟨y, hy, h⟩
    · left
      omega
    · rcases List.mem_cons.mp hy with rfl | hy
      · left
        omega
      · exact .inr ⟨y, hy, h⟩

end Sums

def SuiteTally.count_of (t : SuiteTally) : TestOutcome → UInt32
  | .Passed => t.passed
  | .Failed => t.failed
  | .Ignored => t.ignored

/-- The count of a dimension in an event. -/
def count_in (v : Json.Value) (d : TestOutcome) : ℕ := (count v (dimension_name d)).toNat

/-- The tally of several events of one binary. -/
def tally_of (vs : List Json.Value) : SuiteTally := vs.foldl SuiteTally.fold .default

theorem foldl_totals_of (tallies : List SuiteTally) (totals : Totals) :
    (tallies.foldl Totals.add totals).1 =
        tallies.foldl (fun a t => saturating_add_u32 a t.passed) totals.1 ∧
      (tallies.foldl Totals.add totals).2.1 =
        tallies.foldl (fun a t => saturating_add_u32 a t.failed) totals.2.1 ∧
      (tallies.foldl Totals.add totals).2.2.1 =
        tallies.foldl (fun a t => saturating_add_u32 a t.ignored) totals.2.2.1 := by
  induction tallies generalizing totals with
  | nil => exact ⟨rfl, rfl, rfl⟩
  | cons t tallies ih => exact ih (totals.add t)

/-- **The summary has the sums of the tallies**, cut off at the largest number. -/
theorem toNat_summary_of (suites : Suites) (d : TestOutcome) :
    ((summarize_suites suites).count_of d).toNat =
      min ((suites.values.map Prod.snd).map fun t => (t.count_of d).toNat).sum (2 ^ 32 - 1) := by
  obtain ⟨hpassed, hfailed, hignored⟩ :=
    foldl_totals_of (suites.values.map Prod.snd) (0, 0, 0, 0)
  cases d with
  | Passed =>
    have hfield : (summarize_suites suites).count_of .Passed =
        ((suites.values.map Prod.snd).foldl Totals.add (0, 0, 0, 0)).1 := rfl
    rw [hfield, hpassed, toNat_foldl_saturating]
    simp [SuiteTally.count_of]
  | Failed =>
    have hfield : (summarize_suites suites).count_of .Failed =
        ((suites.values.map Prod.snd).foldl Totals.add (0, 0, 0, 0)).2.1 := rfl
    rw [hfield, hfailed, toNat_foldl_saturating]
    simp [SuiteTally.count_of]
  | Ignored =>
    have hfield : (summarize_suites suites).count_of .Ignored =
        ((suites.values.map Prod.snd).foldl Totals.add (0, 0, 0, 0)).2.2.1 := rfl
    rw [hfield, hignored, toNat_foldl_saturating]
    simp [SuiteTally.count_of]

theorem foldl_tally_of (vs : List Json.Value) (t : SuiteTally) :
    (vs.foldl SuiteTally.fold t).passed =
        vs.foldl (fun a v => saturating_add_u32 a (count v "passed")) t.passed ∧
      (vs.foldl SuiteTally.fold t).failed =
        vs.foldl (fun a v => saturating_add_u32 a (count v "failed")) t.failed ∧
      (vs.foldl SuiteTally.fold t).ignored =
        vs.foldl (fun a v => max a (count v "ignored")) t.ignored := by
  induction vs generalizing t with
  | nil => exact ⟨rfl, rfl, rfl⟩
  | cons v vs ih => exact ih (t.fold v)

/-- **The tally of a binary's events**: the sums of what passed and failed, and the largest count of
what was ignored. -/
theorem toNat_tally_of (vs : List Json.Value) :
    (∀ d, d ≠ .Ignored → ((tally_of vs).count_of d).toNat =
      min (vs.map fun v => count_in v d).sum (2 ^ 32 - 1)) ∧
    ∀ n, (∀ v ∈ vs, count_in v .Ignored ≤ n) → (∃ v ∈ vs, count_in v .Ignored = n) →
      ((tally_of vs).count_of .Ignored).toNat = n := by
  obtain ⟨hpassed, hfailed, hignored⟩ := foldl_tally_of vs .default
  constructor
  · intro d hd
    cases d with
    | Passed =>
      rw [SuiteTally.count_of, tally_of, hpassed, toNat_foldl_saturating]
      simp [SuiteTally.default, count_in, dimension_name]
    | Failed =>
      rw [SuiteTally.count_of, tally_of, hfailed, toNat_foldl_saturating]
      simp [SuiteTally.default, count_in, dimension_name]
    | Ignored => exact absurd rfl hd
  · intro n hbound hreached
    rw [SuiteTally.count_of, tally_of, hignored]
    exact (toNat_foldl_max _ vs _ (Nat.zero_le n) hbound).2 (.inr hreached)

theorem tally_of_single (v : Json.Value) (d : TestOutcome) :
    ((SuiteTally.default.fold v).count_of d).toNat = count_in v d := by
  have hlt : count_in v d < 2 ^ 32 := (count v (dimension_name d)).toNat_lt
  cases d with
  | Passed =>
    have h := (toNat_tally_of [v]).1 .Passed (by decide)
    rw [List.map_singleton, List.sum_singleton] at h
    exact h.trans (by omega)
  | Failed =>
    have h := (toNat_tally_of [v]).1 .Failed (by decide)
    rw [List.map_singleton, List.sum_singleton] at h
    exact h.trans (by omega)
  | Ignored =>
    refine (toNat_tally_of [v]).2 (count_in v .Ignored) ?_ ⟨v, List.mem_singleton_self v, rfl⟩
    intro w hw
    rw [List.mem_singleton.mp hw]

/-! ## Binaries -/

structure BinaryRun where
  suites : List Json.Value
  tests : List Json.Value

/-- The tests of a dimension, among some `test` events. -/
def tests_of (d : TestOutcome) (tests : List Json.Value) : ℕ :=
  records_of d (tests.filterMap test_record)

namespace BinaryRun

/-- The key its events have in common. -/
def key (b : BinaryRun) : Option String := b.suites.head?.bind suite_identity

/-- **An honest run of a binary**: what passed and failed is split over the partitions, and what
is ignored is restated by one partition at least and exceeded by none. -/
structure Honest (b : BinaryRun) : Prop where
  suites : ∀ v ∈ b.suites, is_suite v = true
  tests : ∀ v ∈ b.tests, (test_record v).isSome = true
  identity : ∀ v ∈ b.suites, ∀ w ∈ b.suites, suite_identity v = suite_identity w
  passed : (b.suites.map fun v => count_in v .Passed).sum = tests_of .Passed b.tests
  failed : (b.suites.map fun v => count_in v .Failed).sum = tests_of .Failed b.tests
  restated : ∃ v ∈ b.suites, count_in v .Ignored = tests_of .Ignored b.tests
  bounded : ∀ v ∈ b.suites, count_in v .Ignored ≤ tests_of .Ignored b.tests

def tallies (b : BinaryRun) : List SuiteTally :=
  match b.key with
  | some _ => [tally_of b.suites]
  | none => b.suites.map SuiteTally.default.fold

theorem Honest.identity_eq {b : BinaryRun} (h : b.Honest) {v : Json.Value} (hv : v ∈ b.suites) :
    suite_identity v = b.key := by
  rw [key]
  cases hsuites : b.suites with
  | nil =>
    rw [hsuites] at hv
    cases hv
  | cons w rest =>
    rw [List.head?_cons, Option.bind_some]
    exact h.identity v hv w (hsuites ▸ List.mem_cons_self)

/-- The binaries without an identity restate their ignored tests once. -/
def Alone (b : BinaryRun) : Prop :=
  b.key = none → (b.suites.map fun v => count_in v .Ignored).sum = tests_of .Ignored b.tests

/-- **The tallies of an honest binary are the truth.** -/
theorem Honest.tallies_sum {b : BinaryRun} (h : b.Honest) (halone : b.Alone) {d : TestOutcome}
    (hsmall : tests_of d b.tests < 2 ^ 32) :
    (b.tallies.map fun t => (t.count_of d).toNat).sum = tests_of d b.tests := by
  have hsums : d ≠ .Ignored →
      (b.suites.map fun v => count_in v d).sum = tests_of d b.tests := by
    intro hd
    cases d with
    | Passed => exact h.passed
    | Failed => exact h.failed
    | Ignored => exact absurd rfl hd
  unfold tallies
  cases hkey : b.key with
  | some key =>
    simp only [List.map_singleton, List.sum_singleton]
    by_cases hd : d = .Ignored
    · subst hd
      exact (toNat_tally_of b.suites).2 _ h.bounded h.restated
    · rw [(toNat_tally_of b.suites).1 d hd, hsums hd]
      omega
  | none =>
    have hsingle : (b.suites.map SuiteTally.default.fold).map (fun t => (t.count_of d).toNat) =
        b.suites.map fun v => count_in v d := by
      rw [List.map_map]
      exact List.map_congr_left fun v _ => tally_of_single v d
    simp only [hsingle]
    by_cases hd : d = .Ignored
    · subst hd
      exact halone hkey
    · exact hsums hd

end BinaryRun

/-! ## The events of a run -/

def suite_events (binaries : List BinaryRun) : List Json.Value := binaries.flatMap (·.suites)

def test_events (binaries : List BinaryRun) : List Json.Value := binaries.flatMap (·.tests)

def true_count (binaries : List BinaryRun) (d : TestOutcome) : ℕ :=
  (binaries.map fun b => tests_of d b.tests).sum

/-- Events that are neither counted nor recorded. -/
def Quiet (noise : List Json.Value) : Prop :=
  ∀ v ∈ noise, is_suite v = false ∧ test_record v = none

/-- Events of several binaries under one key. -/
def keyed_events (groups : List (String × List Json.Value)) : List (String × Json.Value) :=
  groups.flatMap fun g => g.2.map fun v => (g.1, v)

theorem fold_suites_same (key : String) {vs : List Json.Value} (hvs : vs ≠ []) (s : Suites) :
    fold_suites s (vs.map fun v => (key, v)) =
      s.put (key, vs.foldl SuiteTally.fold (((s.get key).map Prod.snd).getD .default)) := by
  induction vs generalizing s with
  | nil => exact absurd rfl hvs
  | cons v vs ih =>
    have hfirst : fold_suites s ((v :: vs).map fun v => (key, v)) =
        fold_suites (fold_suite s key v) (vs.map fun v => (key, v)) := rfl
    rw [hfirst]
    by_cases hrest : vs = []
    · subst hrest
      rfl
    · rw [ih hrest]
      refine Store.ext fun a => ?_
      simp only [fold_suite, Store.get_put]
      by_cases hka : key = a
      · simp only [hka, if_true, Option.map_some, Option.getD_some, List.foldl_cons]
      · simp only [hka, if_false]

/-- **Keys that are not shared have a tally each.** -/
theorem fold_suites_groups {groups : List (String × List Json.Value)} {s : Suites}
    (hkeys : (groups.map Prod.fst).Nodup) (hsome : ∀ g ∈ groups, g.2 ≠ [])
    (hnew : ∀ g ∈ groups, s.get g.1 = none) :
    (fold_suites s (keyed_events groups)).values.Perm
      (groups.map (fun g => (g.1, tally_of g.2)) ++ s.values) := by
  induction groups generalizing s with
  | nil => exact .refl _
  | cons g groups ih =>
    rw [List.map_cons, List.nodup_cons] at hkeys
    rw [List.forall_mem_cons] at hsome hnew
    have hsplit : fold_suites s (keyed_events (g :: groups)) =
        fold_suites (s.put (g.1, tally_of g.2)) (keyed_events groups) := by
      have hput := fold_suites_same g.1 hsome.1 s
      rw [hnew.1, Option.map_none, Option.getD_none] at hput
      rw [keyed_events, List.flatMap_cons, fold_suites, List.foldl_append]
      exact congrArg (fun s => fold_suites s (keyed_events groups)) hput
    have hrest : ∀ g' ∈ groups, (s.put (g.1, tally_of g.2)).get g'.1 = none := by
      intro g' hg'
      have hne : g.1 ≠ g'.1 := fun h => hkeys.1 (h ▸ List.mem_map_of_mem hg')
      rw [Store.get_put, if_neg hne]
      exact hnew.2 g' hg'
    rw [hsplit]
    refine (ih hkeys.2 hsome.2 hrest).trans ?_
    exact ((Store.values_put_perm hnew.1).append_left _).trans List.perm_middle

/-- The binaries with a key, and their events. -/
def groups_of (binaries : List BinaryRun) : List (String × List Json.Value) :=
  binaries.filterMap fun b => b.key.map fun key => (key, b.suites)

/-- **Binaries that are told apart**: no key is shared, and the events without an identity are clear
of the others. -/
structure Told (binaries : List BinaryRun) : Prop where
  keys : (binaries.filterMap BinaryRun.key).Nodup
  clear : Clear (suite_events binaries)
  alone : ∀ b ∈ binaries, b.Alone

section Run

variable {binaries : List BinaryRun} (hhonest : ∀ b ∈ binaries, b.Honest)

include hhonest in
theorem identified_events :
    (suite_events binaries).filterMap identified = keyed_events (groups_of binaries) := by
  induction binaries with
  | nil => rfl
  | cons b binaries ih =>
    rw [List.forall_mem_cons] at hhonest
    obtain ⟨hb, hrest⟩ := hhonest
    have hevent : ∀ v ∈ b.suites, identified v = b.key.map fun key => (key, v) := by
      intro v hv
      rw [identified, if_pos (hb.suites v hv), hb.identity_eq hv]
    rw [suite_events, List.flatMap_cons, List.filterMap_append, List.filterMap_congr hevent,
      ← suite_events, ih hrest, groups_of, groups_of]
    cases hkey : b.key with
    | some key =>
      rw [List.filterMap_cons_some (by rw [hkey, Option.map_some]), keyed_events, keyed_events,
        List.flatMap_cons]
      refine congrArg (· ++ _) ?_
      simp only [Option.map_some]
      exact congrFun List.filterMap_eq_map b.suites
    | none =>
      rw [List.filterMap_cons_none (by rw [hkey, Option.map_none])]
      simp

include hhonest in
theorem tallies_perm :
    (((suite_events binaries).filter unidentified).map SuiteTally.default.fold ++
      (groups_of binaries).map fun g => tally_of g.2).Perm
        (binaries.flatMap BinaryRun.tallies) := by
  induction binaries with
  | nil => exact .refl _
  | cons b binaries ih =>
    rw [List.forall_mem_cons] at hhonest
    obtain ⟨hb, hrest⟩ := hhonest
    have hun : ∀ v ∈ b.suites, unidentified v = b.key.isNone := by
      intro v hv
      rw [unidentified, hb.suites v hv, Bool.true_and, hb.identity_eq hv]
    rw [suite_events, List.flatMap_cons, List.filter_append, List.filter_congr hun,
      List.flatMap_cons, List.map_append, ← suite_events]
    cases hkey : b.key with
    | some key =>
      have hgroups : groups_of (b :: binaries) = (key, b.suites) :: groups_of binaries := by
        rw [groups_of, List.filterMap_cons_some (by rw [hkey, Option.map_some]), groups_of]
      have hnone : b.suites.filter (fun _ => (some key).isNone) = [] := by simp
      have htallies : b.tallies = [tally_of b.suites] := by
        simp only [BinaryRun.tallies, hkey]
      rw [hgroups, hnone, htallies, List.map_nil, List.nil_append, List.map_cons]
      exact List.perm_middle.trans ((ih hrest).cons _)
    | none =>
      have hgroups : groups_of (b :: binaries) = groups_of binaries := by
        rw [groups_of, List.filterMap_cons_none (by rw [hkey, Option.map_none]), groups_of]
      have hall : b.suites.filter (fun _ => (none : Option String).isNone) = b.suites := by simp
      have htallies : b.tallies = b.suites.map SuiteTally.default.fold := by
        simp only [BinaryRun.tallies, hkey]
      rw [hgroups, hall, htallies, List.append_assoc]
      exact (ih hrest).append_left _

include hhonest in
/-- **The summary of an honest run is the truth**, in any order of the events. -/
theorem toNat_summary (htold : Told binaries)
    (hsmall : ∀ d, true_count binaries d < 2 ^ 32) {evs rest : List Json.Value}
    (hquiet : ∀ v ∈ rest, is_suite v = false) (hperm : evs.Perm (suite_events binaries ++ rest))
    (d : TestOutcome) :
    ((summarize_suites (evs.foldl Capture.event .start).suites).count_of d).toNat =
      true_count binaries d := by
  have hnone : rest.filter unidentified = [] := by
    rw [List.filter_eq_nil_iff]
    intro v hv
    rw [unidentified, hquiet v hv, Bool.false_and]
    exact Bool.false_ne_true
  have hnone' : rest.filterMap identified = [] := by
    rw [List.filterMap_eq_nil_iff]
    intro v hv
    rw [identified, if_neg (by rw [hquiet v hv]; exact Bool.false_ne_true)]
  have hclear : Clear evs := by
    refine Clear.of_perm ?_ hperm.symm
    obtain ⟨hfew, hapart⟩ := htold.clear
    refine ⟨?_, ?_⟩
    · rwa [List.filter_append, hnone, List.append_nil]
    · rwa [List.filter_append, hnone, List.append_nil, List.filterMap_append, hnone',
        List.append_nil]
  -- The tallies are those of the binaries.
  have htallies : ((evs.foldl Capture.event .start).suites.values.map Prod.snd).Perm
      (binaries.flatMap BinaryRun.tallies) := by
    refine (suites_values_run hclear).trans (List.Perm.trans ?_ (tallies_perm hhonest))
    have hevents := hperm.filter unidentified
    rw [List.filter_append, hnone, List.append_nil] at hevents
    refine (hevents.map _).append ?_
    have hgroups := hperm.filterMap identified
    rw [List.filterMap_append, hnone', List.append_nil, identified_events hhonest] at hgroups
    rw [fold_suites_perm hgroups]
    have hkeys : ((groups_of binaries).map Prod.fst).Nodup := by
      have heq : (groups_of binaries).map Prod.fst = binaries.filterMap BinaryRun.key := by
        rw [groups_of, List.map_filterMap]
        refine List.filterMap_congr fun b _ => ?_
        cases b.key <;> rfl
      rw [heq]
      exact htold.keys
    have hsome : ∀ g ∈ groups_of binaries, g.2 ≠ [] := by
      intro g hg
      obtain ⟨b, hb, hg⟩ := List.mem_filterMap.mp hg
      obtain ⟨key, -, rfl⟩ := Option.map_eq_some_iff.mp hg
      obtain ⟨v, hv, -⟩ := (hhonest b hb).restated
      exact List.ne_nil_of_mem hv
    have hvalues := (fold_suites_groups hkeys hsome fun g _ => Store.get_empty g.1).map Prod.snd
    refine hvalues.trans (List.Perm.of_eq ?_)
    rw [List.map_append, List.map_map]
    have hempty : (Store.empty : Suites).values = [] :=
      List.eq_nil_iff_forall_not_mem.mpr Store.not_mem_values_empty
    rw [hempty, List.map_nil, List.append_nil]
    rfl
  have hsum : ((binaries.flatMap BinaryRun.tallies).map fun t => (t.count_of d).toNat).sum =
      true_count binaries d := by
    have hbinary : ∀ b ∈ binaries, tests_of d b.tests < 2 ^ 32 := by
      intro b hb
      have hmem : tests_of d b.tests ∈ binaries.map fun b => tests_of d b.tests :=
        List.mem_map_of_mem hb
      have hle := List.le_sum_of_mem hmem
      have hlt := hsmall d
      unfold true_count at hlt
      omega
    rw [List.map_flatMap, List.flatMap_def, List.sum_flatten, List.map_map]
    refine congrArg List.sum (List.map_congr_left fun b hb => ?_)
    exact (hhonest b hb).tallies_sum (htold.alone b hb) (hbinary b hb)
  rw [toNat_summary_of, (htallies.map _).sum_nat, hsum]
  have hlt := hsmall d
  omega

end Run

/-! ## What the reconciliation detects -/

def HasOutcome (v : Json.Value) (d : TestOutcome) : Prop :=
  ∃ r, test_record v = some r ∧ recorded_as r = d

theorem tests_of_append (d : TestOutcome) (tests tests' : List Json.Value) :
    tests_of d (tests ++ tests') = tests_of d tests + tests_of d tests' := by
  rw [tests_of, List.filterMap_append, records_of, List.countP_append]
  rfl

theorem tests_of_perm (d : TestOutcome) {tests tests' : List Json.Value}
    (h : tests.Perm tests') : tests_of d tests = tests_of d tests' :=
  (h.filterMap test_record).countP_eq _

theorem tests_of_pos_iff (d : TestOutcome) (tests : List Json.Value) :
    0 < tests_of d tests ↔ ∃ v ∈ tests, HasOutcome v d := by
  rw [tests_of, records_of, List.countP_pos_iff]
  constructor
  · rintro ⟨r, hr, hd⟩
    obtain ⟨v, hv, hrecord⟩ := List.mem_filterMap.mp hr
    exact ⟨v, hv, r, hrecord, of_decide_eq_true hd⟩
  · rintro ⟨v, hv, r, hrecord, hd⟩
    exact ⟨r, List.mem_filterMap.mpr ⟨v, hv, hrecord⟩, decide_eq_true hd⟩

theorem tests_of_single_le (d : TestOutcome) (v : Json.Value) : tests_of d [v] ≤ 1 := by
  rw [tests_of, records_of]
  refine List.countP_le_length.trans ?_
  cases hrecord : test_record v with
  | none => simp [hrecord]
  | some r => simp [hrecord]

theorem tests_of_test_events (d : TestOutcome) (binaries : List BinaryRun) :
    tests_of d (test_events binaries) = true_count binaries d := by
  induction binaries with
  | nil => rfl
  | cons b binaries ih =>
    rw [test_events, List.flatMap_cons, tests_of_append, ← test_events, ih]
    rfl

section Streams

variable [SerdeJson]

/-- A capture lists a dimension. -/
def Reports (stdout : String) (d : TestOutcome) : Prop :=
  dimension_name d ∈
    (parse_nextest_libtest_json stdout).reconcile.map SummaryDiscrepancy.dimension

/-- **What the reconciliation detects of a run**, in every order of the lines. -/
structure Detects (binaries : List BinaryRun) (noise : List Json.Value) : Prop where
  /-- The whole stream has the true counts, and nothing is reported. -/
  honest : ∀ stdout, (events stdout).Perm
      (suite_events binaries ++ (test_events binaries ++ noise)) →
    (∀ d, ((parse_nextest_libtest_json stdout).summary.count_of d).toNat =
      true_count binaries d) ∧ (parse_nextest_libtest_json stdout).reconcile = []
  /-- Without some `test` events, the dimensions of those are reported. -/
  deleted : ∀ stdout kept lost, (test_events binaries).Perm (kept ++ lost) →
    (events stdout).Perm (suite_events binaries ++ (kept ++ noise)) →
    ∀ d, Reports stdout d ↔ ∃ v ∈ lost, HasOutcome v d
  /-- With one `test` event twice, its dimension is reported. -/
  duplicated : ∀ stdout, ∀ v ∈ test_events binaries,
    (events stdout).Perm (suite_events binaries ++ (v :: test_events binaries ++ noise)) →
    ∀ d, Reports stdout d ↔ HasOutcome v d

variable {binaries : List BinaryRun} {noise : List Json.Value}

/-- **A capture of any `test` events** is reported where their counts are not the truth. -/
theorem reports_iff (hhonest : ∀ b ∈ binaries, b.Honest) (htold : Told binaries)
    (hsmall : ∀ d, true_count binaries d < 2 ^ 32) (hquiet : Quiet noise)
    {tests : List Json.Value} (htests : ∀ v ∈ tests, (test_record v).isSome = true)
    {stdout : String} (hperm : (events stdout).Perm (suite_events binaries ++ (tests ++ noise))) :
    (∀ d, ((parse_nextest_libtest_json stdout).summary.count_of d).toNat =
      true_count binaries d) ∧
    ∀ d, Reports stdout d ↔ true_count binaries d ≠ tests_of d tests % 2 ^ 32 := by
  have hnosuite : ∀ v ∈ tests ++ noise, is_suite v = false := by
    intro v hv
    rcases List.mem_append.mp hv with hv | hv
    · by_contra hsuite
      rw [Bool.not_eq_false] at hsuite
      have hsome := htests v hv
      rw [test_record_of_suite hsuite] at hsome
      cases hsome
    · exact (hquiet v hv).1
  have hsummary := toNat_summary hhonest htold hsmall hnosuite hperm
  -- The records are those of the `test` events.
  have hsuites : (suite_events binaries).filterMap test_record = [] := by
    rw [List.filterMap_eq_nil_iff]
    intro v hv
    obtain ⟨b, hb, hv⟩ := List.mem_flatMap.mp hv
    exact test_record_of_suite ((hhonest b hb).suites v hv)
  have hnoise : noise.filterMap test_record = [] :=
    List.filterMap_eq_nil_iff.mpr fun v hv => (hquiet v hv).2
  have hrecords : ∀ d, records_of d (parse_nextest_libtest_json stdout).records =
      tests_of d tests := by
    intro d
    have hlist := hperm.filterMap test_record
    rw [List.filterMap_append, List.filterMap_append, hsuites, hnoise, List.append_nil,
      List.nil_append] at hlist
    have hsorted : (parse_nextest_libtest_json stdout).records =
        sortBy record_cmp ((events stdout).filterMap test_record) := by
      rw [parse_nextest_libtest_json, records_capture]
    rw [hsorted, records_of, ((sortBy_perm _).trans hlist).countP_eq]
    rfl
  refine ⟨hsummary, fun d => ?_⟩
  rw [Reports, mem_reconcile_iff, hrecords, Ne, ← UInt32.toNat_inj, UInt32.toNat_ofNat']
  exact not_congr (by rw [← hsummary d]; exact Iff.rfl)

/-- **The reconciliation detects every loss**, for binaries that are told apart by their keys. -/
theorem reconcile_detects (hhonest : ∀ b ∈ binaries, b.Honest) (htold : Told binaries)
    (hsmall : ∀ d, true_count binaries d < 2 ^ 32) (hquiet : Quiet noise) :
    Detects binaries noise := by
  have htests : ∀ v ∈ test_events binaries, (test_record v).isSome = true := by
    intro v hv
    obtain ⟨b, hb, hv⟩ := List.mem_flatMap.mp hv
    exact (hhonest b hb).tests v hv
  refine ⟨fun stdout hperm => ?_, fun stdout kept lost hsplit hperm d => ?_,
    fun stdout v hv hperm d => ?_⟩
  · obtain ⟨hsummary, hreports⟩ := reports_iff hhonest htold hsmall hquiet htests hperm
    refine ⟨hsummary, (reconcile_eq_nil_iff _).mpr fun d => ?_⟩
    have hno : ¬ Reports stdout d := by
      rw [hreports, tests_of_test_events, not_not]
      exact (Nat.mod_eq_of_lt (hsmall d)).symm
    by_contra hne
    exact hno ((mem_reconcile_iff _ d).mpr hne)
  · have hkept : ∀ v ∈ kept, (test_record v).isSome = true := fun v hv =>
      htests v (hsplit.mem_iff.mpr (List.mem_append_left _ hv))
    have hcount : true_count binaries d = tests_of d kept + tests_of d lost := by
      rw [← tests_of_test_events, tests_of_perm d hsplit, tests_of_append]
    have hlt := hsmall d
    rw [(reports_iff hhonest htold hsmall hquiet hkept hperm).2, ← tests_of_pos_iff]
    omega
  · have hboth : ∀ w ∈ v :: test_events binaries, (test_record w).isSome = true := by
      intro w hw
      rcases List.mem_cons.mp hw with rfl | hw
      · exact htests w hv
      · exact htests w hw
    have hcount : tests_of d (v :: test_events binaries) =
        tests_of d [v] + true_count binaries d := by
      rw [← tests_of_test_events]
      exact tests_of_append d [v] (test_events binaries)
    have hsingle : 0 < tests_of d [v] ↔ HasOutcome v d := by
      rw [tests_of_pos_iff]
      simp only [List.mem_singleton, exists_eq_left]
    have hle := tests_of_single_le d v
    have hlt := hsmall d
    rw [(reports_iff hhonest htold hsmall hquiet hboth hperm).2, hcount, ← hsingle]
    omega

end Streams

/-! ## A binary without an identity, run in partitions -/

section Witness

/-- A `suite` event of a partition that ignored one test, without an identity. -/
def bare_suite : Json.Value :=
  .object [("type", .string "suite"), ("event", .string "ok"), ("ignored", .number (.PosInt 1))]

/-- The same, with the identity of a binary. -/
def api_suite : Json.Value :=
  .object [("type", .string "suite"), ("event", .string "ok"), ("ignored", .number (.PosInt 1)),
    ("nextest", .object [("crate", .string "alpha"), ("test_binary", .string "api"),
      ("kind", .string "test")])]

/-- The event of the test. -/
def ignored_test : Json.Value :=
  .object [("type", .string "test"), ("event", .string "ignored"),
    ("name", .string "api$smoke")]

def bare_suite_line : String :=
  "\x7b\"type\":\"suite\",\"event\":\"ok\",\"ignored\":1\x7d"

def ignored_test_line : String :=
  "\x7b\"type\":\"test\",\"event\":\"ignored\",\"name\":\"api$smoke\"\x7d"

/-- The values of these lines. -/
@[reducible] def two_lines : SerdeJson where
  from_str text :=
    if text = bare_suite_line then some bare_suite
    else if text = ignored_test_line then some ignored_test
    else none

attribute [local instance] two_lines

/-- The binary, in two partitions. -/
def bare_binary : BinaryRun := ⟨[bare_suite, bare_suite], [ignored_test]⟩

def bare_stream : String :=
  bare_suite_line ++ "\n" ++ bare_suite_line ++ "\n" ++ ignored_test_line ++ "\n"

theorem bare_stream_events : events bare_stream = [bare_suite, bare_suite, ignored_test] := by
  have hlines : lines bare_stream.toList =
      [bare_suite_line.toList, bare_suite_line.toList, ignored_test_line.toList] := by
    decide +kernel
  have htrim : trim_chars bare_suite_line.toList = bare_suite_line.toList ∧
      trim_chars ignored_test_line.toList = ignored_test_line.toList := by
    decide +kernel
  have hsuite : line_event bare_suite_line.toList = some bare_suite := by
    rw [line_event, htrim.1, String.ofList_toList, if_neg (by decide +kernel)]
    exact if_pos rfl
  have htest : line_event ignored_test_line.toList = some ignored_test := by
    rw [line_event, htrim.2, String.ofList_toList, if_neg (by decide +kernel)]
    exact (if_neg (by decide +kernel)).trans (if_pos rfl)
  rw [events, hlines]
  simp only [List.filterMap_cons, hsuite, htest, List.filterMap_nil]

theorem bare_binary_honest : bare_binary.Honest where
  suites := by
    intro v hv
    simp only [bare_binary, List.mem_cons, List.not_mem_nil, or_false, or_self] at hv
    rw [hv]
    decide +kernel
  tests := by
    intro v hv
    rw [List.mem_singleton.mp hv]
    decide +kernel
  identity := by
    intro v hv w hw
    simp only [bare_binary, List.mem_cons, List.not_mem_nil, or_false, or_self] at hv hw
    rw [hv, hw]
  passed := by decide +kernel
  failed := by decide +kernel
  restated := ⟨bare_suite, List.mem_cons_self, by decide +kernel⟩
  bounded := by
    intro v hv
    simp only [bare_binary, List.mem_cons, List.not_mem_nil, or_false, or_self] at hv
    rw [hv]
    decide +kernel

/-- **An honest run is reported**: two partitions without an identity count one ignored test
twice. -/
theorem reconcile_detects_not_bare :
    ¬ ∀ (binaries : List BinaryRun) (noise : List Json.Value), (∀ b ∈ binaries, b.Honest) →
      (∀ d, true_count binaries d < 2 ^ 32) → Quiet noise → Detects binaries noise := by
  intro hall
  have hcounts : ∀ d, true_count [bare_binary] d < 2 ^ 32 := by
    intro d
    cases d <;> decide +kernel
  have h := hall [bare_binary] [] (by
    intro b hb
    rw [List.mem_singleton.mp hb]
    exact bare_binary_honest) hcounts fun v hv => absurd hv List.not_mem_nil
  obtain ⟨hsummary, -⟩ := h.honest bare_stream (List.Perm.of_eq bare_stream_events)
  have hignored := hsummary .Ignored
  rw [parse_nextest_libtest_json, bare_stream_events] at hignored
  revert hignored
  decide +kernel

/-- The same binary, with its identity. -/
def api_binary : BinaryRun := ⟨[api_suite, api_suite], [ignored_test]⟩

/-- With an identity nothing is lost. -/
theorem reconcile_detects_api : Detects [api_binary] [] := by
  have hsame : ∀ v ∈ api_binary.suites, v = api_suite := by
    intro v hv
    simpa only [api_binary, List.mem_cons, List.not_mem_nil, or_false, or_self] using hv
  have hhonest : api_binary.Honest := by
    refine ⟨fun v hv => ?_, fun v hv => ?_, fun v hv w hw => ?_, by decide +kernel,
      by decide +kernel, ⟨api_suite, List.mem_cons_self, by decide +kernel⟩, fun v hv => ?_⟩
    · rw [hsame v hv]
      decide +kernel
    · rw [List.mem_singleton.mp hv]
      decide +kernel
    · rw [hsame v hv, hsame w hw]
    · rw [hsame v hv]
      decide +kernel
  have htold : Told [api_binary] := by
    refine ⟨by decide +kernel, ⟨by decide +kernel, fun entry _ i hi => ?_⟩, fun b hb => ?_⟩
    · have hnone : ((suite_events [api_binary]).filter unidentified).length = 0 := by
        decide +kernel
      omega
    · rw [List.mem_singleton.mp hb]
      intro hkey
      exact absurd hkey (by decide +kernel)
  have hcounts : ∀ d, true_count [api_binary] d < 2 ^ 32 := by
    intro d
    cases d <;> decide +kernel
  refine reconcile_detects ?_ htold hcounts fun v hv => absurd hv List.not_mem_nil
  intro b hb
  rw [List.mem_singleton.mp hb]
  exact hhonest

end Witness

end Evidence.Bundle
