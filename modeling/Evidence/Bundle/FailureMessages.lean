/-
When `parse_cargo_test_output_detailed` gives each failing test its own message.

The name in a block's header is the test's without its binary and without what
libtest appends for `should_panic`, and the scan files the blocks of all binaries
under these names in one map. So a message is the right one exactly if the last block
found under the name a test line shows, in whichever binary and printed by whatever,
has the text of the test's own. Two binaries with a failing test of one name get one
message, and what a failing test wrote must not have a line at which a block ends.
-/
import Evidence.Bundle.Faithfulness
import Evidence.Bundle.FailureRun

set_option autoImplicit false

namespace Evidence.Bundle

open Segments Sorting

/-! ## What a run's messages are -/

/-- The text of a block, without the blank lines around it. -/
def FailureBlock.message (line_end : LineEnd) (k : FailureBlock) : String :=
  block_text (k.text.map (as_read line_end))

/-- The block printed for a test in its own binary. -/
def BinaryOutput.block_for (b : BinaryOutput) (t : TestCase) : Option FailureBlock :=
  b.blocks.find? fun k => k.name == t.name

/-- The name a test line shows. -/
def TestCase.shown (t : TestCase) : String := String.ofList (t.name.toList ++ t.suffix)

def record_key (b : BinaryOutput) (t : TestCase) : String :=
  outcome_key b.binary.name.toList (t.name.toList ++ t.suffix)

/-- A block matches no test of its binary. -/
def BinaryOutput.Unmatched (b : BinaryOutput) (k : FailureBlock) : Prop :=
  ∀ t ∈ b.binary.tests, t.name ≠ k.name

def run_failing (run : List BinaryOutput) : List (BinaryOutput × TestCase) :=
  run.flatMap fun b => b.failed.map fun t => (b, t)

/-- **Failure messages go to the right test.** A run with a binary has a result. Each
failed record is the record of a failing test, with the text of the block printed for
it in its own binary, if one was; no other record carries a text; and an error is
reported once for each name of a block that matches no test. -/
structure Attributed (line_end : LineEnd) (run : List BinaryOutput)
    (result : Option (TestSummary × List TestOutcomeRecord × List TestsError)) : Prop where
  read : result = none → run = []
  failed : ∀ summary records errors, result = some (summary, records, errors) →
    ∀ r ∈ records, r.passed = false → r.ignored = false →
      ∃ b ∈ run, ∃ t ∈ b.failed, r.key = record_key b t ∧
        r.failure_message = (b.block_for t).map (FailureBlock.message line_end)
  others : ∀ summary records errors, result = some (summary, records, errors) →
    ∀ r ∈ records, r.passed = true ∨ r.ignored = true → r.failure_message = none
  errors : ∀ summary records errors, result = some (summary, records, errors) →
    ∀ n, TestsError.OutcomeParseFailed n ∈ errors ↔
      ∃ b ∈ run, ∃ k ∈ b.blocks, k.name = n ∧ b.Unmatched k
  once : ∀ summary records errors, result = some (summary, records, errors) → errors.Nodup

/-! ## When they are right -/

/-- A test line read as such shows this name. -/
def Shown (run : List BinaryOutput) (n : String) : Prop :=
  ∃ b ∈ run, ∃ t ∈ b.binary.tests, (t.filed b.binary.name.toList).isSome ∧ t.shown = n

/-- The messages fit: for each failing test, the last block found under the name its
line shows has the text printed for it; a block that matches no test has a name no
test line shows; and any other name under which a block is found is shown by one. -/
structure MessagesFit (line_end : LineEnd) (run : List BinaryOutput) : Prop where
  failing : ∀ b ∈ run, ∀ t ∈ b.failed, (t.filed b.binary.name.toList).isSome →
    ((Store.under Prod.fst t.shown (run_pieces line_end run)).getLast?).map Prod.snd =
      (b.block_for t).map (FailureBlock.message line_end)
  unmatched : ∀ b ∈ run, ∀ k ∈ b.blocks, b.Unmatched k → ¬ Shown run k.name
  matched : ∀ piece ∈ run_pieces line_end run, ¬ Shown run piece.1 →
    ∃ b ∈ run, ∃ k ∈ b.blocks, k.name = piece.1 ∧ b.Unmatched k

/-! ## The records of a run -/

theorem filed_eq_some {b : BinaryOutput} {t : TestCase} {entry : String × TestOutcome}
    (h : t.filed b.binary.name.toList = some entry) :
    entry = (record_key b t, t.reported.outcome) := by
  unfold TestCase.filed at h
  split at h
  · cases h
  · obtain ⟨o, ho, rfl⟩ := Option.map_eq_some_iff.mp h
    have houtcome : o = t.reported.outcome := by
      rcases hreported : t.reported with _ | _ | _ | reason <;> rw [hreported] at ho <;>
        first | exact (Option.some.inj ho).symm | cases ho
    rw [houtcome]
    rfl

theorem mem_run_seen {run : List BinaryOutput} {entry : String × TestOutcome} :
    entry ∈ run_seen (run.map BinaryOutput.binary) ↔
      ∃ b ∈ run, ∃ t ∈ b.binary.tests, t.filed b.binary.name.toList = some entry := by
  simp only [run_seen, List.flatMap_map, List.mem_flatMap, TestBinary.seen, List.mem_filterMap]

/-- **A key counts as failed exactly if one of its entries does.** -/
theorem file_all_get_failed {entries : List (String × TestOutcome)} {outcomes : Outcomes}
    {k : String} :
    (file_all outcomes entries).get k = some (k, .Failed) ↔
      (k, .Failed) ∈ entries ∨ outcomes.get k = some (k, .Failed) := by
  have hstep (outcomes : Outcomes) (key : String) (o : TestOutcome) :
      (record_outcome outcomes key o).get k = some (k, .Failed) ↔
        (k, TestOutcome.Failed) = (key, o) ∨ outcomes.get k = some (k, .Failed) := by
    rw [Prod.mk.injEq]
    by_cases hk : key = k
    · subst hk
      unfold record_outcome
      rcases hget : outcomes.get key with _ | ⟨k', old⟩
      · cases o <;> simp [Store.get_put]
      · have hkey : k' = key := Store.key_of_get hget
        cases old <;> cases o <;> simp [Store.get_put, hget, hkey]
    · have hne : ¬ (k = key ∧ TestOutcome.Failed = o) := fun h => hk h.1.symm
      rcases record_outcome_cases outcomes key o with ⟨hsame, -⟩ | hput
      · rw [hsame, or_iff_right hne]
      · rw [hput, Store.get_put, if_neg hk, or_iff_right hne]
  induction entries generalizing outcomes with
  | nil => simp [file_all]
  | cons entry entries ih =>
    have hcons : file_all outcomes (entry :: entries) =
        file_all (record_outcome outcomes entry.1 entry.2) entries := rfl
    rw [hcons]
    refine ih.trans ?_
    rw [hstep, List.mem_cons, or_assoc, or_left_comm]

theorem get_messages (order : StreamOrder) (line_end : LineEnd) (run : List BinaryOutput)
    (n : String) :
    (scan_failure_blocks (output_text order line_end run)).get n =
      (Store.under Prod.fst n (run_pieces line_end run)).getLast? := by
  rw [get_scan_failure_blocks, found_texts_output]

/-- Something is stored under the names of the blocks. -/
theorem get_messages_ne_none {order : StreamOrder} {line_end : LineEnd}
    {run : List BinaryOutput} {n : String} :
    (scan_failure_blocks (output_text order line_end run)).get n ≠ none ↔
      ∃ piece ∈ run_pieces line_end run, piece.1 = n := by
  rw [get_messages, Ne, List.getLast?_eq_none_iff, Store.under, List.filter_eq_nil_iff]
  simp only [decide_eq_true_eq, not_forall, not_not, exists_prop]

/-- **A printed block is found** under its name, up to the first line that ends one, and
behind it what its lines open. -/
theorem FailureBlock.pieces_eq (line_end : LineEnd) (k : FailureBlock) :
    k.pieces line_end =
      (k.name, block_text ((k.text.map (as_read line_end)).takeWhile fun l => !is_block_end l)) ::
        found_texts (k.text.map (as_read line_end)) := by
  have hopened : opened_name (as_read line_end k.header) = some k.name.toList := by
    rw [opened_name_as_read, k.opened_header]
  rw [FailureBlock.pieces, FailureBlock.lines, List.map_cons, found_texts,
    Blocks.found_cons_some hopened, List.map_cons, String.ofList_toList, found_texts]

theorem exists_piece (line_end : LineEnd) {run : List BinaryOutput} {b : BinaryOutput}
    (hb : b ∈ run) {k : FailureBlock} (hk : k ∈ b.blocks) :
    ∃ piece ∈ run_pieces line_end run, piece.1 = k.name := by
  have hmem : (k.name, block_text ((k.text.map (as_read line_end)).takeWhile
      fun l => !is_block_end l)) ∈ k.pieces line_end := by
    rw [k.pieces_eq]
    exact List.mem_cons_self
  exact ⟨_, List.mem_flatMap.mpr ⟨b, hb, List.mem_flatMap.mpr ⟨k, hk, hmem⟩⟩, rfl⟩

abbrev run_outcomes (run : List BinaryOutput) : Outcomes :=
  file_all Store.empty (run_seen (run.map BinaryOutput.binary))

/-- **The failed entries of a run** are its failing tests' whose lines are read as such. -/
theorem failed_outcome_iff {run : List BinaryOutput} {key : String} :
    (key, TestOutcome.Failed) ∈ (run_outcomes run).values ↔
      ∃ b ∈ run, ∃ t ∈ b.failed, (t.filed b.binary.name.toList).isSome ∧
        record_key b t = key := by
  rw [Store.mem_values, file_all_get_failed, Store.get_empty]
  rw [or_iff_left (by nofun), mem_run_seen]
  constructor
  · rintro ⟨b, hb, t, ht, hfiled⟩
    have hentry := filed_eq_some hfiled
    rw [Prod.mk.injEq] at hentry
    have hreported : t.reported = .failed := by
      rcases hreported : t.reported with _ | _ | _
      · rw [hreported] at hentry
        cases hentry.2
      · rfl
      · rw [hreported] at hentry
        cases hentry.2
    refine ⟨b, hb, t, List.mem_filter.mpr ⟨ht, by rw [hreported]; rfl⟩, ?_, hentry.1.symm⟩
    rw [hfiled]
    rfl
  · rintro ⟨b, hb, t, ht, hfiled, rfl⟩
    obtain ⟨ht, hreported⟩ := List.mem_filter.mp ht
    obtain ⟨entry, hentry⟩ := Option.isSome_iff_exists.mp hfiled
    have heq := filed_eq_some hentry
    rw [beq_iff_eq.mp hreported] at heq
    exact ⟨b, hb, t, ht, heq ▸ hentry⟩

/-- The names the records have without their binaries are the names test lines show. -/
theorem mem_suffixes_iff {run : List BinaryOutput} {n : String} :
    n ∈ ((run_outcomes run).values.filterMap fun entry => libtest_suffix entry.1) ↔
      Shown run n := by
  have hsuffix (b : BinaryOutput) (t : TestCase) :
      libtest_suffix (record_key b t) = some t.shown :=
    libtest_suffix_outcome_key b.crate_name _
  rw [List.mem_filterMap]
  constructor
  · rintro ⟨entry, hentry, hn⟩
    rw [Store.mem_values] at hentry
    have hget : (run_outcomes run).get entry.1 ≠ none := by
      rw [hentry]
      nofun
    have hkey := file_all_get_ne_none.mp hget
    rw [Store.get_empty, or_iff_left (by simp)] at hkey
    obtain ⟨seen, hseen, hfst⟩ := List.mem_map.mp hkey
    obtain ⟨b, hb, t, ht, hfiled⟩ := mem_run_seen.mp hseen
    rw [← hfst, filed_eq_some hfiled, hsuffix, Option.some.injEq] at hn
    exact ⟨b, hb, t, ht, by rw [hfiled]; rfl, hn⟩
  · rintro ⟨b, hb, t, ht, hfiled, rfl⟩
    obtain ⟨seen, hseen⟩ := Option.isSome_iff_exists.mp hfiled
    have hget : (run_outcomes run).get seen.1 ≠ none :=
      file_all_get_ne_none.mpr (.inl (List.mem_map_of_mem
        (mem_run_seen.mpr ⟨b, hb, t, ht, hseen⟩)))
    obtain ⟨entry, hentry⟩ := Option.ne_none_iff_exists'.mp hget
    refine ⟨entry, Store.mem_values_of_get hentry, ?_⟩
    have hkey : entry.1 = seen.1 := Store.key_of_get hentry
    rw [hkey, filed_eq_some hseen, hsuffix]

/-! ## The claim -/

section Claim

variable {order : StreamOrder} {line_end : LineEnd} {run : List BinaryOutput}

theorem failure_message_record_key (messages : Messages) (b : BinaryOutput) (t : TestCase) :
    (outcome_record messages (record_key b t, .Failed)).failure_message =
      (messages.get t.shown).map Prod.snd :=
  failure_message_outcome_record messages (libtest_suffix_outcome_key b.crate_name _)

theorem failed_of_outcome_record {messages : Messages} {entry : String × TestOutcome}
    (hpassed : (outcome_record messages entry).passed = false)
    (hignored : (outcome_record messages entry).ignored = false) : entry = (entry.1, .Failed) := by
  obtain ⟨key, o⟩ := entry
  cases o with
  | Passed => cases hpassed
  | Failed => rfl
  | Ignored => cases hignored

theorem mem_run_errors {n : String} :
    TestsError.OutcomeParseFailed n ∈
        ((scan_failure_blocks (output_text order line_end run)).values.filter fun entry =>
          !((run_outcomes run).values.filterMap
            fun entry => libtest_suffix entry.1).contains entry.1).map
              (fun entry => TestsError.OutcomeParseFailed entry.1) ↔
      (∃ piece ∈ run_pieces line_end run, piece.1 = n) ∧ ¬ Shown run n := by
  rw [mem_detailed_errors, get_messages_ne_none, mem_suffixes_iff]

theorem attributed_of_fit (hne : run ≠ []) (hquiet : TestsQuiet run)
    (hfit : MessagesFit line_end run) :
    Attributed line_end run
      (parse_cargo_test_output_detailed (output_text order line_end run)) := by
  obtain ⟨summary, hparse⟩ := parse_output order line_end hne hquiet
  rw [parse_detailed_of_outcomes hparse]
  refine ⟨nofun, ?_, ?_, ?_, ?_⟩
  · intro summary' records errors hresult r hr hpassed hignored
    rw [Option.some.injEq, Prod.mk.injEq, Prod.mk.injEq] at hresult
    obtain ⟨-, rfl, -⟩ := hresult
    obtain ⟨entry, hentry, rfl⟩ := List.mem_map.mp ((sortBy_perm _).mem_iff.mp hr)
    rw [failed_of_outcome_record hpassed hignored] at hentry ⊢
    obtain ⟨b, hb, t, ht, hfiled, hkey⟩ := failed_outcome_iff.mp hentry
    rw [← hkey]
    refine ⟨b, hb, t, ht, key_outcome_record _ _ _ _, ?_⟩
    rw [failure_message_record_key, get_messages]
    exact hfit.failing b hb t ht hfiled
  · intro summary' records errors hresult r hr hother
    rw [Option.some.injEq, Prod.mk.injEq, Prod.mk.injEq] at hresult
    obtain ⟨-, rfl, -⟩ := hresult
    obtain ⟨⟨key, o⟩, -, rfl⟩ := List.mem_map.mp ((sortBy_perm _).mem_iff.mp hr)
    cases o with
    | Passed => rfl
    | Failed => rcases hother with h | h <;> cases h
    | Ignored => rfl
  · intro summary' records errors hresult n
    rw [Option.some.injEq, Prod.mk.injEq, Prod.mk.injEq] at hresult
    obtain ⟨-, -, rfl⟩ := hresult
    rw [mem_run_errors]
    constructor
    · rintro ⟨⟨piece, hpiece, rfl⟩, hshown⟩
      exact hfit.matched piece hpiece hshown
    · rintro ⟨b, hb, k, hk, rfl, hunmatched⟩
      exact ⟨exists_piece line_end hb hk, hfit.unmatched b hb k hk hunmatched⟩
  · intro summary' records errors hresult
    rw [Option.some.injEq, Prod.mk.injEq, Prod.mk.injEq] at hresult
    obtain ⟨-, -, rfl⟩ := hresult
    exact detailed_errors_nodup _ _

theorem fit_of_attributed (hne : run ≠ []) (hquiet : TestsQuiet run)
    (hdistinct : ((run_failing run).map fun test => record_key test.1 test.2).Nodup)
    (hattributed : Attributed line_end run
      (parse_cargo_test_output_detailed (output_text order line_end run))) :
    MessagesFit line_end run := by
  obtain ⟨summary, hparse⟩ := parse_output order line_end hne hquiet
  rw [parse_detailed_of_outcomes hparse] at hattributed
  refine ⟨fun b hb t ht hfiled => ?_, fun b hb k hk hunmatched hshown => ?_,
    fun piece hpiece hshown => ?_⟩
  · -- the test has a failed record, which is the record of no other failing test
    have hentry := failed_outcome_iff.mpr ⟨b, hb, t, ht, hfiled, rfl⟩
    have hrecord : outcome_record (scan_failure_blocks (output_text order line_end run))
        (record_key b t, .Failed) ∈ sortBy record_cmp ((run_outcomes run).values.map
          (outcome_record (scan_failure_blocks (output_text order line_end run)))) :=
      (sortBy_perm _).mem_iff.mpr (List.mem_map_of_mem hentry)
    obtain ⟨b', hb', t', ht', hkey, hmessage⟩ :=
      hattributed.failed _ _ _ rfl _ hrecord (failed_outcome_record _ _).1
        (failed_outcome_record _ _).2
    have hsame : record_key b t = record_key b' t' :=
      (key_outcome_record _ _ _ _).symm.trans hkey
    have hfailing {b : BinaryOutput} {t : TestCase} (hb : b ∈ run) (ht : t ∈ b.failed) :
        (b, t) ∈ run_failing run :=
      List.mem_flatMap.mpr ⟨b, hb, List.mem_map_of_mem ht⟩
    have heq := List.inj_on_of_nodup_map hdistinct (hfailing hb ht) (hfailing hb' ht') hsame
    rw [Prod.mk.injEq] at heq
    rw [failure_message_record_key, get_messages, ← heq.1, ← heq.2] at hmessage
    exact hmessage
  · have herror := (hattributed.errors _ _ _ rfl k.name).mpr ⟨b, hb, k, hk, rfl, hunmatched⟩
    exact (mem_run_errors.mp herror).2 hshown
  · exact (hattributed.errors _ _ _ rfl piece.1).mp
      (mem_run_errors.mpr ⟨⟨piece, hpiece, rfl⟩, hshown⟩)

/-- **When failure messages go to the right test**: where no test writes a line that the
scan for outcomes takes for cargo's or libtest's, exactly if the messages fit. -/
theorem failure_messages_iff (hquiet : TestsQuiet run)
    (hdistinct : ((run_failing run).map fun test => record_key test.1 test.2).Nodup) :
    Attributed line_end run
        (parse_cargo_test_output_detailed (output_text order line_end run)) ↔
      MessagesFit line_end run := by
  by_cases hne : run = []
  · subst hne
    have hnone : parse_cargo_test_output_detailed (output_text order line_end []) = none := by
      cases order <;> rfl
    rw [hnone]
    refine iff_of_true ⟨fun _ => rfl, nofun, nofun, nofun, nofun⟩ ⟨nofun, nofun, nofun⟩
  · exact ⟨fit_of_attributed hne hquiet hdistinct, attributed_of_fit hne hquiet⟩

end Claim

/-! ## Two tests of one name -/

def failing_works : TestCase where
  name := "works"
  should_panic := false
  reported := .failed
  name_plain := by decide
  reason_plain := nofun

/-- A crate's unit tests, with what `works` wrote before it failed. -/
def failing_crate (name : String) (text : List Char) (hname : name.toList ≠ [])
    (hplain : '/' ∉ name.toList ∧ '(' ∉ name.toList ∧ '\n' ∉ name.toList)
    (hcrate : ':' ∉ name.toList) (htext : '\n' ∉ text) : BinaryOutput where
  binary :=
    { name := name
      described := "unittests src/lib.rs"
      dir := "target/release/deps"
      hash := "7b92d1fa04c8e635"
      tests := [failing_works]
      filtered_out := 0
      duration := "0.03"
      name_ne := hname
      name_plain := hplain
      hash_plain := by decide
      header_plain := by decide
      duration_plain := by decide }
  blocks :=
    [{ name := "works"
       text := [text]
       name_ne := by decide
       name_plain := by decide
       text_plain := fun l hl => List.mem_singleton.mp hl ▸ htext }]
  blocks_nodup := List.nodup_singleton _
  crate_name := hcrate

/-- The run of one crate. -/
def alpha_run : List BinaryOutput :=
  [failing_crate "alpha" "left".toList (by decide) (by decide) (by decide) (by decide)]

/-- The run of two crates. -/
def alpha_beta_run : List BinaryOutput :=
  alpha_run ++
    [failing_crate "beta" "right".toList (by decide) (by decide) (by decide) (by decide)]

/-- The run of one crate has the message of its test. -/
theorem failure_messages_one :
    Attributed .Lf alpha_run
      (parse_cargo_test_output_detailed (output_text .Interleaved .Lf alpha_run)) := by
  refine (failure_messages_iff (by unfold TestsQuiet; decide) (by decide)).mpr ⟨by decide, ?_, ?_⟩
  · intro b hb k hk hunmatched
    rw [alpha_run, List.mem_singleton] at hb
    subst hb
    exact absurd (by rw [List.mem_singleton.mp hk]; rfl)
      (hunmatched failing_works List.mem_cons_self)
  · intro piece hpiece hshown
    have hpieces : run_pieces .Lf alpha_run = [("works", "left")] := by decide
    rw [hpieces, List.mem_singleton] at hpiece
    exact absurd ⟨_, List.mem_cons_self, failing_works, List.mem_cons_self, by decide,
      by rw [hpiece]; decide⟩ hshown

/-- **Two crates with a test `works` get one message**: the record of `alpha::works`
carries what `beta::works` wrote. -/
theorem failure_messages_mixed :
    ¬ Attributed .Lf alpha_beta_run
      (parse_cargo_test_output_detailed (output_text .Interleaved .Lf alpha_beta_run)) := by
  intro hattributed
  have hfit := fit_of_attributed (by decide) (by unfold TestsQuiet; decide) (by decide) hattributed
  have halpha := hfit.failing _ List.mem_cons_self failing_works
    (List.mem_filter.mpr ⟨List.mem_cons_self, rfl⟩) (by decide)
  exact absurd halpha (by decide)

end Evidence.Bundle
