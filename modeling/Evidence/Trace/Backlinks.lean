/-
`trace/test_backlinks.rs` and `verify/llr_selectors.rs` -- from a requirement to its tests,
and back from the test records.

`generate` gives a test record the uids that a test entry links to, of every entry one of
whose selectors is the record's qualified name or a module path in front of it. `verify`
reads the records back and reports every low-level requirement that is to be tested and
that no record names.

The two are one join, read in the two directions (`check_backlinked`): reported are the
requirements to which no test entry links that selects a test that was run.
-/
import Evidence.Bundle.Nextest
import Evidence.Cli.VerifyError
import Evidence.Trace.EvidenceState

set_option autoImplicit false

namespace Evidence.Trace

open Sorting Evidence.Bundle
open Cli (TraceToml)

/-! ## Generating -/

/-- The name that selectors are compared with. -/
def qualified (record : TestOutcomeRecord) : String :=
  if record.module_path.toList.isEmpty then record.name
  else record.module_path ++ "::" ++ record.name

/-- A selector equals the name, or is in front of a `::` of it. -/
def selector_matches_qualified (selectors : List String) (qualified : String) : Bool :=
  selectors.any fun sel =>
    sel == qualified ||
      ( strip_prefix sel qualified).any fun rest => "::".toList.isPrefixOf rest.toList

/-- Every record with the uids of the entries that match it, each once and sorted. -/
def resolve_llr_backlinks (records : List TestOutcomeRecord) (tests : List TestEntry) :
    List TestOutcomeRecord :=
  records.map fun record =>
    { record with
      requirement_uids :=
        (sortBy compare ((tests.filter fun test =>
          selector_matches_qualified test.all_selectors (qualified record)).flatMap
            TestEntry.traces_to)).destutter (· ≠ ·) }

/-- A member that may be left out. -/
def skipped (key : String) (value : Option Json.Value) : List (String × Json.Value) :=
  (value.map (key, ·)).toList

def nonempty (text : String) : Option Json.Value :=
  if text.toList.isEmpty then none else some (.string text)

def record_value (record : TestOutcomeRecord) : Json.Value :=
  .object
    ([("name", .string record.name), ("module_path", .string record.module_path)] ++
      skipped "package" (nonempty record.package) ++ skipped "binary" (nonempty record.binary) ++
      skipped "harness" (nonempty record.harness) ++
      [("passed", .bool record.passed), ("ignored", .bool record.ignored)] ++
      skipped "failure_message" (record.failure_message.map .string) ++
      skipped "duration_ms" (record.duration_ms.map fun ms => .number (.PosInt ms.toNat)) ++
      skipped "requirement_uids" (if record.requirement_uids.isEmpty then none
        else some (.array (record.requirement_uids.map .string))))

/-- `tests/test_outcomes.jsonl`: a line for each record, and no file without one. -/
def write_outcomes_jsonl (to_string : TestOutcomeRecord → String)
    (records : List TestOutcomeRecord) : Option String :=
  if records.isEmpty then none
  else some (String.ofList (records.flatMap fun record => (to_string record).toList ++ ['\n']))

section Read

variable [TraceToml]

/-- The test entries of all roots that exist and can be read. -/
def all_tests (disk : String → Option DiskRoot) (trace_roots : List String) : List TestEntry :=
  (files_under disk trace_roots).flatMap (·.tests.tests)

/-- The file that is written. -/
def enrich_and_write_test_outcomes (to_string : TestOutcomeRecord → String)
    (records : List TestOutcomeRecord) (disk : String → Option DiskRoot)
    (trace_roots : List String) : Option String :=
  write_outcomes_jsonl to_string (resolve_llr_backlinks records (all_tests disk trace_roots))

/-! ## Verifying -/

variable [SerdeJson]

/-- The strings of a member that is an array. -/
def string_items (key : String) (value : Json.Value) : List String :=
  match value.get key with
  | some (.array items) => items.filterMap Json.Value.as_str
  | _ => []

/-- The uids that the records name; a line that is no JSON names none. -/
def claimed_uids (jsonl : String) : List String :=
  ((lines jsonl.toList).filter fun line => !(trim_chars line).isEmpty).flatMap fun line =>
    ((SerdeJson.from_str (String.ofList line)).map (string_items "requirement_uids")).getD []

def tested_uid (llr : LlrEntry) : Option String :=
  if llr.verification_methods.any fun m => eq_ignore_ascii_case m "test" then
    llr.uid.filter fun uid => !uid.toList.isEmpty
  else none

/-- The check of a bundle with these two files; without one of them, or where
`trace/llr.toml` does not parse, nothing is checked. -/
def check_llr_test_selectors (jsonl : Option String) (llr_file : Option LlrFile) :
    List Cli.VerifyError :=
  match jsonl, llr_file with
  | some jsonl, some file =>
    file.requirements.filterMap fun llr =>
      (tested_uid llr).bind fun uid =>
        if uid ∈ claimed_uids jsonl then none else some (.LlrTestSelectorUnresolved uid llr.id)
  | _, _ => []

end Read

/-! ## The loop -/

/-- A selector is the name, or a module path in front of it. -/
def Selects (sel name : String) : Prop := sel = name ∨ (sel ++ "::").toList <+: name.toList

theorem selector_matches_iff {selectors : List String} {name : String} :
    selector_matches_qualified selectors name = true ↔ ∃ sel ∈ selectors, Selects sel name := by
  rw [selector_matches_qualified, List.any_eq_true]
  refine exists_congr fun sel => and_congr_right fun _ => ?_
  rw [Bool.or_eq_true, beq_iff_eq, Selects, String.toList_append, strip_prefix]
  refine or_congr Iff.rfl ?_
  split
  · next hprefix =>
    obtain ⟨rest, hrest⟩ := List.isPrefixOf_iff_prefix.mp hprefix
    rw [← hrest, ← String.length_toList, List.drop_left, Option.any_some, String.toList_ofList,
      List.isPrefixOf_iff_prefix, String.toList_ofList, List.prefix_append_right_inj]
  · next hprefix =>
    refine iff_of_false Bool.false_ne_true fun hsel => hprefix ?_
    exact List.isPrefixOf_iff_prefix.mpr ((List.prefix_append _ _).trans hsel)

theorem find?_skipped {key name : String} (hname : key ≠ name) (value : Option Json.Value) :
    (skipped key value).find? (fun member => member.1 == name) = none := by
  cases value with
  | none => rfl
  | some value => exact List.find?_cons_of_neg (by simpa using hname)

theorem string_items_record_value (record : TestOutcomeRecord) :
    string_items "requirement_uids" (record_value record) = record.requirement_uids := by
  simp only [string_items, record_value, Json.Value.get, List.find?_append,
    find?_skipped (show "package" ≠ "requirement_uids" by decide),
    find?_skipped (show "binary" ≠ "requirement_uids" by decide),
    find?_skipped (show "harness" ≠ "requirement_uids" by decide),
    find?_skipped (show "failure_message" ≠ "requirement_uids" by decide),
    find?_skipped (show "duration_ms" ≠ "requirement_uids" by decide)]
  by_cases hnone : record.requirement_uids.isEmpty = true
  · rw [if_pos hnone, List.isEmpty_iff.mp hnone]
    rfl
  · rw [if_neg hnone]
    have hstrings : (record.requirement_uids.map Json.Value.string).filterMap Json.Value.as_str =
        record.requirement_uids := by
      rw [List.filterMap_map]
      exact List.filterMap_some
    exact hstrings

structure Serialized [SerdeJson] (to_string : TestOutcomeRecord → String)
    (record : TestOutcomeRecord) : Prop where
  read : SerdeJson.from_str (to_string record) = some (record_value record)
  line : '\n' ∉ (to_string record).toList
  opens : (to_string record).toList.head? = some '\x7b'
  closes : (to_string record).toList.getLast? = some '\x7d'

/-- **The uids of written records are read back.** -/
theorem claimed_uids_written [SerdeJson] {to_string : TestOutcomeRecord → String}
    {records : List TestOutcomeRecord}
    (hwritten : ∀ record ∈ records, Serialized to_string record) :
    claimed_uids (String.ofList (records.flatMap fun record =>
      (to_string record).toList ++ ['\n'])) =
        records.flatMap TestOutcomeRecord.requirement_uids := by
  have hlines : lines (records.flatMap fun record => (to_string record).toList ++ ['\n']) =
      records.map fun record => (to_string record).toList := by
    have hsplit := @lines_flatMap (records.map fun record => (to_string record).toList) ?_
    · rw [List.flatMap_map, List.map_map] at hsplit
      rw [hsplit]
      refine List.map_congr_left fun record hrecord => ?_
      exact if_neg (by rw [(hwritten record hrecord).closes]; decide)
    · rintro line hline
      obtain ⟨record, hrecord, rfl⟩ := List.mem_map.mp hline
      exact (hwritten record hrecord).line
  rw [claimed_uids, String.toList_ofList, hlines]
  clear hlines
  induction records with
  | nil => rfl
  | cons record records ih =>
    obtain ⟨hrecord, hrest⟩ := List.forall_mem_cons.mp hwritten
    have hblank : (trim_chars (to_string record).toList).isEmpty = false := by
      rw [trim_chars, Segments.strip_framed hrecord.opens hrecord.closes (by decide) (by decide),
        List.isEmpty_eq_false_iff]
      exact List.ne_nil_of_mem (List.mem_of_mem_head? hrecord.opens)
    rw [List.map_cons, List.filter_cons_of_pos (by rw [hblank]; rfl), List.flatMap_cons, ih hrest,
      String.ofList_toList, hrecord.read, List.flatMap_cons]
    exact congrArg (· ++ _) (string_items_record_value record)

/-- A test entry that links to the uid selects a test that was run. -/
def Exercised (records : List TestOutcomeRecord) (tests : List TestEntry) (uid : String) : Prop :=
  ∃ test ∈ tests, uid ∈ test.traces_to ∧
    ∃ record ∈ records, ∃ sel ∈ test.all_selectors, Selects sel (qualified record)

theorem mem_backlinks {records : List TestOutcomeRecord} {tests : List TestEntry} {uid : String} :
    uid ∈ (resolve_llr_backlinks records tests).flatMap TestOutcomeRecord.requirement_uids ↔
      Exercised records tests uid := by
  rw [resolve_llr_backlinks, List.flatMap_map, List.mem_flatMap]
  simp only [mem_destutter_ne, mem_sortBy, List.mem_flatMap, List.mem_filter,
    selector_matches_iff]
  constructor
  · rintro ⟨record, hrecord, test, ⟨htest, hselects⟩, huid⟩
    exact ⟨test, htest, huid, record, hrecord, hselects⟩
  · rintro ⟨test, htest, huid, record, hrecord, hselects⟩
    exact ⟨record, hrecord, test, ⟨htest, hselects⟩, huid⟩

open Classical in
/-- **What `verify` reports of what `generate` joined**: with test records, the requirements
that are to be tested and that no test entry of the roots links to whose selectors name a
test that was run; without test records, nothing. -/
theorem check_backlinked [SerdeJson] [TraceToml] {to_string : TestOutcomeRecord → String}
    {records : List TestOutcomeRecord} {disk : String → Option DiskRoot}
    {trace_roots : List String}
    (hwritten : ∀ record ∈ resolve_llr_backlinks records (all_tests disk trace_roots),
      Serialized to_string record)
    (file : LlrFile) :
    check_llr_test_selectors (enrich_and_write_test_outcomes to_string records disk trace_roots)
        (some file) =
      if records = [] then []
      else file.requirements.filterMap fun llr =>
        ((tested_uid llr).filter fun uid =>
          ¬ Exercised records (all_tests disk trace_roots) uid).map fun uid =>
            .LlrTestSelectorUnresolved uid llr.id := by
  rw [enrich_and_write_test_outcomes]
  by_cases hnone : records = []
  · rw [if_pos hnone, hnone]
    rfl
  · have hne : (resolve_llr_backlinks records (all_tests disk trace_roots)).isEmpty = false := by
      rw [List.isEmpty_eq_false_iff, resolve_llr_backlinks, ne_eq, List.map_eq_nil_iff]
      exact hnone
    simp only [if_neg hnone, write_outcomes_jsonl, hne, Bool.false_eq_true, if_false,
      check_llr_test_selectors, claimed_uids_written hwritten, mem_backlinks]
    refine List.filterMap_congr fun llr _ => ?_
    cases tested_uid llr with
    | none => rfl
    | some uid =>
      by_cases hrun : Exercised records (all_tests disk trace_roots) uid
      · simp [hrun]
      · simp [hrun]

/-- A test that passed. -/
def run_test : TestOutcomeRecord := ⟨"t", "m", "", "", "", true, false, none, none, []⟩

def run_line : String :=
  "\x7b\"name\":\"t\",\"module_path\":\"m\",\"passed\":true,\"ignored\":false\x7d"

@[reducible] def run_json : SerdeJson where
  from_str text := if text = run_line then some (record_value run_test) else none

/-- A requirement that is to be tested. -/
def untested : LlrEntry :=
  ⟨some "l", none, "LLR-1", "a requirement", none, none, [], none, [], none, ["test"], []⟩

/-- `check_backlinked` without a root: the requirement is reported. -/
theorem check_backlinked_unlinked :
    @check_llr_test_selectors run_json
      (@enrich_and_write_test_outcomes Cli.two_texts (fun _ => run_line) [run_test]
        (fun _ => none) []) (some ⟨⟨"1"⟩, ⟨"LLR", "A"⟩, [untested]⟩) =
      [.LlrTestSelectorUnresolved "l" "LLR-1"] := by
  have hwritten : ∀ record ∈ resolve_llr_backlinks [run_test] [],
      @Serialized run_json (fun _ => run_line) record := by
    intro record hrecord
    rw [List.mem_singleton.mp hrecord]
    exact @Serialized.mk run_json _ _ (if_pos rfl) (by decide) (by decide) (by decide)
  have hlone : ¬ Exercised [run_test] (@all_tests Cli.two_texts (fun _ => none) []) "l" := by
    rintro ⟨test, htest, -⟩
    cases htest
  have huid : tested_uid untested = some "l" := by decide
  refine (@check_backlinked run_json Cli.two_texts (fun _ => run_line) [run_test] (fun _ => none) []
    hwritten _).trans ?_
  simp [huid, hlone]
  rfl

end Evidence.Trace
