/-
`bundle/test_summary.rs` -- the counts and the per-test outcomes of captured
`cargo test` text.

The parser reads the text twice. The first pass harvests the binary names of the
`Running …` headers; the second walks the lines and moves to the next name at
every `running N tests` line. Test lines and result lines are recognised by
their prefixes, so what a run's text is read as depends on nothing but the order
of its lines within each of the two streams.

The rendering of a run is libtest's and cargo's: one header per binary, one
`running N tests` line, one line per test and one result line. On it the parser
loses a test that is ignored with a reason and every test of a module named
`result`, and it files a `should_panic` test under a longer name; on all other
runs it returns what was run.
-/
import Evidence.Lib.Codec
import Evidence.Lib.Store
import Evidence.Lines

set_option autoImplicit false

namespace Evidence.Bundle

open Segments

/-! ## The parser -/

/-- `TestSummary`: the accumulated counts of a run. -/
structure TestSummary where
  total : UInt32
  passed : UInt32
  failed : UInt32
  ignored : UInt32
  filtered_out : UInt32
deriving DecidableEq

/-- `TestOutcome`: the outcome of a single named test. -/
inductive TestOutcome where
  | Passed
  | Failed
  | Ignored
deriving DecidableEq

/-- The map from keys `binary_name::<name>` to outcomes. -/
abbrev Outcomes := Store (Prod.fst : String × TestOutcome → String)

/-- Extract the binary name from a `Running … (target/debug/deps/<name>-<hash>)` line. -/
def extract_binary_name (line : List Char) : Option (List Char) := do
  let opening ← rfind '(' line
  let closing ← rfind ')' line
  if closing ≤ opening + 1 then none
  else
    let path := (line.take closing).drop (opening + 1)
    let basename ← (path.splitOn '/').getLast?
    let cut ← rfind '-' basename
    let bin := basename.take cut
    if bin.isEmpty then none else some bin

/-- Pass 1: the binary names in order of appearance. -/
def harvest_binaries (lines : List (List Char)) : List (List Char) :=
  (lines.filter fun line => "Running ".toList.isPrefixOf line).filterMap extract_binary_name

structure Scan where
  binary_idx : Int
  outcomes : Outcomes
  total_passed : UInt64
  total_failed : UInt64
  total_ignored : UInt64
  total_filtered_out : UInt64
  found : Bool

/-- The state pass 2 starts in. -/
def Scan.start : Scan where
  binary_idx := -1
  outcomes := Store.empty
  total_passed := 0
  total_failed := 0
  total_ignored := 0
  total_filtered_out := 0
  found := false

/-- A start-of-binary marker on stdout. -/
def is_marker (line : List Char) : Bool :=
  "running ".toList.isPrefixOf line &&
    (split_whitespace line)[2]?.any fun w => w == "tests".toList || w == "test".toList

/-- The outcome a test line's tail announces. -/
def outcome_of_tail (outcome_tail : List Char) : Option TestOutcome :=
  match (split_whitespace outcome_tail).head? with
  | none => none
  | some token =>
    if token = "ok".toList then some .Passed
    else if token = "FAILED".toList then some .Failed
    else if token = "ignored".toList then some .Ignored
    else none

/-- The binary whose tests are being read. -/
def Scan.binary (s : Scan) (binaries : List (List Char)) : List Char :=
  if 0 ≤ s.binary_idx then binaries[s.binary_idx.toNat]?.getD "__unknown_binary__".toList
  else "__unknown_binary__".toList

/-- Failed wins over Passed wins over Ignored. -/
def record_outcome (outcomes : Outcomes) (key : String) (o : TestOutcome) : Outcomes :=
  match (outcomes.get key).map Prod.snd, o with
  | some .Failed, _ => outcomes
  | _, .Failed => outcomes.put (key, .Failed)
  | some .Passed, _ => outcomes
  | _, _ => outcomes.put (key, o)

/-- The key of a test. -/
def outcome_key (bin name : List Char) : String := String.ofList (bin ++ "::".toList ++ name)

/-- Add a number to the count its label names. -/
def Scan.count (s : Scan) (n : UInt64) (label : List Char) : Scan :=
  if label = "passed".toList then { s with total_passed := s.total_passed + n }
  else if label = "failed".toList then { s with total_failed := s.total_failed + n }
  else if label = "ignored".toList then { s with total_ignored := s.total_ignored + n }
  else if label = "filtered out".toList then
    { s with total_filtered_out := s.total_filtered_out + n }
  else s

/-- One segment of a result line. -/
def Scan.segment (s : Scan) (segment : List Char) : Scan :=
  let segment := (trim_chars segment).rdropWhile (· == ';')
  match split_once [' '] segment with
  | none => s
  | some (number, label) =>
    match parse_u64 number with
    | none => s
    | some n => s.count n (trim_chars label)

/-- One trimmed line of pass 2. -/
def Scan.line (binaries : List (List Char)) (s : Scan) (line : List Char) : Scan :=
  if is_marker line then { s with binary_idx := s.binary_idx + 1 }
  else if "Running ".toList.isPrefixOf line then s
  else if "test result:".toList.isPrefixOf line then
    match (strip_text "test result: ok. ".toList line).orElse fun _ =>
        strip_text "test result: FAILED. ".toList line with
    | none => s
    | some after_prefix =>
      (List.splitOn ';' after_prefix).foldl Scan.segment { s with found := true }
  else
    match strip_text "test ".toList line with
    | none => s
    | some rest =>
      match split_once " ... ".toList rest with
      | none => s
      | some (name, outcome_tail) =>
        match outcome_of_tail outcome_tail with
        | none => s
        | some o =>
          { s with
            outcomes := record_outcome s.outcomes (outcome_key (s.binary binaries) name) o }

def parse_cargo_test_output_with_outcomes (output : String) : Option (TestSummary × Outcomes) :=
  let ls := (lines (replace_crlf output.toList)).map trim_chars
  let binaries := harvest_binaries ls
  let s := ls.foldl (Scan.line binaries) Scan.start
  if s.found then
    let total := saturating_add (saturating_add (saturating_add s.total_passed s.total_failed)
      s.total_ignored) s.total_filtered_out
    some
      ({ total := total.toUInt32
         passed := s.total_passed.toUInt32
         failed := s.total_failed.toUInt32
         ignored := s.total_ignored.toUInt32
         filtered_out := s.total_filtered_out.toUInt32 }, s.outcomes)
  else none

/-! ## What one line does -/

section Lines

variable (binaries : List (List Char)) (s : Scan)

theorem Scan.line_blank : s.line binaries [] = s := by
  simp [Scan.line, is_marker, strip_text]

/-- A header is nothing to pass 2. -/
theorem Scan.line_header (rest : List Char) : s.line binaries ("Running ".toList ++ rest) = s := by
  simp [Scan.line, is_marker]

theorem Scan.line_marker (n : ℕ) {noun : List Char}
    (hnoun : noun = "test".toList ∨ noun = "tests".toList) :
    s.line binaries ("running ".toList ++ ((decimal n).toList ++ ' ' :: noun)) =
      { s with binary_idx := s.binary_idx + 1 } := by
  have hdigits : ∀ c ∈ (decimal n).toList, is_whitespace c = false :=
    fun c hc => is_whitespace_of_isDigit (isDigit_of_mem_decimal hc)
  have hrun : (∀ c ∈ noun, is_whitespace c = false) ∧ noun ≠ [] := by
    rcases hnoun with rfl | rfl <;> decide
  have hsplit : "running ".toList ++ ((decimal n).toList ++ ' ' :: noun) =
      "running".toList ++ ' ' :: ((decimal n).toList ++ ' ' :: noun) := by
    simp
  have htokens : split_whitespace ("running ".toList ++ ((decimal n).toList ++ ' ' :: noun)) =
      ["running".toList, (decimal n).toList, noun] := by
    rw [hsplit, split_whitespace, tokens_append_cons (by decide) (by decide) (by decide),
      tokens_append_cons hdigits (decimal_ne_nil n) (by decide), tokens_run hrun.1 hrun.2]
  have hmarker : is_marker ("running ".toList ++ ((decimal n).toList ++ ' ' :: noun)) = true := by
    rw [is_marker, htokens]
    rcases hnoun with rfl | rfl <;> simp
  rw [Scan.line, hmarker, if_pos rfl]

theorem Scan.line_result {status : List Char}
    (hstatus : status = "ok".toList ∨ status = "FAILED".toList) (rest : List Char) :
    s.line binaries ("test result: ".toList ++ (status ++ (". ".toList ++ rest))) =
      (rest.splitOn ';').foldl Scan.segment { s with found := true } := by
  rcases hstatus with rfl | rfl <;> simp [Scan.line, is_marker, strip_text]

omit s in
/-- A name that looks like a result line is not read as one of the two forms of it. -/
private theorem not_result_text {name suffix : List Char} (hname : ' ' ∉ name)
    (hsuffix : suffix = [] ∨ suffix = " - should panic".toList) (tail : List Char)
    {status : List Char} (hstatus : status = "ok. ".toList ∨ status = "FAILED. ".toList) :
    strip_text ("test result: ".toList ++ status)
      ("test ".toList ++ (name ++ (suffix ++ (" ... ".toList ++ tail)))) = none := by
  rw [strip_text, if_neg]
  intro h
  -- the name ends at the first blank, so it would be `result:`
  obtain ⟨rest, hrest⟩ := List.isPrefixOf_iff_prefix.mp h
  have hline : "result:".toList ++ (" ".toList ++ (status ++ rest)) =
      name ++ (suffix ++ (" ... ".toList ++ tail)) := by
    simpa using hrest
  have hnone : ∀ c ∈ name, (c != ' ') = true :=
    fun c hc => bne_iff_ne.mpr fun hblank => hname (hblank ▸ hc)
  have hstops : Codec.Stops (· != ' ') (suffix ++ (" ... ".toList ++ tail)) := by
    rcases hsuffix with rfl | rfl <;> simp [Codec.Stops]
  have hafter := (Codec.run_inj (· != ' ') (by decide) hnone (by simp [Codec.Stops]) hstops hline).2
  rcases hsuffix with rfl | rfl <;> rcases hstatus with rfl | rfl <;> simp at hafter

theorem Scan.line_test {name suffix : List Char} (hname : ' ' ∉ name)
    (hsuffix : suffix = [] ∨ suffix = " - should panic".toList) (tail : List Char) :
    s.line binaries ("test ".toList ++ (name ++ (suffix ++ (" ... ".toList ++ tail)))) =
      if "result:".toList.isPrefixOf name then s
      else match outcome_of_tail tail with
        | none => s
        | some o =>
          { s with
            outcomes := record_outcome s.outcomes
              (outcome_key (s.binary binaries) (name ++ suffix)) o } := by
  have hblank : ∃ rest, suffix ++ (" ... ".toList ++ tail) = ' ' :: rest := by
    rcases hsuffix with rfl | rfl
    · exact ⟨"... ".toList ++ tail, by simp⟩
    · exact ⟨"- should panic ... ".toList ++ tail, by simp⟩
  have hsplit : split_once " ... ".toList (name ++ (suffix ++ (" ... ".toList ++ tail))) =
      some (name ++ suffix, tail) := by
    rw [show " ... ".toList = ' ' :: "... ".toList by simp, split_once_append hname]
    rcases hsuffix with rfl | rfl
    · simp [split_once]
    · simp [split_once]
  have hmarker : is_marker ("test ".toList ++ (name ++ (suffix ++ (" ... ".toList ++ tail)))) =
      false := by
    simp [is_marker]
  have hheader : "Running ".toList.isPrefixOf
      ("test ".toList ++ (name ++ (suffix ++ (" ... ".toList ++ tail)))) = false := by
    simp [List.isPrefixOf]
  have haggregate : "test result:".toList.isPrefixOf
      ("test ".toList ++ (name ++ (suffix ++ (" ... ".toList ++ tail)))) =
      "result:".toList.isPrefixOf name := by
    obtain ⟨rest, hrest⟩ := hblank
    rw [hrest, ← isPrefixOf_append_cons (by decide : ' ' ∉ "result:".toList) name rest]
    simp
  rw [Scan.line, hmarker, hheader, haggregate, if_neg Bool.false_ne_true,
    if_neg Bool.false_ne_true, strip_text_append]
  simp only [hsplit]
  refine if_congr Iff.rfl ?_ rfl
  have hok := not_result_text hname hsuffix tail (.inl rfl)
  have hfailed := not_result_text hname hsuffix tail (.inr rfl)
  rw [show "test result: ok. ".toList = "test result: ".toList ++ "ok. ".toList by simp, hok,
    show "test result: FAILED. ".toList = "test result: ".toList ++ "FAILED. ".toList by simp,
    Option.orElse_none, hfailed]

/-- A segment adds to a count and leaves the rest of the state. -/
theorem Scan.segment_frame (segment : List Char) :
    (s.segment segment).binary_idx = s.binary_idx ∧ (s.segment segment).outcomes = s.outcomes ∧
      (s.segment segment).found = s.found := by
  unfold Scan.segment
  simp only
  split
  · exact ⟨rfl, rfl, rfl⟩
  · split
    · exact ⟨rfl, rfl, rfl⟩
    · unfold Scan.count
      split_ifs <;> exact ⟨rfl, rfl, rfl⟩

/-- So does a whole result line. -/
theorem Scan.segments_frame (segments : List (List Char)) :
    (segments.foldl Scan.segment s).binary_idx = s.binary_idx ∧
      (segments.foldl Scan.segment s).outcomes = s.outcomes ∧
      (segments.foldl Scan.segment s).found = s.found := by
  induction segments generalizing s with
  | nil => exact ⟨rfl, rfl, rfl⟩
  | cons segment segments ih =>
    obtain ⟨hidx, houtcomes, hfound⟩ := ih (s.segment segment)
    obtain ⟨hidx', houtcomes', hfound'⟩ := s.segment_frame segment
    exact ⟨hidx.trans hidx', houtcomes.trans houtcomes', hfound.trans hfound'⟩

theorem Scan.segment_count {lead label : List Char} (hlead : ∀ c ∈ lead, is_whitespace c = true)
    (hlabel : trim_chars label = label)
    (hlast : ∀ c ∈ label.getLast?, is_whitespace c = false ∧ (c == ';') = false)
    (hne : label ≠ []) {n : ℕ} (hn : n < 2 ^ 64) :
    s.segment (lead ++ ((decimal n).toList ++ ' ' :: label)) = s.count (UInt64.ofNat n) label := by
  have hdigits : ' ' ∉ (decimal n).toList := fun h => absurd (isDigit_of_mem_decimal h) (by decide)
  have hends : ((decimal n).toList ++ ' ' :: label).getLast? = label.getLast? := by
    rw [List.getLast?_append_of_ne_nil _ (List.cons_ne_nil _ _), List.getLast?_cons_of_ne_nil hne]
  have htrim : trim_chars (lead ++ ((decimal n).toList ++ ' ' :: label)) =
      (decimal n).toList ++ ' ' :: label := by
    rw [trim_chars, strip_append_left hlead, strip_eq_self]
    · intro c hc
      rw [List.head?_append_of_ne_nil _ (decimal_ne_nil n)] at hc
      exact is_whitespace_of_isDigit (isDigit_of_mem_decimal (List.mem_of_mem_head? hc))
    · intro c hc
      rw [hends] at hc
      exact (hlast c hc).1
  have hsemi : ((decimal n).toList ++ ' ' :: label).rdropWhile (· == ';') =
      (decimal n).toList ++ ' ' :: label := by
    rw [List.rdropWhile_eq_self_iff]
    intro hcons
    have hc := List.getLast?_eq_some_getLast hcons
    rw [hends] at hc
    rw [(hlast _ hc).2]
    exact Bool.false_ne_true
  have hsplit : split_once [' '] ((decimal n).toList ++ ' ' :: label) =
      some ((decimal n).toList, label) := by
    rw [split_once_append hdigits]
    simp [split_once]
  rw [Scan.segment, htrim, hsemi]
  simp only [hsplit, parse_u64_decimal hn, hlabel]

/-- The closing segment has no number. -/
theorem Scan.segment_finished (rest : List Char) :
    s.segment (" finished in".toList ++ rest) = s := by
  have htrim : trim_chars (" finished in".toList ++ rest) =
      "finished i".toList ++ 'n' :: rest.rdropWhile is_whitespace := by
    have hcut := @strip_between _ is_whitespace 'f' 'n' (by decide) (by decide)
      "inished i".toList rest
    rw [trim_chars, show " finished in".toList ++ rest =
      [' '] ++ 'f' :: ("inished i".toList ++ 'n' :: rest) by simp,
      strip_append_left (by decide), hcut]
    simp
  have hnumber : parse_u64 "finished".toList = none := by decide
  have hsplit (after : List Char) : split_once [' '] ("finished i".toList ++ 'n' :: after) =
      some ("finished".toList, "in".toList ++ after) := by
    simp [split_once]
  rw [Scan.segment, htrim, rdropWhile_append_cons (by decide)]
  simp only [hsplit, hnumber]

end Lines

/-! ## Tails -/

theorem outcome_of_tail_ok : outcome_of_tail "ok".toList = some .Passed := by decide

theorem outcome_of_tail_failed : outcome_of_tail "FAILED".toList = some .Failed := by decide

theorem outcome_of_tail_ignored : outcome_of_tail "ignored".toList = some .Ignored := by decide

/-- A reason stands behind a comma, which the token then carries. -/
theorem outcome_of_tail_reason (rest : List Char) :
    outcome_of_tail ("ignored,".toList ++ rest) = none := by
  rw [outcome_of_tail, split_whitespace, head_tokens_append (by decide) (by decide)]
  simp

/-! ## Filing -/

theorem record_outcome_fresh {outcomes : Outcomes} {key : String} {o : TestOutcome}
    (h : outcomes.get key = none) : record_outcome outcomes key o = outcomes.put (key, o) := by
  unfold record_outcome
  rw [h]
  cases o <;> rfl

/-- An outcome is filed under its key, in place of what was there or behind it. -/
theorem record_outcome_cases (outcomes : Outcomes) (key : String) (o : TestOutcome) :
    (record_outcome outcomes key o = outcomes ∧ outcomes.get key ≠ none) ∨
      record_outcome outcomes key o = outcomes.put (key, o) := by
  unfold record_outcome
  rcases hget : outcomes.get key with _ | ⟨k, old⟩
  · cases o <;> exact .inr rfl
  · cases old <;> cases o <;> first | exact .inl ⟨rfl, nofun⟩ | exact .inr rfl

/-- No other key comes or goes. -/
theorem record_outcome_get_ne_none {outcomes : Outcomes} {key k : String} {o : TestOutcome} :
    (record_outcome outcomes key o).get k ≠ none ↔ k = key ∨ outcomes.get k ≠ none := by
  rcases record_outcome_cases outcomes key o with ⟨hsame, hget⟩ | hput
  · rw [hsame]
    constructor
    · exact .inr
    · rintro (rfl | h)
      · exact hget
      · exact h
  · rw [hput, Store.get_put]
    split
    · next heq => exact ⟨fun _ => .inl heq.symm, fun _ => nofun⟩
    · next hne => exact ⟨.inr, fun h => h.resolve_left (Ne.symm hne)⟩

end Evidence.Bundle
