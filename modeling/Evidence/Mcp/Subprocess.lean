/-
`evidence-mcp/src/subprocess.rs` -- the terminal code, the events and the counts of a
stream of JSON lines.

`parse_jsonl` reads the output of a spawned verb, and an agent takes the terminal code
for the verdict of the run. Its documentation promises that a line that is no JSON
leaves the terminal at `MCP_MALFORMED_JSONL` for the rest of the stream. The loop holds
the terminal in one variable, which every later line with a code overwrites.

The events and the codes are maps of the lines (`parse_jsonl_events`,
`parse_jsonl_terminal`), so the loop keeps what it promises if and only if no other code
is left last, the counts fit 32 bits, and no line brings the code that stands for no
output (`parse_jsonl_promise_iff`).
-/
import Evidence.Lib.Lists
import Evidence.Lib.Store
import Evidence.Verify.TestSummaryCheck

set_option autoImplicit false

namespace Evidence.Mcp

open Evidence.Bundle Verify

/-! ## What is read -/

/-- The terminal of a subprocess that produced no line. -/
def MCP_NO_OUTPUT : String := "MCP_NO_OUTPUT"

/-- The marker for a line that is no valid JSON. -/
def MCP_MALFORMED_JSONL : String := "MCP_MALFORMED_JSONL"

/-- The terminal code, all events, and the counts by code. -/
structure Parsed where
  terminal : String
  events : List Json.Value
  summary : Tally String

def Parsed.start : Parsed where
  terminal := ""
  events := []
  summary := Store.empty

/-- `value.get("code").and_then(|c| c.as_str())`. -/
def code_of (value : Json.Value) : Option String := str_field value "code"

/-- The event that stands for a line that is no valid JSON. -/
def malformed_marker (line : String) : Json.Value :=
  .object
    [("code", .string MCP_MALFORMED_JSONL),
      ("message", .string ("evidence-mcp could not parse line as JSON: " ++ line)),
      ("severity", .string "error")]

/-- The lines that are not blank, trimmed. -/
def texts (ls : List (List Char)) : List String :=
  ((ls.map trim_chars).filter fun line => !line.isEmpty).map String.ofList

/-- The lines of a stream that are not blank, trimmed. -/
def nonblank_lines (stdout : List UInt8) : List String :=
  texts (lines (from_utf8_lossy stdout).toList)

theorem texts_nil : texts [] = [] := rfl

theorem texts_cons (line : List Char) (ls : List (List Char)) :
    texts (line :: ls) =
      if (trim_chars line).isEmpty then texts ls
      else String.ofList (trim_chars line) :: texts ls := by
  rw [texts, List.map_cons, List.filter_cons]
  by_cases hblank : (trim_chars line).isEmpty
  · simp only [hblank, Bool.not_true, Bool.false_eq_true, if_false, if_true]
    rfl
  · simp only [hblank, Bool.not_false, if_true]
    rfl

/-! ## The loop -/

section

variable [SerdeJson]

/-- One line of the stream. -/
def Parsed.line (p : Parsed) (line : List Char) : Parsed :=
  let line := trim_chars line
  if line.isEmpty then p
  else
    match SerdeJson.from_str (String.ofList line) with
    | some value =>
      match code_of value with
      | some code =>
        -- the code replaces the terminal, the malformed marker too
        { terminal := code, events := p.events ++ [value], summary := Tally.bump p.summary code }
      -- without a code the terminal stays
      | none => { p with events := p.events ++ [value] }
    | none =>
      { terminal := MCP_MALFORMED_JSONL
        events := p.events ++ [malformed_marker (String.ofList line)]
        summary := Tally.bump p.summary MCP_MALFORMED_JSONL }

/-- Parse a stream of JSON lines. -/
def parse_jsonl (stdout : List UInt8) : Parsed :=
  let p := (lines (from_utf8_lossy stdout).toList).foldl Parsed.line Parsed.start
  if p.events.isEmpty then { p with terminal := MCP_NO_OUTPUT } else p

/-! ## What a line gives -/

/-- A line is no valid JSON. -/
def Malformed (line : String) : Prop := SerdeJson.from_str line = none

def event_of (line : String) : Json.Value :=
  (SerdeJson.from_str line).getD (malformed_marker line)

/-- The code a line carries; a line that is no valid JSON carries that of the marker. -/
def line_code (line : String) : Option String := code_of (event_of line)

omit [SerdeJson] in
theorem code_of_malformed_marker (line : String) :
    code_of (malformed_marker line) = some MCP_MALFORMED_JSONL := rfl

theorem line_code_of_malformed {line : String} (h : Malformed line) :
    line_code line = some MCP_MALFORMED_JSONL := by
  rw [line_code, event_of, h, Option.getD_none, code_of_malformed_marker]

theorem Parsed.line_eq (p : Parsed) {line : List Char} (h : (trim_chars line).isEmpty = false) :
    p.line line =
      { terminal := (line_code (String.ofList (trim_chars line))).getD p.terminal
        events := p.events ++ [event_of (String.ofList (trim_chars line))]
        summary := (line_code (String.ofList (trim_chars line))).toList.foldl Tally.bump
          p.summary } := by
  rw [Parsed.line, line_code, event_of]
  simp only [h, Bool.false_eq_true, if_false]
  cases SerdeJson.from_str (String.ofList (trim_chars line)) with
  | none => rfl
  | some value =>
    rw [Option.getD_some]
    cases hcode : code_of value with
    | none => simp only [hcode]; rfl
    | some code => simp only [hcode]; rfl

/-- **The loop over the lines**: every line that is not blank adds its event, the codes
are counted, and the last code is the terminal. -/
theorem foldl_line (ls : List (List Char)) (p : Parsed) :
    ls.foldl Parsed.line p =
      { terminal := ((texts ls).filterMap line_code).getLast?.getD p.terminal
        events := p.events ++ (texts ls).map event_of
        summary := ((texts ls).filterMap line_code).foldl Tally.bump p.summary } := by
  induction ls generalizing p with
  | nil => rw [List.foldl_nil, texts_nil, List.map_nil, List.append_nil]; rfl
  | cons line ls ih =>
    rw [List.foldl_cons, ih, texts_cons]
    by_cases hblank : (trim_chars line).isEmpty
    · rw [if_pos hblank, Parsed.line]
      simp only [hblank, if_true]
    · rw [if_neg hblank, p.line_eq (by simpa using hblank), List.map_cons, List.filterMap_cons]
      cases line_code (String.ofList (trim_chars line)) with
      | none => simp only [List.append_assoc, List.singleton_append]; rfl
      | some code =>
        simp only [List.append_assoc, List.singleton_append, List.getLast?_cons, Option.getD_some]
        rfl

/-- The codes of a stream, in the order of its lines. -/
def stream_codes (stdout : List UInt8) : List String :=
  (nonblank_lines stdout).filterMap line_code

/-- **What is read of a stream**, from its lines that are not blank. -/
theorem parse_jsonl_eq (stdout : List UInt8) :
    parse_jsonl stdout =
      { terminal := if nonblank_lines stdout = [] then MCP_NO_OUTPUT
          else (stream_codes stdout).getLast?.getD ""
        events := (nonblank_lines stdout).map event_of
        summary := (stream_codes stdout).foldl Tally.bump Store.empty } := by
  rw [parse_jsonl, foldl_line, stream_codes, nonblank_lines]
  generalize texts (lines (from_utf8_lossy stdout).toList) = ls
  simp only [Parsed.start, List.nil_append, List.isEmpty_iff, List.map_eq_nil_iff]
  by_cases hnone : ls = []
  · rw [if_pos hnone, if_pos hnone]
  · rw [if_neg hnone, if_neg hnone]

/-- **One event per non-blank line, in order.** -/
theorem parse_jsonl_events (stdout : List UInt8) :
    (parse_jsonl stdout).events = (nonblank_lines stdout).map event_of := by
  rw [parse_jsonl_eq]

theorem parse_jsonl_summary (stdout : List UInt8) :
    (parse_jsonl stdout).summary = (stream_codes stdout).foldl Tally.bump Store.empty := by
  rw [parse_jsonl_eq]

/-- **The terminal is the last code**, whatever line it comes from. -/
theorem parse_jsonl_terminal (stdout : List UInt8) :
    (parse_jsonl stdout).terminal =
      if nonblank_lines stdout = [] then MCP_NO_OUTPUT
      else (stream_codes stdout).getLast?.getD "" := by
  rw [parse_jsonl_eq]

/-! ## The promise -/

/-- How many events carry a code. -/
def Parsed.carriers (p : Parsed) (code : String) : ℕ :=
  p.events.countP fun event => code_of event == some code

/-- What the output of a subprocess is promised to be read as. -/
structure JsonlPromise (stdout : List UInt8) : Prop where
  /-- One event per non-blank line, in order. -/
  events : (parse_jsonl stdout).events = (nonblank_lines stdout).map event_of
  /-- The counts are the numbers of events that carry each code. -/
  counts : ∀ code, (Tally.count_of (parse_jsonl stdout).summary code).map UInt32.toNat =
    if (parse_jsonl stdout).carriers code = 0 then none
    else some ((parse_jsonl stdout).carriers code)
  /-- A malformed line is never masked. -/
  malformed : (∃ line ∈ nonblank_lines stdout, Malformed line) →
    (parse_jsonl stdout).terminal = MCP_MALFORMED_JSONL
  /-- Otherwise the terminal is the last code that an event carries. -/
  last : (∀ line ∈ nonblank_lines stdout, ¬ Malformed line) → ∀ code,
    ((parse_jsonl stdout).events.filterMap code_of).getLast? = some code →
      (parse_jsonl stdout).terminal = code
  /-- Otherwise `MCP_NO_OUTPUT` stands for no output. -/
  no_output : (∀ line ∈ nonblank_lines stdout, ¬ Malformed line) →
    ((parse_jsonl stdout).terminal = MCP_NO_OUTPUT ↔ nonblank_lines stdout = [])

theorem events_codes (stdout : List UInt8) :
    (parse_jsonl stdout).events.filterMap code_of = stream_codes stdout := by
  rw [parse_jsonl_events, List.filterMap_map]
  rfl

theorem carriers_eq (stdout : List UInt8) (code : String) :
    (parse_jsonl stdout).carriers code = (stream_codes stdout).count code := by
  rw [← events_codes, List.count_filterMap]
  rfl

/-- **The counts are exact as long as they fit**: a count of `2^32` wraps to zero. -/
theorem counts_iff (stdout : List UInt8) (code : String) :
    ((Tally.count_of (parse_jsonl stdout).summary code).map UInt32.toNat =
      if (parse_jsonl stdout).carriers code = 0 then none
      else some ((parse_jsonl stdout).carriers code)) ↔
      (stream_codes stdout).count code < 2 ^ 32 := by
  rw [carriers_eq, parse_jsonl_summary, Tally.count_of_foldl]
  generalize stream_codes stdout = codes
  -- a code that is on no line is in no map
  by_cases hcode : code ∈ codes
  · have hpos : 0 < codes.count code := List.count_pos_iff.mpr hcode
    rw [if_pos hcode, if_neg (Nat.ne_of_gt hpos), Option.map_some, Option.some.injEq,
      UInt32.toNat_ofNat']
    constructor
    · intro h
      rw [← h]
      exact Nat.mod_lt _ (by decide)
    · exact Nat.mod_eq_of_lt
  · have hzero : codes.count code = 0 := List.count_eq_zero.mpr hcode
    rw [if_neg hcode, hzero, if_pos rfl]
    exact iff_of_true rfl (by decide)

theorem exists_line_code {stdout : List UInt8} {line : String}
    (hline : line ∈ nonblank_lines stdout) (hmalformed : Malformed line) :
    ∃ line ∈ nonblank_lines stdout, line_code line = some MCP_MALFORMED_JSONL :=
  ⟨line, hline, line_code_of_malformed hmalformed⟩

/-- **A malformed line is not masked** exactly when its code comes again behind every line
that carries another one. -/
theorem malformed_terminal_iff {stdout : List UInt8} {line : String}
    (hline : line ∈ nonblank_lines stdout) (hmalformed : Malformed line) :
    (parse_jsonl stdout).terminal = MCP_MALFORMED_JSONL ↔
      ∀ before other after, nonblank_lines stdout = before ++ other :: after →
        ∀ code, line_code other = some code → code ≠ MCP_MALFORMED_JSONL →
          ∃ again ∈ after, line_code again = some MCP_MALFORMED_JSONL := by
  have hcarried := exists_line_code hline hmalformed
  rw [parse_jsonl_terminal, if_neg (List.ne_nil_of_mem hline)]
  have hlast := Lists.getLast?_filterMap_eq_iff (f := line_code) (l := nonblank_lines stdout)
    (x := MCP_MALFORMED_JSONL)
  rw [← stream_codes, and_iff_right hcarried] at hlast
  rw [← hlast]
  cases (stream_codes stdout).getLast? with
  | none =>
    rw [Option.getD_none]
    exact iff_of_false (by decide) (Option.some_ne_none _).symm
  | some code => rw [Option.getD_some, Option.some.injEq]

/-- **The code that stands for no output** is not taken for it exactly when behind every
line that carries it another code comes. -/
theorem no_output_terminal_iff {stdout : List UInt8} (hne : nonblank_lines stdout ≠ []) :
    (parse_jsonl stdout).terminal ≠ MCP_NO_OUTPUT ↔
      ∀ before line after, nonblank_lines stdout = before ++ line :: after →
        line_code line = some MCP_NO_OUTPUT →
          ∃ other ∈ after, ∃ code, line_code other = some code ∧ code ≠ MCP_NO_OUTPUT := by
  rw [parse_jsonl_terminal, if_neg hne, ← Lists.getLast?_filterMap_ne_iff, ← stream_codes]
  cases (stream_codes stdout).getLast? with
  | none =>
    rw [Option.getD_none]
    exact iff_of_true (by decide) (Option.some_ne_none _).symm
  | some code => rw [Option.getD_some, ne_eq, ne_eq, Option.some.injEq]

/-- A stream that is read as promised. No code is on `2^32` lines; where a line is
malformed, its code comes again behind every other; and where none is, another code comes
behind the one that stands for no output. -/
structure Unmasked (stdout : List UInt8) : Prop where
  fits : ∀ code, (stream_codes stdout).count code < 2 ^ 32
  malformed : (∃ line ∈ nonblank_lines stdout, Malformed line) →
    ∀ before line after, nonblank_lines stdout = before ++ line :: after →
      ∀ code, line_code line = some code → code ≠ MCP_MALFORMED_JSONL →
        ∃ again ∈ after, line_code again = some MCP_MALFORMED_JSONL
  no_output : (∀ line ∈ nonblank_lines stdout, ¬ Malformed line) →
    ∀ before line after, nonblank_lines stdout = before ++ line :: after →
      line_code line = some MCP_NO_OUTPUT →
        ∃ other ∈ after, ∃ code, line_code other = some code ∧ code ≠ MCP_NO_OUTPUT

/-- **A stream is read as promised if and only if it is unmasked.** -/
theorem parse_jsonl_promise_iff (stdout : List UInt8) :
    JsonlPromise stdout ↔ Unmasked stdout := by
  constructor
  · intro h
    refine ⟨fun code => (counts_iff stdout code).mp (h.counts code), ?_, ?_⟩
    · rintro ⟨line, hline, hmalformed⟩
      exact (malformed_terminal_iff hline hmalformed).mp (h.malformed ⟨line, hline, hmalformed⟩)
    · intro hvalid before line after hsplit
      have hne : nonblank_lines stdout ≠ [] := by
        rw [hsplit]
        exact List.append_ne_nil_of_right_ne_nil _ (List.cons_ne_nil _ _)
      refine (no_output_terminal_iff hne).mp (fun hterminal => ?_) before line after hsplit
      exact hne ((h.no_output hvalid).mp hterminal)
  · intro h
    refine ⟨parse_jsonl_events stdout, fun code => (counts_iff stdout code).mpr (h.fits code),
      ?_, ?_, ?_⟩
    · rintro ⟨line, hline, hmalformed⟩
      exact (malformed_terminal_iff hline hmalformed).mpr
        (h.malformed ⟨line, hline, hmalformed⟩)
    · intro _ code hlast
      rw [events_codes] at hlast
      have hne : nonblank_lines stdout ≠ [] := by
        intro hnil
        rw [stream_codes, hnil] at hlast
        cases hlast
      rw [parse_jsonl_terminal, if_neg hne, hlast, Option.getD_some]
    · intro hvalid
      by_cases hnone : nonblank_lines stdout = []
      · rw [parse_jsonl_terminal, if_pos hnone]
        exact iff_of_true rfl hnone
      · exact iff_of_false ((no_output_terminal_iff hnone).mpr (h.no_output hvalid)) hnone

end

/-! ## A masked line -/

/-- A parser that knows one text. -/
@[reducible] def pass_json : SerdeJson where
  from_str := fun text =>
    if text = "\x7b\"code\":\"REQ_PASS\"\x7d" then
      some (.object [("code", .string "REQ_PASS")])
    else none

/-- A line that is no JSON, and a valid one behind it. -/
def masked_stream : String := "not valid json\n\x7b\"code\":\"REQ_PASS\"\x7d\n"

/-- **A valid line masks a malformed one.** The terminal is `REQ_PASS`. -/
theorem valid_line_masks_malformed :
    ¬ @JsonlPromise pass_json (str_bytes masked_stream) := by
  let _ := pass_json
  intro h
  have hlines : nonblank_lines (str_bytes masked_stream) =
      ["not valid json", "\x7b\"code\":\"REQ_PASS\"\x7d"] := by
    rw [nonblank_lines, from_utf8_lossy, from_utf8_str_bytes, Option.getD_some]
    decide
  have hmalformed : ∃ line ∈ nonblank_lines (str_bytes masked_stream), Malformed line := by
    refine ⟨"not valid json", ?_, if_neg (by decide)⟩
    rw [hlines]
    exact List.mem_cons_self
  have hterminal := h.malformed hmalformed
  rw [parse_jsonl_terminal, stream_codes, hlines] at hterminal
  exact absurd hterminal (by decide)

end Evidence.Mcp
