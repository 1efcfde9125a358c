/-
`bundle/test_summary/detailed.rs` -- the records of captured `cargo test` text, with
the message of each failing test.

The outcomes are the ones of `bundle/test_summary.rs`. The messages are cut out of
the same text a second time: a line `---- <name> stdout ----` opens a block, and the
block runs to the next such line, to a line `failures:` or to a `test result:` line.
A name that has several blocks keeps the text of the last one. A record is given
the text under its key without the name of the binary.
-/
import Evidence.Lib.Blocks
import Evidence.Lib.LastWins
import Evidence.Lib.Sorting
import Evidence.Bundle.Nextest
import Evidence.Bundle.TestSummary

set_option autoImplicit false

namespace Evidence.Bundle

open Segments Sorting

/-! ## The scan for failure blocks -/

/-- `line.strip_suffix(pattern)`. -/
def strip_end (pattern line : List Char) : Option (List Char) :=
  if pattern.isSuffixOf line then some (line.take (line.length - pattern.length)) else none

/-- Parse `---- <test_name> stdout ----` into `<test_name>`. -/
def parse_failure_header (line : List Char) : Option (List Char) := do
  let inner ← strip_text "---- ".toList line
  let inner ← strip_end " ----".toList inner
  let name ← strip_end " stdout".toList inner
  if name.isEmpty then none else some name

/-- The map from test names to captured texts. -/
abbrev Messages := Store (Prod.fst : String × String → String)

/-- A line with nothing but blanks in it. -/
def is_blank (line : List Char) : Bool := (trim_chars line).isEmpty

/-- Trim blank lines at both ends of `buf` and insert the joined text under `test`. -/
def flush_block (messages : Messages) (test : List Char) (buf : List (List Char)) : Messages :=
  let start := buf.findIdx fun l => !is_blank l
  let stop := buf.length - buf.reverse.findIdx fun l => !is_blank l
  let joined := ['\n'].intercalate ((buf.take (max stop start)).drop start)
  messages.put (String.ofList test, String.ofList joined)

/-- What the scan has accumulated. -/
structure BlockScan where
  messages : Messages
  current_test : Option (List Char)
  current_buf : List (List Char)

def BlockScan.close (s : BlockScan) : BlockScan :=
  match s.current_test with
  | some test =>
    { messages := flush_block s.messages test s.current_buf, current_test := none,
      current_buf := [] }
  | none => s

def BlockScan.line (s : BlockScan) (line : List Char) : BlockScan :=
  let trimmed := trim_chars line
  match parse_failure_header trimmed with
  | some name => { s.close with current_test := some name }
  | none =>
    if trimmed = "failures:".toList || "test result:".toList.isPrefixOf trimmed then s.close
    else if s.current_test.isSome then { s with current_buf := s.current_buf ++ [line] }
    else s

/-- Walk `output` for failure blocks and capture the contained message text. -/
def scan_failure_blocks (output : String) : Messages :=
  ((lines (replace_crlf output.toList)).foldl BlockScan.line
    { messages := Store.empty, current_test := none, current_buf := [] }).close.messages

/-! ## The records -/

/-- `TestsError`: signals the capture surfaces without failing. -/
inductive TestsError where
  | OutcomeParseFailed (test_name : String)
deriving DecidableEq

/-- Split a `binary_name::module::path::test_name` key into module path and name. -/
def split_qualified_key (key : String) : String × String :=
  match rsplit_once "::".toList key.toList with
  | some (module_path, name) => (String.ofList module_path, String.ofList name)
  | none => ("", key)

/-- The key without the binary prefix. -/
def libtest_suffix (key : String) : Option String :=
  (split_once "::".toList key.toList).map fun (_, rest) => String.ofList rest

def outcome_record (failure_messages : Messages) (entry : String × TestOutcome) :
    TestOutcomeRecord :=
  let (module_path, name) := split_qualified_key entry.1
  let (passed, ignored, failure_message) :=
    match entry.2 with
    | .Passed => (true, false, none)
    | .Failed =>
      let libtest_name := (libtest_suffix entry.1).getD entry.1
      (false, false, (failure_messages.get libtest_name).map Prod.snd)
    | .Ignored => (false, true, none)
  { name := name, module_path := module_path, package := "", binary := "", harness := ""
    passed := passed, ignored := ignored, failure_message := failure_message
    duration_ms := none, requirement_uids := [] }

def parse_cargo_test_output_detailed (output : String) :
    Option (TestSummary × List TestOutcomeRecord × List TestsError) := do
  let (summary, outcomes) ← parse_cargo_test_output_with_outcomes output
  let failure_messages := scan_failure_blocks output
  let records := outcomes.values.map (outcome_record failure_messages)
  let matched_libtest_names := outcomes.values.filterMap fun entry => libtest_suffix entry.1
  let errors := (failure_messages.values.filter fun entry =>
    !matched_libtest_names.contains entry.1).map fun entry => TestsError.OutcomeParseFailed entry.1
  pure (summary, sortBy record_cmp records, errors)

def TestOutcomeRecord.key (r : TestOutcomeRecord) : String := r.module_path ++ "::" ++ r.name

/-! ## Blocks -/

/-- A line at which a block ends without another one being opened. -/
def is_terminator (line : List Char) : Bool :=
  trim_chars line = "failures:".toList || "test result:".toList.isPrefixOf (trim_chars line)

/-- The name a line opens a block under. -/
def opened_name (line : List Char) : Option (List Char) := parse_failure_header (trim_chars line)

abbrev is_block_end (line : List Char) : Bool := Blocks.marks opened_name is_terminator line

/-- The text of a block: its lines, without the blank ones around them. -/
def block_text (body : List (List Char)) : String :=
  String.ofList (['\n'].intercalate (strip is_blank body))

/-- The named texts of a list of lines, in order. -/
def found_texts (ls : List (List Char)) : List (String × String) :=
  (Blocks.found opened_name is_terminator ls).map fun block =>
    (String.ofList block.1, block_text block.2)

/-- Cutting a list at its first and its last element outside a class strips it. -/
theorem strip_eq_cut {α : Type} (p : α → Bool) (l : List α) :
    (l.take (max (l.length - l.reverse.findIdx fun a => !p a) (l.findIdx fun a => !p a))).drop
      (l.findIdx fun a => !p a) = strip p l := by
  have hfront : l.dropWhile p = l.drop (l.findIdx fun a => !p a) :=
    List.dropWhile_eq_drop_findIdx_not
  rw [strip, hfront, List.drop_take]
  generalize hstart : (l.findIdx fun a => !p a) = start
  have hle : start ≤ l.length := hstart ▸ List.findIdx_le_length
  by_cases hall : start = l.length
  · rw [hall, List.drop_length, List.take_nil]
    rfl
  · -- the last element outside the class is one of those behind the first
    have hback : (l.reverse.findIdx fun a => !p a) =
          ((l.drop start).reverse.findIdx fun a => !p a) ∧
        ((l.drop start).reverse.findIdx fun a => !p a) ≤ l.length - start := by
      have hlt : start < l.length := by omega
      have hmem : ∃ a ∈ (l.drop start).reverse, (!p a) = true := by
        refine ⟨l.get ⟨start, hlt⟩, List.mem_reverse.mpr ?_, ?_⟩
        · rw [List.mem_iff_getElem]
          refine ⟨0, by rw [List.length_drop]; omega, ?_⟩
          rw [List.getElem_drop]
          rfl
        · subst hstart
          exact List.findIdx_getElem (w := hlt)
      have hsplit : l.reverse = (l.drop start).reverse ++ (l.take start).reverse := by
        rw [← List.reverse_append, List.take_append_drop]
      have hfound := List.findIdx_lt_length.mpr hmem
      rw [List.length_reverse, List.length_drop] at hfound
      refine ⟨?_, hfound.le⟩
      rw [hsplit, List.findIdx_append, if_pos]
      rw [List.length_reverse, List.length_drop]
      exact hfound
    rw [hback.1, List.rdropWhile, List.dropWhile_eq_drop_findIdx_not, List.drop_reverse,
      List.reverse_reverse, List.length_drop]
    congr 1
    omega

/-- The two cuts of a flush leave what stripping the blank lines leaves. -/
theorem flush_block_eq (messages : Messages) (test : List Char) (buf : List (List Char)) :
    flush_block messages test buf = messages.put (String.ofList test, block_text buf) := by
  rw [flush_block, block_text, ← strip_eq_cut]

theorem BlockScan.close_some (messages : Messages) (test : List Char) (buf : List (List Char)) :
    BlockScan.close ⟨messages, some test, buf⟩ =
      ⟨messages.put (String.ofList test, block_text buf), none, []⟩ := by
  rw [← flush_block_eq]
  rfl

theorem BlockScan.line_eq (s : BlockScan) (line : List Char) :
    s.line line =
      match opened_name line with
      | some name => { s.close with current_test := some name }
      | none =>
        if is_terminator line then s.close
        else if s.current_test.isSome then { s with current_buf := s.current_buf ++ [line] }
        else s := rfl

/-- Put the texts of blocks into a map, one after the other. -/
def put_all (messages : Messages) (texts : List (String × String)) : Messages :=
  texts.foldl Store.put messages

/-- **The scan finds the blocks**, from a state in which none is open and from one in
which one is. -/
theorem BlockScan.run (messages : Messages) (ls : List (List Char)) :
    (ls.foldl BlockScan.line ⟨messages, none, []⟩).close.messages =
        put_all messages (found_texts ls) ∧
      ∀ test buf,
        (ls.foldl BlockScan.line ⟨messages, some test, buf⟩).close.messages =
          put_all messages ((String.ofList test,
            block_text (buf ++ ls.takeWhile fun l => !is_block_end l)) :: found_texts ls) := by
  induction ls generalizing messages with
  | nil =>
    refine ⟨rfl, fun test buf => ?_⟩
    rw [List.foldl_nil, BlockScan.close_some, List.takeWhile_nil, List.append_nil]
    rfl
  | cons line ls ih =>
    rcases hopened : opened_name line with _ | name
    · have hfound : found_texts (line :: ls) = found_texts ls := by
        rw [found_texts, Blocks.found_cons_none hopened, found_texts]
      by_cases hterminator : is_terminator line = true
      · -- the open block ends here
        have hend : is_block_end line = true := by
          rw [is_block_end, Blocks.marks, hterminator, Bool.or_true]
        refine ⟨?_, fun test buf => ?_⟩
        · rw [List.foldl_cons, BlockScan.line_eq, hopened, hfound]
          simp only [hterminator, if_true]
          exact (ih messages).1
        · rw [List.foldl_cons, BlockScan.line_eq, hopened, hfound,
            List.takeWhile_cons_of_neg (by rw [hend]; decide), List.append_nil]
          simp only [hterminator, if_true, BlockScan.close_some]
          exact (ih _).1
      · rw [Bool.not_eq_true] at hterminator
        have hend : is_block_end line = false := by
          rw [is_block_end, Blocks.marks, hterminator, hopened]
          rfl
        refine ⟨?_, fun test buf => ?_⟩
        · rw [List.foldl_cons, BlockScan.line_eq, hopened, hfound]
          simp only [hterminator, Bool.false_eq_true, if_false, Option.isSome_none]
          exact (ih messages).1
        · rw [List.foldl_cons, BlockScan.line_eq, hopened, hfound,
            List.takeWhile_cons_of_pos (by rw [hend]; rfl)]
          simp only [hterminator, Bool.false_eq_true, if_false, Option.isSome_some, if_true]
          have hrest := (ih messages).2 test (buf ++ [line])
          rw [List.append_assoc, List.singleton_append] at hrest
          exact hrest
    · -- a header closes the open block and opens its own
      have hfound : found_texts (line :: ls) =
          (String.ofList name, block_text (ls.takeWhile fun l => !is_block_end l)) ::
            found_texts ls := by
        rw [found_texts, Blocks.found_cons_some hopened, List.map_cons, found_texts]
      have hend : is_block_end line = true := by
        rw [is_block_end, Blocks.marks, hopened]
        rfl
      refine ⟨?_, fun test buf => ?_⟩
      · rw [List.foldl_cons, BlockScan.line_eq, hopened, hfound]
        exact (ih messages).2 name []
      · rw [List.foldl_cons, BlockScan.line_eq, hopened, hfound,
          List.takeWhile_cons_of_neg (by rw [hend]; decide), List.append_nil]
        simp only [BlockScan.close_some]
        exact (ih _).2 name []

/-- **The messages** are the texts of the blocks of the text, the last one of each name. -/
theorem scan_failure_blocks_eq (output : String) :
    scan_failure_blocks output = Store.ofList (found_texts (lines (replace_crlf output.toList))) :=
  (BlockScan.run Store.empty _).1

/-- What a name is looked up as. -/
theorem get_scan_failure_blocks (output name : String) :
    (scan_failure_blocks output).get name =
      (Store.under Prod.fst name (found_texts (lines (replace_crlf output.toList)))).getLast? := by
  rw [scan_failure_blocks_eq, Store.get_ofList_last]

/-- Parts that begin with a line at which a block ends are read one after the other. -/
theorem found_texts_append_end {m : List Char} (hm : is_block_end m = true)
    (first rest : List (List Char)) :
    found_texts (first ++ m :: rest) = found_texts first ++ found_texts (m :: rest) := by
  rw [found_texts, Blocks.found_append_marks hm, List.map_append, found_texts, found_texts]

/-- Lines that open no block are passed over. -/
theorem found_texts_append_none {lead : List (List Char)}
    (h : ∀ l ∈ lead, opened_name l = none) (ls : List (List Char)) :
    found_texts (lead ++ ls) = found_texts ls := by
  rw [found_texts, Blocks.found_append_none h, found_texts]

theorem found_texts_concat_blank {l : List Char} (hopened : opened_name l = none)
    (hblank : is_blank l = true) (ls : List (List Char)) :
    found_texts (ls ++ [l]) = found_texts ls := by
  have hread (body : List (List Char)) : block_text (body ++ [l]) = block_text body := by
    rw [block_text, strip_concat hblank, block_text]
  have hmap := congrArg
    (List.map fun block : List Char × String => (String.ofList block.1, block.2))
    (@Blocks.map_found_concat _ _ _ opened_name is_terminator block_text _ hopened hread ls)
  rw [List.map_map, List.map_map] at hmap
  exact hmap

/-! ## Keys -/

theorem split_once_ne_none {pattern : List Char} (before after : List Char) :
    split_once pattern (before ++ pattern ++ after) ≠ none := by
  induction before with
  | nil =>
    rw [List.nil_append]
    rcases htext : pattern ++ after with _ | ⟨c, text⟩
    · rw [List.append_eq_nil_iff] at htext
      rw [split_once, htext.1]
      exact Option.some_ne_none _
    · have hprefix : pattern.isPrefixOf (c :: text) = true := by
        rw [← htext, List.isPrefixOf_iff_prefix]
        exact List.prefix_append _ _
      rw [split_once, if_pos hprefix]
      exact Option.some_ne_none _
  | cons c before ih =>
    rw [List.cons_append, List.cons_append, split_once]
    split_ifs
    · exact Option.some_ne_none _
    · intro h
      exact ih (Option.map_eq_none_iff.mp h)

theorem toList_outcome_key (bin name : List Char) :
    (outcome_key bin name).toList = bin ++ "::".toList ++ name := String.toList_ofList

/-- **A record states the key it was made from.** -/
theorem key_outcome_record (messages : Messages) (bin name : List Char) (o : TestOutcome) :
    (outcome_record messages (outcome_key bin name, o)).key = outcome_key bin name := by
  have hkey : (outcome_record messages (outcome_key bin name, o)).key =
      (split_qualified_key (outcome_key bin name)).1 ++ "::" ++
        (split_qualified_key (outcome_key bin name)).2 := by
    cases o <;> rfl
  rw [hkey, split_qualified_key, toList_outcome_key]
  rcases hsplit : rsplit_once "::".toList (bin ++ "::".toList ++ name) with _ | ⟨first, last⟩
  · rw [rsplit_once, Option.map_eq_none_iff, List.reverse_append, List.reverse_append,
      ← List.append_assoc] at hsplit
    exact absurd hsplit (split_once_ne_none _ _)
  · obtain ⟨⟨after, before⟩, hreversed, hpair⟩ := Option.map_eq_some_iff.mp hsplit
    rw [Prod.mk.injEq] at hpair
    obtain ⟨rfl, rfl⟩ := hpair
    have htext := congrArg List.reverse (split_once_eq_some hreversed)
    rw [List.reverse_reverse, List.reverse_append, List.reverse_append,
      List.reverse_reverse] at htext
    apply String.toList_inj.mp
    simp only [String.toList_append, toList_outcome_key, htext, String.toList_ofList,
      List.append_assoc]

/-- Behind a binary's name without a colon stands the name of the test. -/
theorem libtest_suffix_outcome_key {bin : List Char} (hbin : ':' ∉ bin) (name : List Char) :
    libtest_suffix (outcome_key bin name) = some (String.ofList name) := by
  have hsplit : split_once "::".toList (bin ++ ("::".toList ++ name)) = some (bin, name) := by
    rw [show "::".toList = ':' :: ":".toList by decide, split_once_append hbin]
    simp [split_once]
  rw [libtest_suffix, toList_outcome_key, List.append_assoc, hsplit]
  rfl

theorem failed_outcome_record (messages : Messages) (key : String) :
    (outcome_record messages (key, .Failed)).passed = false ∧
      (outcome_record messages (key, .Failed)).ignored = false := ⟨rfl, rfl⟩

theorem failure_message_outcome_record (messages : Messages) {key name : String}
    (hkey : libtest_suffix key = some name) :
    (outcome_record messages (key, .Failed)).failure_message =
      (messages.get name).map Prod.snd := by
  simp only [outcome_record, hkey, Option.getD_some]

/-! ## The result -/

theorem parse_detailed_of_outcomes {output : String} {summary : TestSummary} {outcomes : Outcomes}
    (h : parse_cargo_test_output_with_outcomes output = some (summary, outcomes)) :
    parse_cargo_test_output_detailed output =
      some (summary,
        sortBy record_cmp (outcomes.values.map (outcome_record (scan_failure_blocks output))),
        ((scan_failure_blocks output).values.filter fun entry =>
          !(outcomes.values.filterMap fun entry => libtest_suffix entry.1).contains entry.1).map
            fun entry => TestsError.OutcomeParseFailed entry.1) := by
  rw [parse_cargo_test_output_detailed, h]
  rfl

theorem mem_detailed_errors {messages : Messages} {names : List String} {n : String} :
    TestsError.OutcomeParseFailed n ∈ (messages.values.filter fun entry =>
        !names.contains entry.1).map (fun entry => TestsError.OutcomeParseFailed entry.1) ↔
      messages.get n ≠ none ∧ n ∉ names := by
  rw [List.mem_map]
  constructor
  · rintro ⟨entry, hentry, heq⟩
    rw [TestsError.OutcomeParseFailed.injEq] at heq
    obtain ⟨hvalue, hnames⟩ := List.mem_filter.mp hentry
    rw [heq] at hnames
    rw [Store.mem_values, heq] at hvalue
    refine ⟨by rw [hvalue]; nofun, ?_⟩
    simpa using hnames
  · rintro ⟨hget, hnames⟩
    obtain ⟨entry, hentry⟩ := Option.ne_none_iff_exists'.mp hget
    have hkey : entry.1 = n := Store.key_of_get hentry
    refine ⟨entry, List.mem_filter.mpr ⟨Store.mem_values_of_get hentry, ?_⟩, by rw [hkey]⟩
    rw [hkey]
    simpa using hnames

/-- Each name once. -/
theorem detailed_errors_nodup (messages : Messages) (p : String × String → Bool) :
    ((messages.values.filter p).map fun entry =>
      TestsError.OutcomeParseFailed entry.1).Nodup := by
  have hkeys : ((messages.values.filter p).map Prod.fst).Nodup :=
    (List.filter_sublist.map _).nodup (Store.values_keys_nodup messages)
  have hmap := hkeys.map (f := TestsError.OutcomeParseFailed) fun a b h => by
    rwa [TestsError.OutcomeParseFailed.injEq] at h
  rwa [List.map_map] at hmap

end Evidence.Bundle
