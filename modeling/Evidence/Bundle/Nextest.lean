/-
`bundle/nextest.rs` -- the outcomes and the counts in a stream of libtest-json-plus.

Every line is one JSON object. A `test` event gives a record; a `suite` event adds to
the tally of its binary, under a key made of the binary's identity, or under a key of
its own, numbered, if it has none. A binary may have several `suite` events, so what
they count is reduced for each binary before it is summed up.

The events come in the order the tests complete, which is not the same twice. The
records are sorted by module path and name; the tallies are kept by key.
-/
import Evidence.Bundle.TestSummary
import Evidence.Lib.Json
import Evidence.Lib.Sorting

set_option autoImplicit false

namespace Evidence.Bundle

open Std Sorting

/-! ## Records -/

structure TestOutcomeRecord where
  name : String
  module_path : String
  package : String
  binary : String
  harness : String
  passed : Bool
  ignored : Bool
  failure_message : Option String
  duration_ms : Option UInt64
  requirement_uids : List String
deriving DecidableEq

/-- The parts of a test's full name. -/
structure Identity where
  package : String
  binary : String
  module_path : String
  test_name : String

/-- `text.replace('-', "_")`. -/
def underscored (text : List Char) : List Char :=
  text.map fun c => if c = '-' then '_' else c

/-- Split a test name `{crate}::{binary}${module::path::name}` into its parts. -/
def parse_identity (name : String) : Identity :=
  let (pre, rest) := (split_once ['$'] name.toList).getD ([], name.toList)
  let (package, binary) :=
    match rsplit_once "::".toList pre with
    | some (pkg, bin) => (pkg, underscored bin)
    | none => ([], underscored pre)
  let (module_chain, test_name) := (rsplit_once "::".toList rest).getD ([], rest)
  let module_path :=
    if binary.isEmpty then module_chain
    else if module_chain.isEmpty then binary
    else binary ++ "::".toList ++ module_chain
  { package := String.ofList package, binary := String.ofList binary,
    module_path := String.ofList module_path, test_name := String.ofList test_name }

/-- A member that is a string. -/
def str_field (v : Json.Value) (key : String) : Option String :=
  (v.get key).bind Json.Value.as_str

def build_record (name event : String) (v : Json.Value) : TestOutcomeRecord :=
  let id := parse_identity name
  { name := id.test_name
    module_path := id.module_path
    package := id.package
    binary := id.binary
    harness := "libtest"
    passed := event == "ok"
    ignored := event == "ignored"
    failure_message :=
      if event = "failed" then (str_field v "stdout").filter fun s => !s.isEmpty else none
    duration_ms := none
    requirement_uids := [] }

/-! ## Tallies -/

structure SuiteTally where
  passed : UInt32
  failed : UInt32
  ignored : UInt32
  filtered_out : Option UInt32
deriving DecidableEq

/-- The tally of a binary nothing was counted of. -/
def SuiteTally.default : SuiteTally where
  passed := 0
  failed := 0
  ignored := 0
  filtered_out := none

/-- A count of an event; what is no number of 32 bits counts as zero. -/
def count (v : Json.Value) (key : String) : UInt32 :=
  match (v.get key).bind Json.Value.as_u64 with
  | some n => if n < 2 ^ 32 then UInt32.ofNat n else 0
  | none => 0

def SuiteTally.fold (t : SuiteTally) (v : Json.Value) : SuiteTally where
  passed := saturating_add_u32 t.passed (count v "passed")
  failed := saturating_add_u32 t.failed (count v "failed")
  ignored := max t.ignored (count v "ignored")
  filtered_out :=
    some ((t.filtered_out.map fun m => min m (count v "filtered_out")).getD (count v "filtered_out"))

/-- The character that separates the parts of a key. -/
def NUL : String := String.singleton (Char.ofNat 0)

/-- The binary a `suite` event belongs to. -/
def suite_identity (v : Json.Value) : Option String := do
  let n ← v.get "nextest"
  let crate ← str_field n "crate"
  let test_binary ← str_field n "test_binary"
  let kind ← str_field n "kind"
  some (crate ++ NUL ++ test_binary ++ NUL ++ kind)

/-- The key of an event without an identity. -/
def noident_key (seq : UInt32) : String :=
  NUL ++ "noident" ++ NUL ++ decimal seq.toNat

/-- The tallies, by key. -/
abbrev Suites := Store (Prod.fst : String × SuiteTally → String)

/-- `suites.entry(key).or_default().fold(&v)`. -/
def fold_suite (suites : Suites) (key : String) (v : Json.Value) : Suites :=
  suites.put (key, (((suites.get key).map Prod.snd).getD .default).fold v)

/-- What is added up of the tallies: passed, failed, ignored, filtered out. -/
abbrev Totals := UInt32 × UInt32 × UInt32 × UInt32

def Totals.add (totals : Totals) (t : SuiteTally) : Totals :=
  (saturating_add_u32 totals.1 t.passed, saturating_add_u32 totals.2.1 t.failed,
    saturating_add_u32 totals.2.2.1 t.ignored,
    saturating_add_u32 totals.2.2.2 (t.filtered_out.getD 0))

def summarize_suites (suites : Suites) : TestSummary :=
  let (passed, failed, ignored, filtered_out) :=
    (suites.values.map Prod.snd).foldl Totals.add (0, 0, 0, 0)
  { total := saturating_add_u32 (saturating_add_u32 (saturating_add_u32 passed failed) ignored)
      filtered_out
    passed, failed, ignored, filtered_out }

/-! ## The parser -/

/-- `serde_json::from_str::<Value>`. -/
class SerdeJson where
  from_str : String → Option Json.Value

/-- What has been read. -/
structure Capture where
  records : List TestOutcomeRecord
  suites : Suites
  noident_seq : UInt32

def Capture.start : Capture where
  records := []
  suites := Store.empty
  noident_seq := 0

/-- A `suite` event that completes a binary. -/
def is_suite (v : Json.Value) : Bool :=
  (str_field v "type").getD "" == "suite" &&
    ((str_field v "event").getD "" == "ok" || (str_field v "event").getD "" == "failed")

/-- The record of a `test` event that completes a test. -/
def test_record (v : Json.Value) : Option TestOutcomeRecord :=
  let ev := (str_field v "event").getD ""
  if (str_field v "type").getD "" == "test" && (ev == "ok" || ev == "failed" || ev == "ignored") then
    (str_field v "name").map fun name => build_record name ev v
  else none

def Capture.event (c : Capture) (v : Json.Value) : Capture :=
  if is_suite v then
    match suite_identity v with
    | some key => { c with suites := fold_suite c.suites key v }
    | none =>
      { c with suites := fold_suite c.suites (noident_key c.noident_seq) v
               noident_seq := c.noident_seq + 1 }
  else
    match test_record v with
    | some record => { c with records := c.records ++ [record] }
    | none => c

/-- The order of the records: module path, then name. -/
def record_cmp : TestOutcomeRecord → TestOutcomeRecord → Ordering :=
  compareLex (compareOn TestOutcomeRecord.module_path) (compareOn TestOutcomeRecord.name)

structure NextestRun where
  records : List TestOutcomeRecord
  summary : TestSummary
deriving DecidableEq

section Parser

variable [SerdeJson]

def line_event (line : List Char) : Option Json.Value :=
  if (trim_chars line).isEmpty then none else SerdeJson.from_str (String.ofList (trim_chars line))

/-- The events of a stream. -/
def events (stdout : String) : List Json.Value :=
  (lines stdout.toList).filterMap line_event

def parse_nextest_libtest_json (stdout : String) : NextestRun :=
  let c := (events stdout).foldl Capture.event Capture.start
  { records := sortBy record_cmp c.records, summary := summarize_suites c.suites }

end Parser

end Evidence.Bundle
