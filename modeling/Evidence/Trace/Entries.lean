/-
`trace/entries.rs` and `trace/read.rs` -- the entries of the trace files.

A trace is five files: system, high-level and low-level requirements, tests, and
derived requirements. The system file has the entries of the high-level one; the
layer is the file's. Every entry may lack its uid and its owner. What the entries of all
files have in common is read off a `TraceItem`.
-/
import Evidence.Lib.Sorting
import Evidence.Text

set_option autoImplicit false

namespace Evidence.Trace

open Sorting

/-! ## Entries -/

/-- A high-level requirement, or a system requirement. -/
structure HlrEntry where
  uid : Option String
  ns : Option String
  id : String
  title : String
  owner : Option String
  scope : Option String
  sort_key : Option Int64
  category : Option String
  source : Option String
  description : Option String
  rationale : Option String
  verification_methods : List String
  traces_to : List String
  surfaces : List String
deriving DecidableEq

/-- A low-level requirement. -/
structure LlrEntry where
  uid : Option String
  ns : Option String
  id : String
  title : String
  owner : Option String
  sort_key : Option Int64
  traces_to : List String
  source : Option String
  modules : List String
  description : Option String
  verification_methods : List String
  emits : List String
deriving DecidableEq

/-- A test case. -/
structure TestEntry where
  uid : Option String
  ns : Option String
  id : String
  title : String
  owner : Option String
  sort_key : Option Int64
  traces_to : List String
  description : Option String
  category : Option String
  test_selector : Option String
  test_selectors : List String
  source : Option String
deriving DecidableEq

/-- A derived requirement: it has no parent. -/
structure DerivedEntry where
  uid : Option String
  id : String
  title : String
  owner : Option String
  source : Option String
  description : Option String
  rationale : Option String
  safety_impact : Option String
  disposition : Option String
  reviewed : Option Bool
  sort_key : Option Int64
deriving DecidableEq

/-- All selectors of a test: the singular one merged with the plural ones, each once,
sorted. -/
def TestEntry.all_selectors (entry : TestEntry) : List String :=
  (sortBy compare (entry.test_selectors ++ entry.test_selector.toList)).destutter (· ≠ ·)

/-! ## Items -/

/-- The kinds of entries, as the validator names them. -/
inductive EntryKind where
  | SYS
  | HLR
  | LLR
  | TEST
  | DERIVED
deriving DecidableEq

def EntryKind.as_str : EntryKind → String
  | SYS => "SYS"
  | HLR => "HLR"
  | LLR => "LLR"
  | TEST => "TEST"
  | DERIVED => "DERIVED"

/-- An entry of any of the files. -/
inductive TraceItem where
  | Sys (entry : HlrEntry)
  | Hlr (entry : HlrEntry)
  | Llr (entry : LlrEntry)
  | Test (entry : TestEntry)
  | Derived (entry : DerivedEntry)
deriving DecidableEq

namespace TraceItem

def kind : TraceItem → EntryKind
  | Sys _ => .SYS
  | Hlr _ => .HLR
  | Llr _ => .LLR
  | Test _ => .TEST
  | Derived _ => .DERIVED

def uid : TraceItem → Option String
  | Sys entry => entry.uid
  | Hlr entry => entry.uid
  | Llr entry => entry.uid
  | Test entry => entry.uid
  | Derived entry => entry.uid

def owner : TraceItem → Option String
  | Sys entry => entry.owner
  | Hlr entry => entry.owner
  | Llr entry => entry.owner
  | Test entry => entry.owner
  | Derived entry => entry.owner

def id : TraceItem → String
  | Sys entry => entry.id
  | Hlr entry => entry.id
  | Llr entry => entry.id
  | Test entry => entry.id
  | Derived entry => entry.id

/-- The links of an entry; a derived requirement has none. -/
def links : TraceItem → List String
  | Sys entry => entry.traces_to
  | Hlr entry => entry.traces_to
  | Llr entry => entry.traces_to
  | Test entry => entry.traces_to
  | Derived _ => []

end TraceItem

/-- The entries of a trace, in the order they are registered in. -/
def trace_items (sys hlrs : List HlrEntry) (llrs : List LlrEntry) (tests : List TestEntry)
    (derived : List DerivedEntry) : List TraceItem :=
  sys.map .Sys ++ hlrs.map .Hlr ++ llrs.map .Llr ++ tests.map .Test ++ derived.map .Derived

/-! ## Files -/

structure TraceMeta where
  document_id : String
  revision : String
deriving DecidableEq

structure Schema where
  version : String
deriving DecidableEq

structure HlrFile where
  schema : Schema
  «meta» : TraceMeta
  requirements : List HlrEntry
deriving DecidableEq

structure LlrFile where
  schema : Schema
  «meta» : TraceMeta
  requirements : List LlrEntry
deriving DecidableEq

structure TestsFile where
  schema : Schema
  «meta» : TraceMeta
  tests : List TestEntry
deriving DecidableEq

structure DerivedFile where
  schema : Schema
  «meta» : TraceMeta
  requirements : List DerivedEntry
deriving DecidableEq

/-- The parsed files of one trace root. -/
structure TraceFiles where
  sys : HlrFile
  hlr : HlrFile
  llr : LlrFile
  tests : TestsFile
  derived : Option DerivedFile
deriving DecidableEq

end Evidence.Trace
