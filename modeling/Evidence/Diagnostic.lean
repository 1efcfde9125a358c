/-
`diagnostic.rs` -- the structured observations the reports are made of.

A diagnostic carries a stable code, a severity, a message, and optionally where it
lies and what would repair it. No report of the trace fills in a line, a column or
a subcommand, so these three fields are not kept.
-/
import Mathlib.Data.List.Basic

set_option autoImplicit false

namespace Evidence

/-- The closed set of severities. -/
inductive Severity where
  | Error
  | Warning
  | Info
deriving DecidableEq

/-- Structural pointer attached to a diagnostic. -/
structure Location where
  file : Option String
  toml_path : Option String
  entry_uid : Option String
deriving DecidableEq

/-- Machine-readable hint for an automated fixer. -/
inductive FixHint where
  | AssignUuid (path toml_path : String)
  | AddTomlKey (path toml_path key value_stub : String)
deriving DecidableEq

/-- One observation in the diagnostic stream. -/
structure Diagnostic where
  code : String
  severity : Severity
  message : String
  location : Option Location
  fix_hint : Option FixHint
  root_cause_uid : Option String
deriving DecidableEq

end Evidence
