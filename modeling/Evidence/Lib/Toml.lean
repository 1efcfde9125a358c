/-
The **TOML layer**: values, and lookups in them.

A table is the list of its entries in the order of their keys. A float is its bits and a
date its text, so two values are equal when they are the same.
-/
import Mathlib.Data.List.Basic
import Mathlib.Data.Nat.Notation

set_option autoImplicit false

namespace Toml

/-- A TOML value. -/
inductive Value where
  | str (s : String)
  | integer (n : Int)
  | float (bits : UInt64)
  | boolean (b : Bool)
  | datetime (text : String)
  | array (items : List Value)
  | table (entries : List (String × Value))

namespace Value

def get (key : String) : Value → Option Value
  | table entries => (entries.find? fun entry => entry.1 == key).map Prod.snd
  | _ => none

def as_str : Value → Option String
  | str s => some s
  | _ => none

def as_array : Value → Option (List Value)
  | array items => some items
  | _ => none

end Value

end Toml
