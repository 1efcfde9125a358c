/-
What a source text is made of, for the ratchet on panics to be compared with.

A text is read twice. The first reading tells code from string literals, character literals and
line comments; the second finds the modules that a `#[cfg(test)]` at the top level gates, with a
body or without one. An occurrence of a macro is a panic of production code if each of its
characters is code outside those modules.

`SourceFile` is a file whose text the two readings are right about: string literals end on their
lines and have no escaped quotes, no character literal holds a quote or a brace, and there are no
block comments and no `#[cfg(test)]` below the top level.
-/
import Evidence.Floors.Walker

set_option autoImplicit false

namespace Evidence.Floors

/-! ## Literals and comments -/

/-- What a character belongs to. -/
inductive Class where
  | Code
  | Str (escaped : Bool)
  | RawStr
  | CharLit
  | Comment
deriving DecidableEq

/-- Where the reader of a text is; in code it knows the characters before, the nearest first. -/
inductive Mode where
  | Code (back : List Char)
  | Str (escaped : Bool)
  | RawStr (hashes : ℕ)
  | CharLit (escaped : Bool)
  | Comment

/-- A character that a name may have. -/
def is_word_char (c : Char) : Bool := is_ident_char c || decide (127 < c.toNat)

/-- The hashes of the raw string that a quote opens: behind `r`, `br` or `cr` and hashes. -/
def raw_hashes (back : List Char) : Option ℕ :=
  let hashes := count_hashes back
  if (back.drop hashes).takeWhile is_word_char ∈ ["r".toList, "rb".toList, "rc".toList] then
    some hashes
  else none

/-- A character literal opens, not a lifetime. -/
def opens_char : List Char → Bool
  | c :: d :: _ => c == '\\' || (c != '\'' && d == '\'')
  | _ => false

/-- What a character belongs to, and where the reader is behind it. -/
def Mode.next (mode : Mode) (c : Char) (rest : List Char) : Class × Mode :=
  match mode with
  | .Code back =>
    if c = '"' then
      match raw_hashes back with
      | some hashes => (.RawStr, .RawStr hashes)
      | none => (.Str false, .Str false)
    else if c = '\'' ∧ opens_char rest then (.CharLit, .CharLit false)
    else if c = '/' ∧ rest.head? = some '/' then (.Comment, .Comment)
    else (.Code, .Code (c :: back))
  | .Str true => (.Str true, .Str false)
  | .Str false => (.Str false, if c = '"' then .Code [] else .Str (c == '\\'))
  | .RawStr hashes =>
    (.RawStr, if c = '"' ∧ hashes ≤ count_hashes rest then .Code [] else .RawStr hashes)
  | .CharLit true => (.CharLit, .CharLit false)
  | .CharLit false => (.CharLit, if c = '\'' then .Code [] else .CharLit (c == '\\'))
  | .Comment => if c = '\n' then (.Code, .Code []) else (.Comment, .Comment)

def classify : Mode → List Char → List (Char × Class)
  | _, [] => []
  | mode, c :: rest => (c, (mode.next c rest).1) :: classify (mode.next c rest).2 rest

/-! ## Test modules -/

def as_code (text : List Char) : List (Char × Class) := text.map fun c => (c, .Code)

/-- A brace or a semicolon of the code. -/
def ends_header (x : Char × Class) : Bool :=
  x.2 == .Code && (x.1 == '\x7b' || x.1 == ';')

/-- The keyword stands somewhere in the code. -/
def has_keyword (keyword : List Char) : Bool → List (Char × Class) → Bool
  | _, [] => false
  | inside, x :: rest =>
    (!inside && (as_code keyword).isPrefixOf (x :: rest) &&
        ((x :: rest).drop keyword.length).head?.all fun y => !is_word_char y.1) ||
      has_keyword keyword (is_word_char x.1 || x.1 == '#') rest

/-- The item that starts here is a module. -/
def gates_module (text : List (Char × Class)) : Bool :=
  has_keyword "mod".toList false (text.takeWhile fun x => !ends_header x)

/-- Where the reader of the items is: in production code at a depth of braces, between the
attribute of a test module and its body, or in the body. -/
inductive Scope where
  | Items (depth : ℕ)
  | Header
  | Body (depth : ℕ)

/-- Whether a character belongs to a test module, and where the reader is behind it. -/
def Scope.next (scope : Scope) (x : Char × Class) (rest : List (Char × Class)) : Bool × Scope :=
  match scope with
  | .Items depth =>
    if depth = 0 ∧ (as_code CFG_TEST).isPrefixOf (x :: rest) ∧ gates_module (x :: rest) then
      (true, .Header)
    else if x = ('\x7b', .Code) then (false, .Items (depth + 1))
    else if x = ('\x7d', .Code) then (false, .Items (depth - 1))
    else (false, .Items depth)
  | .Header =>
    if x = (';', .Code) then (true, .Items 0)
    else if x = ('\x7b', .Code) then (true, .Body 1)
    else (true, .Header)
  | .Body depth =>
    if x = ('\x7b', .Code) then (true, .Body (depth + 1))
    else if x = ('\x7d', .Code) then (true, if depth = 1 then .Items 0 else .Body (depth - 1))
    else (true, .Body depth)

def mark_production : Scope → List (Char × Class) → List (Char × Bool)
  | _, [] => []
  | scope, x :: rest =>
    (x.1, x.2 == .Code && !(scope.next x rest).1) :: mark_production (scope.next x rest).2 rest

/-- An attribute may stand here: not below the top level. -/
def Scope.on_top : Scope → Bool
  | Items depth => depth == 0
  | Header => true
  | Body _ => false

/-- No `#[cfg(test)]` stands below the top level. -/
def cfg_test_on_top : Scope → List (Char × Class) → Bool
  | _, [] => true
  | scope, x :: rest =>
    (!(as_code CFG_TEST).isPrefixOf (x :: rest) || scope.on_top) &&
      cfg_test_on_top (scope.next x rest).2 rest

/-! ## Source files -/

def classified (text : String) : List (Char × Class) := classify (.Code []) text.toList

def production (text : String) : List (Char × Bool) :=
  mark_production (.Items 0) (classified text)

/-- How often a pattern occurs in a text. -/
def occurrences {α : Type*} [BEq α] (pattern text : List α) : ℕ :=
  text.tails.countP pattern.isPrefixOf

/-- The macro as production code. -/
def as_production (needle : String) : List (Char × Bool) := needle.toList.map fun c => (c, true)

/-- The panics of production code. -/
def panics (text : String) : ℕ :=
  (NEEDLES.map fun needle => occurrences (as_production needle) (production text)).sum

/-- A file that the ratchet is for. -/
structure SourceFile where
  path : String
  text : String
  included : is_exempt path = false
  /-- Literals end on their lines. -/
  single_line : ∀ x ∈ classified text, x.1 = '\n' → x.2 = .Code
  /-- No string has an escaped quote. -/
  unescaped : ('"', .Str true) ∉ classified text
  /-- No character literal holds a quote or a brace. -/
  plain_chars : ∀ held ∈ ["\"", "\\\"", "\x7b", "\x7d"],
    ¬ (('\'' :: held.toList).map fun c => (c, Class.CharLit)) <:+: classified text
  no_block_comment : ¬ as_code "/*".toList <:+: classified text
  top_level : cfg_test_on_top (.Items 0) (classified text) = true

/-- The file as the walk finds it. -/
def SourceFile.found (file : SourceFile) : RustFile :=
  { path := file.path, content := some file.text }

end Evidence.Floors
