/-
The text functions of the ingesters -- `corpus/source_graph/normalization.rs` and
`corpus/ingest/markdown/anchors.rs`.

Prose is folded to single spaces, code keeps its lines, and a heading without an id of its own
gets a slug. Unicode composition and the tables behind `char::to_lowercase` and
`char::is_alphanumeric` are taken as given.
-/
import Evidence.Lines
import Evidence.Text

set_option autoImplicit false

namespace Evidence.Corpus

class UnicodeTables where
  nfc : String → String
  to_lowercase : Char → List Char
  is_alphanumeric : Char → Bool

@[reducible] def ascii_tables : UnicodeTables where
  nfc := id
  to_lowercase := fun c => [c.toLower]
  is_alphanumeric := Char.isAlphanum

/-! ## Normalization -/

/-- One character of prose: a pending space is written in front of the next
non-whitespace. -/
def fold_space (state : List Char × Bool) (ch : Char) : List Char × Bool :=
  if is_whitespace ch then (state.1, true)
  else if state.2 && !state.1.isEmpty then (state.1 ++ [' ', ch], false)
  else (state.1 ++ [ch], false)

section

variable [UnicodeTables]

/-- Prose: NFC, every whitespace run folded to one space, the ends trimmed. -/
def normalize_prose (text : String) : String :=
  String.ofList ((UnicodeTables.nfc text).toList.foldl fold_space ([], false)).1

/-- Code: NFC, every line end mapped to a line feed. -/
def normalize_code (text : String) : String :=
  String.ofList ((replace_crlf (UnicodeTables.nfc text).toList).map fun ch =>
    if ch = '\r' then '\n' else ch)

/-! ## Slugs -/

/-- One character of a slug: a pending hyphen is written in front of the next
alphanumeric. -/
def fold_hyphen (state : List Char × Bool) (ch : Char) : List Char × Bool :=
  if UnicodeTables.is_alphanumeric ch then
    if state.2 && !state.1.isEmpty then (state.1 ++ ['-', ch], false)
    else (state.1 ++ [ch], false)
  else (state.1, true)

def slugify (text : String) : String :=
  let chars := (UnicodeTables.nfc text).toList.flatMap UnicodeTables.to_lowercase
  let out := (chars.foldl fold_hyphen ([], false)).1
  if out.isEmpty then "section" else String.ofList out

end

/-- The first of `slug-counter`, `slug-(counter + 1)`, … that is not used. There are more of them
than used anchors, so the search ends. -/
def first_unused (used : List String) (slug : String) : ℕ → ℕ → String
  | 0, counter => slug ++ "-" ++ decimal counter
  | fuel + 1, counter =>
    let candidate := slug ++ "-" ++ decimal counter
    if candidate ∈ used then first_unused used slug fuel (counter + 1) else candidate

/-- Claim a slug against the used anchors. -/
def dedup_anchor (used : List String) (slug : String) : String × List String :=
  if slug ∈ used then
    let candidate := first_unused used slug used.length 2
    (candidate, candidate :: used)
  else (slug, slug :: used)

end Evidence.Corpus
