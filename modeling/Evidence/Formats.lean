/-
The identifier and timestamp formats the record loaders check with third-party
parsers: the `uuid` crate's `Uuid::parse_str` and `chrono`'s
`DateTime::parse_from_rfc3339`.

The loaders use of each only whether a text is accepted. The two predicates are
the class `Formats` here, and every result holds for any pair of them.
`canonical_formats` is the instance that accepts the canonical spelling of each
format.
-/
import Evidence.Text

set_option autoImplicit false

namespace Evidence

/-- The texts that the third-party parsers accept. -/
class Formats where
  /-- `Uuid::parse_str` accepts the text as an RFC 9562 UUIDv4: version random,
  variant RFC 4122. -/
  is_uuid_v4 : String → Bool
  /-- `DateTime::parse_from_rfc3339` accepts the text. -/
  is_rfc3339 : String → Bool

export Formats (is_uuid_v4 is_rfc3339)

/-- A text that follows a template: `d` stands for a decimal digit, `x` for a
lowercase hexadecimal digit, `v` for a variant digit, and any other character
for itself. -/
def follows (template : String) (s : String) : Bool :=
  template.toList.length == s.toList.length &&
    (template.toList.zip s.toList).all fun (t, c) =>
      match t with
      | 'd' => c.isDigit
      | 'x' => c.isDigit || ('a' ≤ c && c ≤ 'f')
      | 'v' => c == '8' || c == '9' || c == 'a' || c == 'b'
      | _ => t == c

/-- The canonical spellings: lowercase hyphenated UUIDs and whole seconds in UTC. -/
@[reducible] def canonical_formats : Formats where
  is_uuid_v4 := follows "xxxxxxxx-xxxx-4xxx-vxxx-xxxxxxxxxxxx"
  is_rfc3339 := follows "dddd-dd-ddTdd:dd:ddZ"

/-- `validate_native_uid`: the kind's typed prefix followed by a UUIDv4. The
caller supplies its error type's constructors. -/
def validate_native_uid [Formats] {ε : Type} (uid expected : String)
    ( native_uid_prefix : String → String → ε) (native_uid_uuid_v4 : String → ε) :
    Except ε Unit :=
  match strip_prefix expected uid with
  | none => .error ( native_uid_prefix uid expected)
  | some suffix => if is_uuid_v4 suffix then .ok () else .error (native_uid_uuid_v4 uid)

end Evidence
