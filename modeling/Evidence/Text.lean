/-
The parts of Rust's `char` and `str` the corpus code calls, at the value level.

A `String` here is a Rust `String`: a sequence of Unicode scalar values with its
UTF-8 bytes. `str_bytes` is `str::as_bytes`, `is_whitespace` is the Unicode
`White_Space` property, and the ASCII helpers are the `u8` methods of the same
names. Injectivity of the byte view is the fact the digest encodings rest on.
-/
import Mathlib.Algebra.Ring.Nat
import Mathlib.Data.List.Basic
import Mathlib.Data.List.TakeWhile

set_option autoImplicit false

namespace Evidence

/-! ## Bytes -/

/-- `str::as_bytes`: the UTF-8 bytes of a string. -/
def str_bytes (s : String) : List UInt8 := s.toByteArray.data.toList

/-- `str::len`: the number of UTF-8 bytes. -/
def str_len (s : String) : ℕ := s.utf8ByteSize

theorem length_str_bytes (s : String) : (str_bytes s).length = str_len s := by
  rw [str_bytes, str_len, Array.length_toList, ByteArray.size_data, String.size_toByteArray]

/-- **A string is determined by its bytes.** -/
theorem str_bytes_inj {s t : String} (h : str_bytes s = str_bytes t) : s = t := by
  rw [← String.toByteArray_inj]
  exact ByteArray.ext (Array.toList_inj.mp h)

theorem str_bytes_eq_flatMap (s : String) : str_bytes s = s.toList.flatMap String.utf8EncodeChar := by
  conv_lhs => rw [str_bytes, ← String.ofList_toList (s := s), String.toByteArray_ofList]
  simp [List.utf8Encode]

/-- A character has at least one byte and at most four. -/
theorem str_len_bounds (s : String) :
    s.toList.length ≤ str_len s ∧ str_len s ≤ 4 * s.toList.length := by
  have hchars : ∀ cs : List Char, cs.length ≤ (cs.flatMap String.utf8EncodeChar).length ∧
      (cs.flatMap String.utf8EncodeChar).length ≤ 4 * cs.length := by
    intro cs
    induction cs with
    | nil => simp
    | cons c cs ih =>
      have hpos := c.utf8Size_pos
      have hfour := c.utf8Size_le_four
      rw [List.flatMap_cons, List.length_append, String.length_utf8EncodeChar, List.length_cons]
      omega
  rw [← length_str_bytes, str_bytes_eq_flatMap]
  exact hchars s.toList

theorem str_len_of_one_byte {s : String} (h : ∀ c ∈ s.toList, c.utf8Size = 1) :
    str_len s = s.toList.length := by
  have hbytes : ∀ cs : List Char, (∀ c ∈ cs, c.utf8Size = 1) →
      (cs.flatMap String.utf8EncodeChar).length = cs.length := by
    intro cs hcs
    induction cs with
    | nil => rfl
    | cons c cs ih =>
      rw [List.flatMap_cons, List.length_append, String.length_utf8EncodeChar,
        hcs c List.mem_cons_self, ih fun d hd => hcs d (List.mem_cons_of_mem c hd),
        List.length_cons, Nat.add_comm]
  rw [← length_str_bytes, str_bytes_eq_flatMap, hbytes _ h]

theorem utf8EncodeChar_ascii {c : Char} (h : ∀ b ∈ String.utf8EncodeChar c, b.toNat < 128) :
    c.toNat < 128 ∧ String.utf8EncodeChar c = [UInt8.ofNat c.toNat] := by
  have hval : c.val.toNat = c.toNat := rfl
  unfold String.utf8EncodeChar at h ⊢
  simp only [hval] at h ⊢
  split at h
  · next hle =>
    rw [if_pos hle]
    exact ⟨by omega, rfl⟩
  · exfalso
    split at h
    · have hlead := h _ List.mem_cons_self
      rw [UInt8.toNat_ofNat'] at hlead
      omega
    · split at h
      · have hlead := h _ List.mem_cons_self
        rw [UInt8.toNat_ofNat'] at hlead
        omega
      · have hlead := h _ List.mem_cons_self
        rw [UInt8.toNat_ofNat'] at hlead
        omega

/-! ## ASCII classes -/

/-- `u8::is_ascii_digit`. -/
def is_ascii_digit (b : UInt8) : Bool := 0x30 ≤ b && b ≤ 0x39

/-- `u8::is_ascii_alphabetic`. -/
def is_ascii_alphabetic (b : UInt8) : Bool :=
  (0x41 ≤ b && b ≤ 0x5A) || (0x61 ≤ b && b ≤ 0x7A)

/-- `u8::is_ascii_alphanumeric`. -/
def is_ascii_alphanumeric (b : UInt8) : Bool := is_ascii_alphabetic b || is_ascii_digit b

/-- `b.is_ascii_digit() || (b'a'..=b'f').contains(&b)`: the lowercase hexadecimal
alphabet, as the digest and git-blob checks spell it. -/
def is_lower_hex (b : UInt8) : Bool := is_ascii_digit b || (0x61 ≤ b && b ≤ 0x66)

/-- `u8::to_ascii_lowercase`. -/
def to_ascii_lowercase (b : UInt8) : UInt8 := if 0x41 ≤ b && b ≤ 0x5A then b + 0x20 else b

/-- `str::eq_ignore_ascii_case`. -/
def eq_ignore_ascii_case (s t : String) : Bool :=
  (str_bytes s).map to_ascii_lowercase == (str_bytes t).map to_ascii_lowercase

/-! ## Whitespace -/

/-- `char::is_whitespace`: the Unicode `White_Space` property. -/
def is_whitespace (c : Char) : Bool :=
  let n := c.toNat
  (0x09 ≤ n && n ≤ 0x0D) || n == 0x20 || n == 0x85 || n == 0xA0 || n == 0x1680 ||
    (0x2000 ≤ n && n ≤ 0x200A) || n == 0x2028 || n == 0x2029 || n == 0x202F || n == 0x205F ||
    n == 0x3000

/-- `str::trim`, as the characters it keeps. -/
def trim (s : String) : List Char :=
  ((s.toList.dropWhile is_whitespace).reverse.dropWhile is_whitespace).reverse

/-- `value.trim().is_empty()`. -/
def is_blank (s : String) : Bool := (trim s).isEmpty

theorem is_blank_iff (text : String) :
    is_blank text = true ↔ ∀ c ∈ text.toList, is_whitespace c = true := by
  rw [is_blank, trim, List.isEmpty_iff, List.reverse_eq_nil_iff, List.dropWhile_eq_nil_iff]
  constructor
  · intro h c hc
    by_contra hchar
    have hkept : text.toList.dropWhile is_whitespace ≠ [] := fun hnil =>
      hchar (List.dropWhile_eq_nil_iff.mp hnil c hc)
    obtain ⟨d, rest, hrest⟩ := List.exists_cons_of_ne_nil hkept
    have hfirst := h d (List.mem_reverse.mpr (by rw [hrest]; exact List.mem_cons_self))
    have hhead := List.head?_dropWhile_not is_whitespace text.toList
    rw [hrest, List.head?_cons] at hhead
    simp [hfirst] at hhead
  · intro h c hc
    rw [List.mem_reverse] at hc
    exact h c ((List.dropWhile_sublist _).subset hc)

theorem is_blank_append {s t : String} (h : is_blank (s ++ t) = true) :
    is_blank s = true ∧ is_blank t = true := by
  rw [is_blank_iff, String.toList_append] at h
  rw [is_blank_iff, is_blank_iff]
  exact ⟨fun c hc => h c (List.mem_append_left _ hc), fun c hc => h c (List.mem_append_right _ hc)⟩

/-- `str::split_whitespace().next()`: the first run of non-whitespace. -/
def first_token (s : String) : Option String :=
  match s.toList.dropWhile is_whitespace with
  | [] => none
  | c :: cs => some (String.ofList ((c :: cs).takeWhile fun d => !is_whitespace d))

/-! ## Searching -/

/-- `str::split_once`: the text before and after the first occurrence of a
pattern. -/
def split_once (pattern : List Char) : List Char → Option (List Char × List Char)
  | [] => if pattern.isEmpty then some ([], []) else none
  | c :: cs =>
    if pattern.isPrefixOf (c :: cs) then some ([], (c :: cs).drop pattern.length)
    else (split_once pattern cs).map fun (before, after) => (c :: before, after)

/-- `str::strip_prefix`. -/
def strip_prefix (pattern s : String) : Option String :=
  if pattern.toList.isPrefixOf s.toList then some (String.ofList (s.toList.drop pattern.length))
  else none

theorem strip_prefix_append (pattern s : String) :
    strip_prefix pattern (pattern ++ s) = some s := by
  have hprefix : pattern.toList.isPrefixOf (pattern ++ s).toList = true := by
    rw [String.toList_append, List.isPrefixOf_iff_prefix]
    exact List.prefix_append _ _
  rw [ strip_prefix, if_pos hprefix, String.toList_append, ← String.length_toList, List.drop_left,
    String.ofList_toList]

/-! ## Numbers -/

/-- `Display` for unsigned integers: decimal digits. -/
def decimal (n : ℕ) : String := Nat.repr n

/-! ## Debug output -/

/-- `Debug` for `str`: the quoted text, with its escapes taken from the Unicode tables
of the standard library. -/
class StrDebug where
  /-- `format!` of the text with `:?`. -/
  str_debug : String → String

export StrDebug (str_debug)

/-- The quoted text, as it is for a text that needs no escape. -/
@[reducible] def plain_debug : StrDebug where
  str_debug := fun value => "\"" ++ value ++ "\""

end Evidence
