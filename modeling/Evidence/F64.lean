/-
`f64` at the bit level, as far as the bounding boxes of PDF locators need it:
finiteness, the IEEE comparisons, and the text `Display` writes.

The comparisons are computed from the bits: away from NaN, an IEEE 754 double is
ordered as its magnitude bits with the sign applied, and the two zeros are equal.
The text is the class `F64Display`. Rust documents it as the shortest decimal
text that reads back as the same value, which fixes the alphabet and nothing the
corpus relies on beyond it; the results hold for every rendering over that
alphabet. `exact_display` is an instance that writes the full decimal expansion,
which is the shortest text whenever it has at most fifteen digits.
-/
import Evidence.Text

set_option autoImplicit false

namespace Evidence

/-- An `f64`, as `f64::to_bits` gives it. -/
structure F64 where
  bits : UInt64
deriving DecidableEq

namespace F64

/-! ## Comparisons -/

/-- The sign bit. -/
def is_sign_negative (x : F64) : Bool := 2 ^ 63 ≤ x.bits.toNat

/-- The exponent and mantissa bits. -/
def magnitude (x : F64) : ℕ := x.bits.toNat % 2 ^ 63

/-- `f64::is_finite`: the exponent is not all ones. -/
def is_finite (x : F64) : Bool := x.magnitude < 0x7FF0000000000000

/-- `f64::is_nan`. -/
def is_nan (x : F64) : Bool := 0x7FF0000000000000 < x.magnitude

/-- The magnitude with the sign applied. -/
def signed (x : F64) : Int := if x.is_sign_negative then -x.magnitude else x.magnitude

def eq (x y : F64) : Bool := !x.is_nan && !y.is_nan && x.signed == y.signed

def lt (x y : F64) : Bool := !x.is_nan && !y.is_nan && x.signed < y.signed

/-- Positive zero. -/
def zero : F64 := ⟨0⟩

/-! ## Text -/

/-- The alphabet of `Display` for `f64`: digits, a sign, a point, and the letters
of `NaN` and `inf`. -/
def is_display_char (c : Char) : Bool := c.isAlphanum || c == '-' || c == '.'

end F64

class F64Display where
  /-- The text. -/
  display : F64 → String
  /-- It is written over the alphabet of numbers. -/
  display_chars : ∀ x, ∀ c ∈ (display x).toList, F64.is_display_char c = true

namespace F64

/-- The digits of a decimal fraction `n / 10 ^ places`, with no trailing zeros. -/
def fraction_text (n : ℕ) : ℕ → List Char
  | 0 => Nat.toDigits 10 n
  | places + 1 =>
    if n % 10 = 0 then fraction_text (n / 10) places
    else
      Nat.toDigits 10 (n / 10 ^ (places + 1)) ++ '.' ::
        (Nat.toDigits 10 (10 ^ (places + 1) + n % 10 ^ (places + 1))).tail

/-- The integral significand of a finite value: its absolute value is
`significand * 2 ^ (scale - 1075)`. -/
def significand (x : F64) : ℕ :=
  if x.magnitude < 2 ^ 52 then x.magnitude else x.magnitude % 2 ^ 52 + 2 ^ 52

/-- The biased exponent of a finite value. -/
def scale (x : F64) : ℕ := if x.magnitude < 2 ^ 52 then 1 else x.magnitude / 2 ^ 52

/-- The full decimal expansion of a finite value, without its sign. -/
def expansion (x : F64) : List Char :=
  if 1075 ≤ x.scale then fraction_text (x.significand * 2 ^ (x.scale - 1075)) 0
  else fraction_text (x.significand * 5 ^ (1075 - x.scale)) (1075 - x.scale)

/-- The expansion with its sign, or the name of a value that is not finite. -/
def exact_text (x : F64) : List Char :=
  if x.is_nan then ['N', 'a', 'N']
  else
    (if x.is_sign_negative then ['-'] else []) ++
      (if x.is_finite then x.expansion else ['i', 'n', 'f'])

private theorem toDigits_display (n : ℕ) : ∀ c ∈ Nat.toDigits 10 n, is_display_char c = true := by
  intro c hc
  have hdigit := Nat.isDigit_of_mem_toDigits (by decide) (by decide) hc
  simp only [is_display_char, Char.isAlphanum, hdigit, Bool.or_true, Bool.true_or]

private theorem fraction_text_display (n places : ℕ) :
    ∀ c ∈ fraction_text n places, is_display_char c = true := by
  induction places generalizing n with
  | zero => exact toDigits_display n
  | succ places ih =>
    intro c hc
    rw [fraction_text] at hc
    split at hc
    · exact ih _ c hc
    · rcases List.mem_append.mp hc with hc | hc
      · exact toDigits_display _ c hc
      · rcases List.mem_cons.mp hc with rfl | hc
        · decide
        · exact toDigits_display _ c (List.mem_of_mem_tail hc)

private theorem name_display :
    ∀ c ∈ ['N', 'a', 'N'] ++ ['i', 'n', 'f'], is_display_char c = true :=
  List.all_eq_true.mp (by decide)

private theorem exact_text_display (x : F64) : ∀ c ∈ x.exact_text, is_display_char c = true := by
  intro c hc
  rw [exact_text] at hc
  split at hc
  · exact name_display c (List.mem_append_left _ hc)
  · rcases List.mem_append.mp hc with hc | hc
    · split at hc
      · rw [List.mem_singleton.mp hc]
        decide
      · cases hc
    · split at hc
      · rw [expansion] at hc
        split at hc
        · exact fraction_text_display _ _ c hc
        · exact fraction_text_display _ _ c hc
      · exact name_display c (List.mem_append_right _ hc)

/-- The decimal expansion as a rendering. -/
@[reducible] def exact_display : F64Display where
  display := fun x => String.ofList x.exact_text
  display_chars := by
    intro x c hc
    rw [String.toList_ofList] at hc
    exact exact_text_display x c hc

example : (exact_display.display ⟨0x4083200000000000⟩, exact_display.display ⟨0x4052100000000000⟩,
    exact_display.display ⟨0xBFE0000000000000⟩) = ("612", "72.25", "-0.5") := by decide +kernel

end F64

export F64Display (display)

end Evidence
