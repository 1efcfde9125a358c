/-
`corpus/digest.rs` -- the typed lowercase SHA-256 digest domains -- and the
hasher under them.

`crate::hash::sha256` is the lowercase hexadecimal form of a third-party hasher.
It is the class `Sha256` here: a function from bytes to text of which the model
relies on the shape of the text alone, so every result holds for any such
function. `fips180` is the instance that computes the standard's hash.

Each digest domain is a string together with the proof that it satisfies the
digest contract, as the validating constructors of the source enforce, and the
domains are distinct types.
-/
import Evidence.Text
import Evidence.Lib.Fips180

set_option autoImplicit false

namespace Evidence.Corpus

/-! ## The contract -/

/-- Exactly 64 characters drawn from `[0-9a-f]`. -/
def is_valid_digest_hex (hex : String) : Bool :=
  str_len hex == 64 && (str_bytes hex).all is_lower_hex

/-- `crate::hash::sha256`, whose output alphabet is the digest contract. -/
class Sha256 where
  /-- The lowercase hexadecimal hash of the bytes. -/
  sha256 : List UInt8 → String
  /-- The output satisfies the digest contract. -/
  sha256_hex : ∀ bytes, is_valid_digest_hex (sha256 bytes) = true

export Sha256 (sha256)

theorem digest_char {hex : String} (h : is_valid_digest_hex hex = true) {c : Char}
    (hc : c ∈ hex.toList) : c.toNat < 128 ∧ is_lower_hex (UInt8.ofNat c.toNat) = true := by
  rw [is_valid_digest_hex, Bool.and_eq_true, List.all_eq_true] at h
  have hbytes : ∀ b ∈ String.utf8EncodeChar c, is_lower_hex b = true := by
    intro b hb
    refine h.2 b ?_
    rw [str_bytes_eq_flatMap]
    exact List.mem_flatMap.mpr ⟨c, hc, hb⟩
  have hascii : ∀ b ∈ String.utf8EncodeChar c, b.toNat < 128 := by
    intro b hb
    have hlower := hbytes b hb
    simp only [is_lower_hex, is_ascii_digit, Bool.or_eq_true, Bool.and_eq_true, decide_eq_true_eq,
      UInt8.le_iff_toNat_le] at hlower
    have h39 : (0x39 : UInt8).toNat = 57 := rfl
    have h66 : (0x66 : UInt8).toNat = 102 := rfl
    omega
  obtain ⟨hlt, hone⟩ := utf8EncodeChar_ascii hascii
  exact ⟨hlt, hbytes _ (by rw [hone]; exact List.mem_cons_self)⟩

/-! ## The domains -/

/-- SHA-256 over the canonical text or the structural fingerprint of one
structural source node, or over a curated patch or a source graph. -/
structure StructuralContentDigest where
  as_str : String
  valid : is_valid_digest_hex as_str = true
deriving DecidableEq

/-- SHA-256 over the captured bytes of one frozen source revision. -/
structure SourceContentDigest where
  as_str : String
  valid : is_valid_digest_hex as_str = true
deriving DecidableEq

/-- SHA-256 over the canonical requirement review-content encoding. -/
structure ReviewContentDigest where
  as_str : String
  valid : is_valid_digest_hex as_str = true
deriving DecidableEq

/-- `StructuralContentDigest::from_hasher_output(crate::hash::sha256(bytes))`. -/
def StructuralContentDigest.of_bytes [Sha256] (bytes : List UInt8) : StructuralContentDigest :=
  ⟨sha256 bytes, Sha256.sha256_hex bytes⟩

/-- `ReviewContentDigest::from_hasher_output(crate::hash::sha256(bytes))`. -/
def ReviewContentDigest.of_bytes [Sha256] (bytes : List UInt8) : ReviewContentDigest :=
  ⟨sha256 bytes, Sha256.sha256_hex bytes⟩

theorem StructuralContentDigest.ext_iff {d e : StructuralContentDigest} :
    d = e ↔ d.as_str = e.as_str := by
  cases d
  cases e
  simp only [mk.injEq]

/-! ## The standard hash -/

private theorem hexDigit_bytes (n : ℕ) (h : n < 16) :
    ∃ b, String.utf8EncodeChar (Fips180.hexDigit n) = [b] ∧ is_lower_hex b = true := by
  have hall : ∀ n < 16, (String.utf8EncodeChar (Fips180.hexDigit n)).length = 1 ∧
      (String.utf8EncodeChar (Fips180.hexDigit n)).all is_lower_hex = true := by decide
  obtain ⟨hlen, hlower⟩ := hall n h
  obtain ⟨b, hb⟩ := List.length_eq_one_iff.mp hlen
  refine ⟨b, hb, ?_⟩
  rw [hb] at hlower
  simpa using hlower

/-- Text over the hexadecimal alphabet is as many contract bytes. -/
private theorem hexDigits_bytes (cs : List Char) (h : ∀ c ∈ cs, Fips180.IsHexDigit c) :
    (str_bytes (String.ofList cs)).length = cs.length ∧
      (str_bytes (String.ofList cs)).all is_lower_hex = true := by
  induction cs with
  | nil => exact ⟨by decide, by decide⟩
  | cons c cs ih =>
    obtain ⟨n, hn, rfl⟩ := h _ List.mem_cons_self
    obtain ⟨b, hb, hlower⟩ := hexDigit_bytes n hn
    obtain ⟨hlen, hall⟩ := ih fun d hd => h d (List.mem_cons_of_mem _ hd)
    have hcons : str_bytes (String.ofList (Fips180.hexDigit n :: cs)) =
        b :: str_bytes (String.ofList cs) := by
      have hbytes : (Fips180.hexDigit n :: cs).utf8Encode.data.toList =
          String.utf8EncodeChar (Fips180.hexDigit n) ++ cs.utf8Encode.data.toList := by
        simp [List.utf8Encode]
      rw [str_bytes, String.toByteArray_ofList, hbytes, hb, str_bytes, String.toByteArray_ofList]
      rfl
    rw [hcons]
    exact ⟨by simp only [List.length_cons, hlen],
      by simp only [List.all_cons, hlower, hall, Bool.and_self]⟩

/-- SHA-256 as the standard defines it. -/
@[reducible] def fips180 : Sha256 where
  sha256 := fun bytes => String.ofList (Fips180.hexDigest (bytes.map UInt8.toNat))
  sha256_hex := by
    intro bytes
    obtain ⟨hlen, hdigits⟩ := Fips180.hexDigest_shape (bytes.map UInt8.toNat)
    obtain ⟨hbytes, hall⟩ := hexDigits_bytes _ hdigits
    rw [is_valid_digest_hex, hall, Bool.and_true, beq_iff_eq, ← length_str_bytes, hbytes, hlen]

/-- The standard hash, in the form the kernel runs. -/
@[reducible] def fips180_eval : Sha256 where
  sha256 := fun bytes => String.ofList (Fips180.hexDigestEval (bytes.map UInt8.toNat))
  sha256_hex := by
    intro bytes
    rw [← Fips180.hexDigest_eq_eval]
    exact fips180.sha256_hex bytes

theorem fips180_eq_eval : fips180 = fips180_eval := by
  simp only [fips180, fips180_eval, Fips180.hexDigest_eq_eval]

end Evidence.Corpus
