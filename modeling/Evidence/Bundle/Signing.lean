/-
`bundle/signing.rs` -- the detached signature over `SHA256SUMS` and `index.json`.

The two files are signed as they lie on the disk, in one envelope: each is framed by
its length, so an envelope determines both. The signature is written to `BUNDLE.sig`
as hexadecimal text with a line feed, and read back trimmed. ed25519 itself is a
third-party scheme; the class `Ed25519` is what the code calls of it.
-/
import Evidence.Bundle.FileTree
import Evidence.Framing
import Evidence.Lib.Check

set_option autoImplicit false

namespace Evidence.Bundle

open Check

/-! ## The scheme -/

class Ed25519 where
  SigningKey : Type
  VerifyingKey : Type
  verifying_key : SigningKey → VerifyingKey
  sign : SigningKey → List UInt8 → List UInt8
  sign_length : ∀ key message, (sign key message).length = 64
  verify : VerifyingKey → List UInt8 → List UInt8 → Bool

export Ed25519 (SigningKey VerifyingKey)

/-! ## Reading files -/

/-- The most bytes a `Vec<u8>` holds, `isize::MAX`. -/
def VEC_MAX : ℕ := 2 ^ 63 - 1

/-- `fs::read(root.join(filename))`. -/
def read_bytes (t : FileTree) (filename : String) : Option (List UInt8) :=
  (t.read_text filename.toList).filter fun content => decide (content.length ≤ VEC_MAX)

/-- `String::from_utf8`. -/
def from_utf8 (bytes : List UInt8) : Option String := String.fromUTF8? ⟨bytes.toArray⟩

/-- `fs::read_to_string(root.join(filename))`. -/
def read_to_string (t : FileTree) (filename : String) : Option String :=
  (read_bytes t filename).bind from_utf8

/-- The bytes of a text are read back as the text. -/
theorem from_utf8_str_bytes (s : String) : from_utf8 (str_bytes s) = some s := by
  have hbytes : (⟨(str_bytes s).toArray⟩ : ByteArray) = s.toByteArray := by
    rw [str_bytes, Array.toArray_toList]
  rw [from_utf8, hbytes, String.fromUTF8?, dif_pos s.isValidUTF8]
  rfl

theorem read_bytes_eq_some {t : FileTree} {filename : String} {content : List UInt8} :
    read_bytes t filename = some content ↔
      t.read_text filename.toList = some content ∧ content.length ≤ VEC_MAX := by
  rw [read_bytes, Option.filter_eq_some_iff, decide_eq_true_eq]

/-! ## Hexadecimal text -/

/-- A lowercase hexadecimal digit. -/
def hex_digit (n : ℕ) : Char := if n < 10 then Char.ofNat (48 + n) else Char.ofNat (87 + n)

/-- `hex::encode`. -/
def hex_encode (bytes : List UInt8) : List Char :=
  bytes.flatMap fun b => [hex_digit (b.toNat / 16), hex_digit (b.toNat % 16)]

/-- The value of a hexadecimal digit of either case. -/
def hex_value (c : Char) : Option ℕ :=
  if '0' ≤ c && c ≤ '9' then some (c.toNat - 48)
  else if 'a' ≤ c && c ≤ 'f' then some (c.toNat - 87)
  else if 'A' ≤ c && c ≤ 'F' then some (c.toNat - 55)
  else none

/-- `hex::decode`. -/
def hex_decode : List Char → Option (List UInt8)
  | [] => some []
  | [_] => none
  | c :: d :: rest => do
    let high ← hex_value c
    let low ← hex_value d
    let bytes ← hex_decode rest
    some (UInt8.ofNat (16 * high + low) :: bytes)

theorem hex_digit_spec {n : ℕ} (h : n < 16) :
    hex_value (hex_digit n) = some n ∧ is_whitespace (hex_digit n) = false := by
  revert n
  decide

/-- **Encoded bytes are decoded.** -/
theorem hex_decode_encode (bytes : List UInt8) : hex_decode (hex_encode bytes) = some bytes := by
  induction bytes with
  | nil => rfl
  | cons b bytes ih =>
    have hb := b.toNat_lt
    have hhigh := (hex_digit_spec (n := b.toNat / 16) (by omega)).1
    have hlow := (hex_digit_spec (n := b.toNat % 16) (by omega)).1
    have hvalue : UInt8.ofNat (16 * (b.toNat / 16) + b.toNat % 16) = b := by
      rw [Nat.div_add_mod, UInt8.ofNat_toNat]
    rw [hex_encode] at ih ⊢
    rw [List.flatMap_cons, List.cons_append, List.cons_append, List.nil_append, hex_decode, hhigh,
      hlow, ih]
    simp only [Option.bind_eq_bind, Option.bind_some, hvalue]

/-- Nothing is trimmed off the digits but the line feed behind them. -/
theorem trim_hex_encode (bytes : List UInt8) :
    trim_chars (hex_encode bytes ++ ['\n']) = hex_encode bytes := by
  have hdigits : ∀ c ∈ hex_encode bytes, is_whitespace c = false := by
    intro c hc
    obtain ⟨b, -, hb⟩ := List.mem_flatMap.mp hc
    have hlt := b.toNat_lt
    rcases List.mem_cons.mp hb with rfl | hb
    · exact (hex_digit_spec (by omega)).2
    · rw [List.mem_singleton.mp hb]
      exact (hex_digit_spec (by omega)).2
  rw [trim_chars, Segments.strip_concat (by decide), Segments.strip_eq_self]
  · exact fun c hc => hdigits c (List.mem_of_mem_head? hc)
  · exact fun c hc => hdigits c (List.mem_of_mem_getLast? hc)

/-! ## The envelope -/

inductive SigningError where
  | Read (path : String)
  | InvalidKey (reason : String)
  | InvalidSignatureHex
deriving DecidableEq

/-- Length-prefixed two-input envelope. -/
def envelope_bytes (sha256sums index_json : List UInt8) : List UInt8 :=
  to_be_bytes sha256sums.length ++ sha256sums ++ to_be_bytes index_json.length ++ index_json

/-- **An envelope determines both files.** -/
theorem envelope_bytes_inj {sums sums' index index' : List UInt8} (hsums : sums.length ≤ VEC_MAX)
    (hsums' : sums'.length ≤ VEC_MAX)
    (h : envelope_bytes sums index = envelope_bytes sums' index') :
    sums = sums' ∧ index = index' := by
  simp only [VEC_MAX] at hsums hsums'
  simp only [envelope_bytes, List.append_assoc] at h
  obtain ⟨hlen, hrest⟩ := @push_count_inj sums.length sums'.length (by omega) (by omega) _ _ h
  obtain ⟨hsame, hrest⟩ := List.append_inj hrest hlen
  exact ⟨hsame, (List.append_inj hrest rfl).2⟩

def read_envelope_input (t : FileTree) (filename : String) : Except SigningError (List UInt8) :=
  match read_bytes t filename with
  | none => .error (.Read filename)
  | some content => .ok content

theorem read_envelope_input_ok {t : FileTree} {filename : String} {content : List UInt8} :
    read_envelope_input t filename = .ok content ↔ read_bytes t filename = some content := by
  unfold read_envelope_input
  cases read_bytes t filename <;> simp

def envelope (t : FileTree) : Except SigningError (List UInt8) := do
  let sha256sums ← read_envelope_input t "SHA256SUMS"
  let index_json ← read_envelope_input t "index.json"
  .ok (envelope_bytes sha256sums index_json)

section Sign

variable [Ed25519]

/-- Sign a tree: the bytes that are written to `BUNDLE.sig`. -/
def sign_bundle (t : FileTree) (key : SigningKey) : Except SigningError (List UInt8) := do
  let signed ← envelope t
  let sig_hex := hex_encode (Ed25519.sign key signed) ++ ['\n']
  .ok (str_bytes (String.ofList sig_hex))

def verify_bundle_signature (t : FileTree) (key : VerifyingKey) : Except SigningError Bool := do
  let sha256sums ← read_envelope_input t "SHA256SUMS"
  let index_json ← read_envelope_input t "index.json"
  match read_to_string t "BUNDLE.sig" with
  | none => .error (.Read "BUNDLE.sig")
  | some sig_text =>
    match hex_decode (trim_chars sig_text.toList) with
    | none => .error .InvalidSignatureHex
    | some sig_bytes =>
      if sig_bytes.length ≠ 64 then
        .error (.InvalidKey ("ed25519 signature must be 64 bytes (got " ++
          decimal sig_bytes.length ++ ")"))
      else .ok (Ed25519.verify key (envelope_bytes sha256sums index_json) sig_bytes)

/-- **A tree that carries a signature** made by `sign_bundle` is verified against it. -/
theorem verify_bundle_signature_signed {t signed : FileTree} {key : SigningKey}
    {verify_key : VerifyingKey} {sig : List UInt8} (hsign : sign_bundle signed key = .ok sig)
    (hsig : read_bytes t "BUNDLE.sig" = some sig) {valid : Bool} :
    verify_bundle_signature t verify_key = .ok valid ↔
      ∃ message made, envelope t = .ok message ∧ envelope signed = .ok made ∧
        Ed25519.verify verify_key message (Ed25519.sign key made) = valid := by
  obtain ⟨made, hmade, hwritten⟩ := bind_ok_iff.mp hsign
  have htext : read_to_string t "BUNDLE.sig" =
      some (String.ofList (hex_encode (Ed25519.sign key made) ++ ['\n'])) := by
    rw [read_to_string, hsig, ← Except.ok.inj hwritten]
    exact from_utf8_str_bytes _
  have hread : verify_bundle_signature t verify_key =
      (envelope t).map fun message =>
        Ed25519.verify verify_key message (Ed25519.sign key made) := by
    unfold verify_bundle_signature envelope
    cases read_envelope_input t "SHA256SUMS" with
    | error e => rfl
    | ok sums =>
      cases read_envelope_input t "index.json" with
      | error e => rfl
      | ok index =>
        simp only [bind, Except.bind, htext, String.toList_ofList, trim_hex_encode,
          hex_decode_encode, Ed25519.sign_length, ne_eq, not_true_eq_false, if_false]
        rfl
  rw [hread]
  cases envelope t with
  | error e =>
    constructor
    · exact fun h => nomatch h
    · rintro ⟨message, -, h, -⟩
      exact nomatch h
  | ok message =>
    rw [hmade]
    constructor
    · exact fun h => ⟨message, made, rfl, rfl, Except.ok.inj h⟩
    · rintro ⟨message', made', hm, hm', rfl⟩
      cases hm
      cases hm'
      rfl

end Sign

end Evidence.Bundle
