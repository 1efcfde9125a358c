/-
The **SHA-256 layer**: the hash function of FIPS 180-4, on natural numbers.

Words are natural numbers below `2^32` and a message is a list of bytes, so the
kernel can run the function on a concrete message. `hexDigest` is the usual
lowercase hexadecimal form, and the only general fact needed of it is its shape:
sixty-four characters of the hexadecimal alphabet (`hexDigest_shape`).
-/
import Mathlib.Data.List.Basic

set_option autoImplicit false

namespace Fips180

/-! ## Words -/

/-- Right rotation of a 32-bit word. -/
def rotr (n x : ℕ) : ℕ := (x >>> n) ||| ((x <<< (32 - n)) % 4294967296)

/-- Complement of a 32-bit word. -/
def complement (x : ℕ) : ℕ := x ^^^ 4294967295

/-- Addition of 32-bit words. -/
def add (x y : ℕ) : ℕ := (x + y) % 4294967296

/-- The sixty-four round constants. -/
def roundConstants : List ℕ := [
  0x428a2f98, 0x71374491, 0xb5c0fbcf, 0xe9b5dba5, 0x3956c25b, 0x59f111f1, 0x923f82a4, 0xab1c5ed5,
  0xd807aa98, 0x12835b01, 0x243185be, 0x550c7dc3, 0x72be5d74, 0x80deb1fe, 0x9bdc06a7, 0xc19bf174,
  0xe49b69c1, 0xefbe4786, 0x0fc19dc6, 0x240ca1cc, 0x2de92c6f, 0x4a7484aa, 0x5cb0a9dc, 0x76f988da,
  0x983e5152, 0xa831c66d, 0xb00327c8, 0xbf597fc7, 0xc6e00bf3, 0xd5a79147, 0x06ca6351, 0x14292967,
  0x27b70a85, 0x2e1b2138, 0x4d2c6dfc, 0x53380d13, 0x650a7354, 0x766a0abb, 0x81c2c92e, 0x92722c85,
  0xa2bfe8a1, 0xa81a664b, 0xc24b8b70, 0xc76c51a3, 0xd192e819, 0xd6990624, 0xf40e3585, 0x106aa070,
  0x19a4c116, 0x1e376c08, 0x2748774c, 0x34b0bcb5, 0x391c0cb3, 0x4ed8aa4a, 0x5b9cca4f, 0x682e6ff3,
  0x748f82ee, 0x78a5636f, 0x84c87814, 0x8cc70208, 0x90befffa, 0xa4506ceb, 0xbef9a3f7, 0xc67178f2]

/-! ## The compression function -/

/-- The eight working registers. -/
structure Registers where
  a : ℕ
  b : ℕ
  c : ℕ
  d : ℕ
  e : ℕ
  f : ℕ
  g : ℕ
  h : ℕ

/-- The initial hash value. -/
def initial : Registers :=
  ⟨0x6a09e667, 0xbb67ae85, 0x3c6ef372, 0xa54ff53a, 0x510e527f, 0x9b05688c, 0x1f83d9ab, 0x5be0cd19⟩

/-- The registers in order. -/
def Registers.words (r : Registers) : List ℕ := [r.a, r.b, r.c, r.d, r.e, r.f, r.g, r.h]

/-- The next word of the message schedule from the last sixteen, oldest first. -/
def scheduleWord : List ℕ → ℕ
  | [w0, w1, _, _, _, _, _, _, _, w9, _, _, _, _, w14, _] =>
    let s0 := rotr 7 w1 ^^^ rotr 18 w1 ^^^ (w1 >>> 3)
    let s1 := rotr 17 w14 ^^^ rotr 19 w14 ^^^ (w14 >>> 10)
    (w0 + s0 + w9 + s1) % 4294967296
  | _ => 0

/-- One round with constant `k` and schedule word `w`. -/
def round (r : Registers) (k w : ℕ) : Registers :=
  let sum1 := rotr 6 r.e ^^^ rotr 11 r.e ^^^ rotr 25 r.e
  let choose := (r.e &&& r.f) ^^^ (complement r.e &&& r.g)
  let t1 := r.h + sum1 + choose + k + w
  let sum0 := rotr 2 r.a ^^^ rotr 13 r.a ^^^ rotr 22 r.a
  let majority := (r.a &&& r.b) ^^^ (r.a &&& r.c) ^^^ (r.b &&& r.c)
  ⟨add t1 (sum0 + majority), r.a, r.b, r.c, add r.d t1, r.e, r.f, r.g⟩

def rounds : List ℕ → List ℕ → Registers → Registers
  | [], _, r => r
  | k :: ks, window, r =>
    rounds ks (window.tail ++ [scheduleWord window]) (round r k (window.headD 0))

/-- One block of sixteen words. -/
def compress (r : Registers) (block : List ℕ) : Registers :=
  let s := rounds roundConstants block r
  ⟨add r.a s.a, add r.b s.b, add r.c s.c, add r.d s.d,
    add r.e s.e, add r.f s.f, add r.g s.g, add r.h s.h⟩

/-! ## The hash -/

def bigEndian (k n : ℕ) : List ℕ := (List.range k).reverse.map fun i => (n >>> (8 * i)) % 256

/-- A message with its padding: a one bit, zeros, and the length in bits. -/
def pad (message : List ℕ) : List ℕ :=
  message ++ 0x80 :: List.replicate ((119 - message.length % 64) % 64) 0 ++
    bigEndian 8 (8 * message.length)

/-- Bytes as big-endian words. -/
def toWords : List ℕ → List ℕ
  | b0 :: b1 :: b2 :: b3 :: rest => (((b0 * 256 + b1) * 256 + b2) * 256 + b3) :: toWords rest
  | _ => []

/-- Words as blocks of sixteen; `fuel` bounds the number of blocks. -/
def toBlocks : ℕ → List ℕ → List (List ℕ)
  | 0, _ => []
  | fuel + 1, words => if words.isEmpty then [] else words.take 16 :: toBlocks fuel (words.drop 16)

/-- The SHA-256 hash of a message, as eight words. -/
def digest (message : List ℕ) : Registers :=
  let words := toWords (pad message)
  (toBlocks words.length words).foldl compress initial

/-! ## Hexadecimal form -/

/-- The lowercase hexadecimal digit of a number below sixteen. -/
def hexDigit (n : ℕ) : Char :=
  ['0', '1', '2', '3', '4', '5', '6', '7', '8', '9', 'a', 'b', 'c', 'd', 'e', 'f'].getD (n % 16) '0'

/-- The eight hexadecimal digits of a word. -/
def hexWord (w : ℕ) : List Char := (List.range 8).reverse.map fun i => hexDigit (w >>> (4 * i))

/-- The hash of a message as lowercase hexadecimal digits. -/
def hexDigest (message : List ℕ) : List Char := (digest message).words.flatMap hexWord

/-- The alphabet of `hexDigit`. -/
def IsHexDigit (c : Char) : Prop := ∃ n < 16, c = hexDigit n

theorem isHexDigit_hexDigit (n : ℕ) : IsHexDigit (hexDigit n) :=
  ⟨n % 16, Nat.mod_lt n (by omega), by simp only [hexDigit, Nat.mod_mod]⟩

/-- **The hexadecimal form of a hash is sixty-four lowercase hexadecimal digits.** -/
theorem hexDigest_shape (message : List ℕ) :
    (hexDigest message).length = 64 ∧ ∀ c ∈ hexDigest message, IsHexDigit c := by
  refine ⟨?_, ?_⟩
  · simp [hexDigest, Registers.words, hexWord]
  · intro c hc
    obtain ⟨w, _, hcw⟩ := List.mem_flatMap.mp hc
    obtain ⟨i, _, rfl⟩ := List.mem_map.mp hcw
    exact isHexDigit_hexDigit _

/-! ## Evaluation -/

/-- Evaluate a number before it is used. -/
def force {α : Type} (n : ℕ) (use : ℕ → α) : α :=
  match n with
  | 0 => use 0
  | m + 1 => use (Nat.succ m)

theorem force_eq {α : Type} (n : ℕ) (use : ℕ → α) : force n use = use n := by
  cases n <;> rfl

/-- `rotr`, on the kernel's own operations. -/
def rotrEval (n x : ℕ) : ℕ :=
  Nat.lor (Nat.shiftRight x n) (Nat.mod (Nat.shiftLeft x (Nat.sub 32 n)) 4294967296)

/-- `scheduleWord`, on the kernel's own operations. -/
def scheduleEval : List ℕ → ℕ
  | [w0, w1, _, _, _, _, _, _, _, w9, _, _, _, _, w14, _] =>
    let s0 := Nat.xor (Nat.xor (rotrEval 7 w1) (rotrEval 18 w1)) (Nat.shiftRight w1 3)
    let s1 := Nat.xor (Nat.xor (rotrEval 17 w14) (rotrEval 19 w14)) (Nat.shiftRight w14 10)
    Nat.mod (Nat.add (Nat.add (Nat.add w0 s0) w9) s1) 4294967296
  | _ => 0

/-- `rounds`, with every register a number when the next round begins. -/
def roundsEval : List ℕ → List ℕ → ℕ → ℕ → ℕ → ℕ → ℕ → ℕ → ℕ → ℕ → Registers
  | [], _, a, b, c, d, e, f, g, h => ⟨a, b, c, d, e, f, g, h⟩
  | k :: ks, window, a, b, c, d, e, f, g, h =>
    let sum1 := Nat.xor (Nat.xor (rotrEval 6 e) (rotrEval 11 e)) (rotrEval 25 e)
    let choose := Nat.xor (Nat.land e f) (Nat.land (Nat.xor e 4294967295) g)
    let sum0 := Nat.xor (Nat.xor (rotrEval 2 a) (rotrEval 13 a)) (rotrEval 22 a)
    let majority := Nat.xor (Nat.xor (Nat.land a b) (Nat.land a c)) (Nat.land b c)
    force (Nat.add (Nat.add (Nat.add (Nat.add h sum1) choose) k) (window.headD 0)) fun t1 =>
    force (Nat.mod (Nat.add t1 (Nat.add sum0 majority)) 4294967296) fun first =>
    force (Nat.mod (Nat.add d t1) 4294967296) fun fifth =>
    force (scheduleEval window) fun word =>
      roundsEval ks (window.tail ++ [word]) first a b c fifth e f g

def compressEval (r : Registers) (block : List ℕ) : Registers :=
  let s := roundsEval roundConstants block r.a r.b r.c r.d r.e r.f r.g r.h
  force (Nat.mod (Nat.add r.a s.a) 4294967296) fun a =>
  force (Nat.mod (Nat.add r.b s.b) 4294967296) fun b =>
  force (Nat.mod (Nat.add r.c s.c) 4294967296) fun c =>
  force (Nat.mod (Nat.add r.d s.d) 4294967296) fun d =>
  force (Nat.mod (Nat.add r.e s.e) 4294967296) fun e =>
  force (Nat.mod (Nat.add r.f s.f) 4294967296) fun f =>
  force (Nat.mod (Nat.add r.g s.g) 4294967296) fun g =>
  force (Nat.mod (Nat.add r.h s.h) 4294967296) fun h => ⟨a, b, c, d, e, f, g, h⟩

/-- `digest`, for the kernel to run. -/
def digestEval (message : List ℕ) : Registers :=
  let words := toWords (pad message)
  (toBlocks words.length words).foldl compressEval initial

/-- `hexDigest`, for the kernel to run. -/
def hexDigestEval (message : List ℕ) : List Char := (digestEval message).words.flatMap hexWord

theorem roundsEval_eq (ks window : List ℕ) (r : Registers) :
    roundsEval ks window r.a r.b r.c r.d r.e r.f r.g r.h = rounds ks window r := by
  induction ks generalizing window r with
  | nil => rfl
  | cons k ks ih =>
    simp only [roundsEval, force_eq]
    exact ih _ (round r k (window.headD 0))

theorem compressEval_eq (r : Registers) (block : List ℕ) :
    compressEval r block = compress r block := by
  simp only [compressEval, force_eq, roundsEval_eq]
  generalize hrounds : rounds roundConstants block r = s
  rw [compress, hrounds]
  rfl

/-- **What the kernel runs is the hash.** -/
theorem hexDigest_eq_eval (message : List ℕ) : hexDigest message = hexDigestEval message := by
  have hcompress : compressEval = compress :=
    funext fun r => funext fun block => compressEval_eq r block
  rw [hexDigest, hexDigestEval, digest, digestEval, hcompress]

example : String.ofList (hexDigest [0x61, 0x62, 0x63]) =
    "ba7816bf8f01cfea414140de5dae2223b00361a396177a9cb410ff61f20015ad" := by
  rw [hexDigest_eq_eval]
  decide +kernel

end Fips180
