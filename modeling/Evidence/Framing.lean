/-
The **length-prefixed framing** shared by every digest encoding of the corpus:
`str(s)` is the 64-bit big-endian byte length and then the exact UTF-8 bytes,
`opt(o)` is the all-ones sentinel for `None`, and a count is a bare 64-bit
big-endian number. The same three private helpers are repeated in
`source_graph/normalization.rs`, `source_patch/digest.rs` and
`review_content.rs`; they are one definition here.

Each helper reads back out of whatever it is written into, with one condition:
a length must fit its eight bytes (`FitsU64`), and an optional string's length must not be
the sentinel (`Fits`).
-/
import Evidence.Text
import Evidence.Lib.Codec

set_option autoImplicit false

namespace Evidence

open Codec

/-! ## The helpers -/

/-- `u64::to_be_bytes` of a number taken modulo `2^64`. -/
def to_be_bytes (n : ℕ) : List UInt8 :=
  [UInt8.ofNat (n / 2 ^ 56), UInt8.ofNat (n / 2 ^ 48), UInt8.ofNat (n / 2 ^ 40),
    UInt8.ofNat (n / 2 ^ 32), UInt8.ofNat (n / 2 ^ 24), UInt8.ofNat (n / 2 ^ 16),
    UInt8.ofNat (n / 2 ^ 8), UInt8.ofNat n]

/-- `u64::MAX`, the `None` sentinel. -/
def NONE_SENTINEL : ℕ := 2 ^ 64 - 1

/-- The bytes `push_count` appends. -/
def push_count (count : ℕ) : List UInt8 := to_be_bytes count

/-- The bytes `push_str` appends. -/
def push_str (value : String) : List UInt8 := push_count (str_len value) ++ str_bytes value

def push_opt : Option String → List UInt8
  | some value => push_str value
  | none => to_be_bytes NONE_SENTINEL

/-! ## Reading the helpers back -/

@[simp] theorem length_to_be_bytes (n : ℕ) : (to_be_bytes n).length = 8 := rfl

/-- The big-endian bytes of a number determine it modulo `2^64`. -/
theorem to_be_bytes_inj {n m : ℕ} (h : to_be_bytes n = to_be_bytes m) :
    n % 2 ^ 64 = m % 2 ^ 64 := by
  simp only [to_be_bytes, List.cons.injEq, and_true, ← UInt8.toNat_inj, UInt8.toNat_ofNat'] at h
  omega

theorem push_count_inj {n m : ℕ} (hn : n < 2 ^ 64) (hm : m < 2 ^ 64) {s t : List UInt8}
    (h : push_count n ++ s = push_count m ++ t) : n = m ∧ s = t := by
  obtain ⟨henc, hrest⟩ := List.append_inj h rfl
  refine ⟨?_, hrest⟩
  have hmod := to_be_bytes_inj henc
  rwa [Nat.mod_eq_of_lt hn, Nat.mod_eq_of_lt hm] at hmod

/-- A count is eight bytes, whatever it is. -/
theorem push_count_skip {n m : ℕ} {s t : List UInt8} (h : push_count n ++ s = push_count m ++ t) :
    s = t :=
  List.append_inj_right h rfl

/-- A string whose length is a `u64`. -/
def FitsU64 (value : String) : Prop := str_len value < 2 ^ 64

/-- A string the framing can hold beside absent ones: its length is a `u64` other than the
sentinel. -/
def Fits (value : String) : Prop := str_len value < NONE_SENTINEL

/-- An optional string the framing can hold. -/
def FitsOpt (value : Option String) : Prop := ∀ v ∈ value, Fits v

instance (value : String) : Decidable (FitsU64 value) := inferInstanceAs (Decidable (_ < _))

instance (value : String) : Decidable (Fits value) := inferInstanceAs (Decidable (_ < _))

instance (value : Option String) : Decidable (FitsOpt value) :=
  inferInstanceAs (Decidable (∀ v ∈ value, Fits v))

theorem Fits.fitsU64 {value : String} (h : Fits value) : FitsU64 value :=
  Nat.lt_trans h (by decide)

/-- **A framed string reads back.** -/
theorem push_str_reads {v w : String} (hv : FitsU64 v) (hw : FitsU64 w) {s t : List UInt8}
    (h : push_str v ++ s = push_str w ++ t) : v = w ∧ s = t := by
  simp only [push_str, List.append_assoc] at h
  obtain ⟨hlen, hrest⟩ := push_count_inj hv hw h
  obtain ⟨hbytes, hst⟩ :=
    List.append_inj hrest (by rw [length_str_bytes, length_str_bytes, hlen])
  exact ⟨str_bytes_inj hbytes, hst⟩

theorem push_str_inj {v w : String} (hv : Fits v) (hw : Fits w) {s t : List UInt8}
    (h : push_str v ++ s = push_str w ++ t) : v = w ∧ s = t :=
  push_str_reads hv.fitsU64 hw.fitsU64 h

/-- **A framed optional string reads back**: no length that fits is the
sentinel. -/
theorem push_opt_inj {v w : Option String} (hv : FitsOpt v) (hw : FitsOpt w) {s t : List UInt8}
    (h : push_opt v ++ s = push_opt w ++ t) : v = w ∧ s = t := by
  have hsentinel : ∀ (x : String) (a b : List UInt8), Fits x →
      push_str x ++ a ≠ to_be_bytes NONE_SENTINEL ++ b := by
    intro x a b hx hab
    simp only [push_str, List.append_assoc] at hab
    simp only [Fits] at hx
    have hlt : str_len x < 2 ^ 64 := by simp only [NONE_SENTINEL] at hx; omega
    obtain ⟨hlen, _⟩ := push_count_inj hlt (by decide) hab
    omega
  cases v with
  | none =>
    cases w with
    | none => exact ⟨rfl, List.append_cancel_left h⟩
    | some w => exact absurd h.symm (hsentinel w t s (hw w rfl))
  | some v =>
    cases w with
    | none => exact absurd h (hsentinel v s t (hv v rfl))
    | some w =>
      obtain ⟨rfl, hst⟩ := push_str_inj (hv v rfl) (hw w rfl) h
      exact ⟨rfl, hst⟩

/-- **A counted list of framed parts reads back.** -/
theorem push_list_reads {α : Type*} {enc : α → List UInt8} {vs ws : List α}
    (hv : vs.length < 2 ^ 64) (hw : ws.length < 2 ^ 64)
    (henc : ∀ v ∈ vs, ∀ w ∈ ws, ∀ s t, enc v ++ s = enc w ++ t → v = w ∧ s = t)
    {s t : List UInt8} (h : push_count vs.length ++ (vs.flatMap enc ++ s) =
      push_count ws.length ++ (ws.flatMap enc ++ t)) : vs = ws ∧ s = t := by
  obtain ⟨hlen, hrest⟩ := push_count_inj hv hw h
  obtain ⟨hmap, hst⟩ : vs.map id = ws.map id ∧ s = t := flatMap_inj_length henc hlen hrest
  rw [List.map_id, List.map_id] at hmap
  exact ⟨hmap, hst⟩

theorem push_strs_reads {vs ws : List String} (hv : vs.length < 2 ^ 64) (hw : ws.length < 2 ^ 64)
    (hvs : ∀ v ∈ vs, FitsU64 v) (hws : ∀ w ∈ ws, FitsU64 w) {s t : List UInt8}
    (h : push_count vs.length ++ (vs.flatMap push_str ++ s) =
      push_count ws.length ++ (ws.flatMap push_str ++ t)) : vs = ws ∧ s = t :=
  push_list_reads hv hw
    (fun v hvm w hwm _ _ heq => push_str_reads (hvs v hvm) (hws w hwm) heq) h

theorem push_strs_inj {vs ws : List String} (hv : vs.length < 2 ^ 64) (hw : ws.length < 2 ^ 64)
    (hvs : ∀ v ∈ vs, Fits v) (hws : ∀ w ∈ ws, Fits w) {s t : List UInt8}
    (h : push_count vs.length ++ (vs.flatMap push_str ++ s) =
      push_count ws.length ++ (ws.flatMap push_str ++ t)) : vs = ws ∧ s = t :=
  push_strs_reads hv hw (fun v hvm => (hvs v hvm).fitsU64) (fun w hwm => (hws w hwm).fitsU64) h

end Evidence
