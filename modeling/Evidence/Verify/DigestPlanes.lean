/-
The **buckets of a digest diff**: which keys of two digest planes end up where.

The diff walks over the baseline's entries and then over the candidate's keys, and pushes
each key onto one of four lists or onto none. What a key's bucket is depends on the two
values under it alone (`verdict`), so that each list of keys is a filter of one side's
keys followed by a filter of the other's, and a key is in one list, once, or in none.
-/
import Evidence.Verify.Reproduction

set_option autoImplicit false

namespace Evidence.Verify

open Std Check Sorting Evidence.Bundle

/-! ## Digests -/

/-- A digest: 64 characters, each of them a digit or one of the letters `a` to `f`. -/
def IsDigest (digest : String) : Prop :=
  digest.toList.length = 64 ∧ ∀ c ∈ digest.toList, ('0' ≤ c ∧ c ≤ '9') ∨ ('a' ≤ c ∧ c ≤ 'f')

/-- The two checks on a character are that it is a digit or a small letter. -/
theorem lower_hex_iff (c : Char) :
    (is_ascii_hexdigit c && !is_ascii_uppercase c) = true ↔
      ('0' ≤ c ∧ c ≤ '9') ∨ ('a' ≤ c ∧ c ≤ 'f') := by
  have hletters : '0'.val.toNat = 48 ∧ '9'.val.toNat = 57 ∧ 'a'.val.toNat = 97 ∧
      'f'.val.toNat = 102 ∧ 'A'.val.toNat = 65 ∧ 'F'.val.toNat = 70 ∧ 'Z'.val.toNat = 90 :=
    ⟨rfl, rfl, rfl, rfl, rfl, rfl, rfl⟩
  simp only [is_ascii_hexdigit, is_ascii_uppercase, Char.isDigit, Bool.and_eq_true,
    Bool.or_eq_true, Bool.not_eq_true', Bool.and_eq_false_iff, decide_eq_true_eq,
    decide_eq_false_iff_not, ge_iff_le, Char.le_def, UInt32.le_iff_toNat_le]
  have hvals : (48 : UInt32).toNat = 48 ∧ (57 : UInt32).toNat = 57 := ⟨rfl, rfl⟩
  omega

/-- **The format check accepts the digests.** -/
theorem is_sha256_hex_iff (digest : String) : is_sha256_hex digest = true ↔ IsDigest digest := by
  rw [is_sha256_hex, IsDigest, Bool.and_eq_true, beq_iff_eq, List.all_eq_true]
  refine Iff.trans (and_congr_right fun _ => forall₂_congr fun c _ => lower_hex_iff c) ?_
  refine and_congr_left fun hchars => ?_
  rw [str_len_of_one_byte]
  intro c hc
  have hle : c.val ≤ 0x7f := by
    have hvals : '9'.val.toNat = 57 ∧ 'f'.val.toNat = 102 ∧ (0x7f : UInt32).toNat = 127 :=
      ⟨rfl, rfl, rfl⟩
    have hchar := hchars c hc
    simp only [Char.le_def, UInt32.le_iff_toNat_le] at hchar ⊢
    omega
  rw [Char.utf8Size]
  exact if_pos hle

/-! ## Buckets -/

inductive Bucket where
  | Changed
  | BaseOnly
  | CandOnly
  | Unverifiable
deriving DecidableEq

def DigestPlaneDiff.keys (diff : DigestPlaneDiff) : Bucket → List String
  | .Changed => diff.changed
  | .BaseOnly => diff.base_only
  | .CandOnly => diff.cand_only
  | .Unverifiable => diff.unverifiable

/-- The digest under a key. -/
def digest_of (map : DigestMap) (k : String) : Option String := (map.get k).map Prod.snd

/-- **The bucket of a key**, from the digests under it. -/
def verdict (base cand : DigestMap) (k : String) : Option Bucket :=
  match digest_of base k, digest_of cand k with
  | some base_digest, cand_digest =>
    if !is_sha256_hex base_digest then some .Unverifiable
    else
      match cand_digest with
      | none => some .BaseOnly
      | some cand_digest =>
        if cand_digest ≠ base_digest then
          if is_sha256_hex cand_digest then some .Changed else some .Unverifiable
        else none
  | none, some _ => some .CandOnly
  | none, none => none

def map_keys (map : DigestMap) : List String := map.values.map Prod.fst

theorem mem_map_keys {map : DigestMap} {k : String} :
    k ∈ map_keys map ↔ digest_of map k ≠ none := by
  rw [map_keys, List.mem_map, digest_of, Ne, Option.map_eq_none_iff]
  constructor
  · rintro ⟨entry, hentry, rfl⟩ hnone
    rw [Store.mem_values.mp hentry] at hnone
    cases hnone
  · intro h
    obtain ⟨entry, hentry⟩ := Option.ne_none_iff_exists'.mp h
    exact ⟨entry, Store.mem_values_of_get hentry, Store.key_of_get hentry⟩

theorem keys_foldl {step : DigestPlaneDiff → String × String → DigestPlaneDiff}
    {bucket : String → Option Bucket} {entries : List (String × String)}
    (hstep : ∀ entry ∈ entries, ∀ diff b,
      (step diff entry).keys b =
        diff.keys b ++ if bucket entry.1 = some b then [entry.1] else [])
    (diff : DigestPlaneDiff) (b : Bucket) :
    (entries.foldl step diff).keys b =
      diff.keys b ++ (entries.map Prod.fst).filter fun k => bucket k = some b := by
  induction entries generalizing diff with
  | nil => rw [List.foldl_nil, List.map_nil, List.filter_nil, List.append_nil]
  | cons entry entries ih =>
    rw [List.foldl_cons, ih fun e he => hstep e (List.mem_cons_of_mem _ he),
      hstep entry List.mem_cons_self, List.map_cons, List.filter_cons, List.append_assoc]
    by_cases hbucket : bucket entry.1 = some b
    · simp only [hbucket, decide_true, if_true, List.singleton_append]
    · simp only [hbucket, decide_false, if_false, List.nil_append, Bool.false_eq_true]

/-- Put a key into a bucket. -/
def DigestPlaneDiff.push (diff : DigestPlaneDiff) (k : String) : Option Bucket → DigestPlaneDiff
  | none => diff
  | some .Changed => { diff with changed := diff.changed ++ [k] }
  | some .BaseOnly => { diff with base_only := diff.base_only ++ [k] }
  | some .CandOnly => { diff with cand_only := diff.cand_only ++ [k] }
  | some .Unverifiable => { diff with unverifiable := diff.unverifiable ++ [k] }

theorem DigestPlaneDiff.keys_push (diff : DigestPlaneDiff) (k : String) (bucket : Option Bucket)
    (b : Bucket) :
    (diff.push k bucket).keys b = diff.keys b ++ if bucket = some b then [k] else [] := by
  cases bucket with
  | none => simp [DigestPlaneDiff.push]
  | some bucket => cases bucket <;> cases b <;> simp [DigestPlaneDiff.push, DigestPlaneDiff.keys]

/-- The first pass puts a key of the baseline into its bucket. -/
theorem DigestPlaneDiff.base_entry_eq {base : DigestMap} (cand : DigestMap)
    {entry : String × String} (hentry : entry ∈ base.values) (diff : DigestPlaneDiff) :
    diff.base_entry cand entry = diff.push entry.1 (verdict base cand entry.1) := by
  have hdigest : digest_of base entry.1 = some entry.2 := by
    rw [digest_of, Store.mem_values.mp hentry, Option.map_some]
  rw [verdict, hdigest, DigestPlaneDiff.base_entry, ← digest_of]
  by_cases hhex : is_sha256_hex entry.2 = true
  · rcases digest_of cand entry.1 with _ | cand_digest
    · simp [hhex, DigestPlaneDiff.push]
    · by_cases hsame : cand_digest = entry.2
      · simp [hhex, hsame, DigestPlaneDiff.push]
      · by_cases hcand : is_sha256_hex cand_digest = true
        · simp [hhex, hsame, hcand, DigestPlaneDiff.push]
        · simp [hhex, hsame, hcand, DigestPlaneDiff.push]
  · rcases digest_of cand entry.1 with _ | cand_digest
    · simp [hhex, DigestPlaneDiff.push]
    · simp [hhex, DigestPlaneDiff.push]

/-- The bucket of a key in the second pass. -/
def cand_bucket (base : DigestMap) (k : String) : Option Bucket :=
  match digest_of base k with
  | none => some .CandOnly
  | some _ => none

/-- The second pass puts a key the baseline lacks into its bucket. -/
theorem DigestPlaneDiff.cand_key_eq (base : DigestMap) (diff : DigestPlaneDiff)
    (entry : String × String) :
    diff.cand_key base entry = diff.push entry.1 (cand_bucket base entry.1) := by
  rw [DigestPlaneDiff.cand_key, cand_bucket, digest_of]
  rcases base.get entry.1 with _ | found
  · rfl
  · rfl

/-- **The keys in a bucket** are the keys of both sides with that verdict, those of the
baseline first. -/
theorem keys_diff_digest_planes (base cand : DigestMap) (b : Bucket) :
    (diff_digest_planes base cand).keys b =
      ((map_keys base).filter fun k => verdict base cand k = some b) ++
        (map_keys cand).filter fun k => cand_bucket base k = some b := by
  have hbase := @keys_foldl (DigestPlaneDiff.base_entry cand) (verdict base cand) base.values
    (fun entry hentry diff b => by rw [diff.base_entry_eq cand hentry, diff.keys_push])
    ⟨[], [], [], []⟩ b
  have hcand := @keys_foldl (DigestPlaneDiff.cand_key base) (cand_bucket base) cand.values
    (fun entry _ diff b => by rw [diff.cand_key_eq base entry, diff.keys_push])
    (base.values.foldl (DigestPlaneDiff.base_entry cand) ⟨[], [], [], []⟩) b
  have hempty : DigestPlaneDiff.keys ⟨[], [], [], []⟩ b = [] := by
    cases b <;> rfl
  rw [diff_digest_planes, hcand, hbase, hempty, List.nil_append]
  rfl

/-- **Each key is in its bucket once, and in no other.** -/
theorem count_keys (base cand : DigestMap) (b : Bucket) (k : String) :
    ((diff_digest_planes base cand).keys b).count k =
      if verdict base cand k = some b then 1 else 0 := by
  have hcount (map : DigestMap) (bucket : String → Option Bucket) :
      ((map_keys map).filter fun k => bucket k = some b).count k =
        if digest_of map k ≠ none ∧ bucket k = some b then 1 else 0 := by
    have hnodup : ((map_keys map).filter fun k => bucket k = some b).Nodup :=
      (Store.values_keys_nodup map).filter _
    rw [hnodup.count]
    refine if_congr ?_ rfl rfl
    rw [List.mem_filter, mem_map_keys, decide_eq_true_eq]
  rw [keys_diff_digest_planes, List.count_append, hcount, hcount]
  rcases hbase : digest_of base k with _ | base_digest
  · rcases hcand : digest_of cand k with _ | cand_digest
    · simp [verdict, hbase, hcand]
    · simp [verdict, cand_bucket, hbase, hcand]
  · simp [cand_bucket, hbase]

/-- A key has no bucket exactly if it has one well-formed digest, or none, on both
sides. -/
theorem verdict_eq_none_iff {base cand : DigestMap} {k : String} :
    verdict base cand k = none ↔
      digest_of base k = digest_of cand k ∧ ∀ d, digest_of base k = some d → IsDigest d := by
  rw [verdict]
  rcases digest_of base k with _ | base_digest
  · rcases digest_of cand k with _ | cand_digest
    · simp
    · simp
  · by_cases hhex : is_sha256_hex base_digest = true
    · have hdigest : IsDigest base_digest := (is_sha256_hex_iff _).mp hhex
      rcases digest_of cand k with _ | cand_digest
      · simp [hhex]
      · by_cases hsame : cand_digest = base_digest
        · simp [hhex, hsame, hdigest]
        · by_cases hcand : is_sha256_hex cand_digest = true
          · simp [hhex, hsame, hcand, Ne.symm hsame]
          · simp [hhex, hsame, hcand, Ne.symm hsame]
    · have hdigest : ¬ IsDigest base_digest := fun h => hhex ((is_sha256_hex_iff _).mpr h)
      simp [hhex, hdigest]

end Evidence.Verify
