/-
`corpus/ingest/markdown/anchors.rs` -- the anchors of a document's headings, with the
counter of `dedup` as the `u32` it is.

`dedup` claims a slug, or the first free one of `slug-2`, `slug-3`, … and its loop has
no bound. The counter wraps past `u32::MAX` in the release build, so the loop runs
forever when the slug and all `2^32` numbered slugs are used (`claims_iff`), and a
document with that many headings of one title reaches such a state
(`same_titles_exhaust`). In every other state a generated anchor is new, an explicit one
is new or diagnosed, and the anchors of a document without a repeated explicit id are
pairwise distinct (`Read.anchors_nodup`).

`dedup_anchor` counts in `ℕ`. It is the same loop as long as the used anchors are fewer
than the numbers (`Processed.of_process_heading`).
-/
import Evidence.Lib.Counter
import Evidence.Corpus.Ingest.Markdown.Adapter

set_option autoImplicit false

namespace Evidence.Corpus.Markdown

open CounterSearch

/-! ## The loop -/

/-- The candidate of one round: the slug, a hyphen and the counter. -/
def numbered (slug : String) (counter : UInt32) : String :=
  slug ++ "-" ++ decimal counter.toNat

/-- What `dedup` returns, when it returns. -/
inductive Claims (used : List String) (slug : String) : String → Prop
  /-- The slug itself is free. -/
  | bare (hslug : slug ∉ used) : Claims used slug slug
  /-- The loop, from the counter `2`. -/
  | counted {counter : UInt32} (hslug : slug ∈ used)
      (hloop : Finds (fun n => numbered slug n ∉ used) 2 counter) :
      Claims used slug (numbered slug counter)

def AllUsed (used : List String) (slug : String) : Prop :=
  slug ∈ used ∧ ∀ counter : UInt32, numbered slug counter ∈ used

section

variable {used : List String} {slug anchor : String}

/-- Numbers tell candidates apart. -/
theorem numbered_inj {m n : UInt32} : numbered slug m = numbered slug n ↔ m = n := by
  constructor
  · intro h
    have htoList := congrArg String.toList h
    simp only [numbered, String.toList_append, List.append_cancel_left_eq] at htoList
    exact UInt32.toNat_inj.mp (decimal_inj.mp (String.toList_inj.mp htoList))
  · exact congrArg (numbered slug)

/-- A candidate is longer than the slug. -/
theorem numbered_ne (slug : String) (counter : UInt32) : numbered slug counter ≠ slug := by
  intro h
  have hlength := congrArg (fun text => (String.toList text).length) h
  simp only [numbered, String.toList_append, List.length_append] at hlength
  have hhyphen : "-".toList.length = 1 := rfl
  omega

theorem Claims.fresh (h : Claims used slug anchor) : anchor ∉ used := by
  cases h with
  | bare hslug => exact hslug
  | counted _ hloop => exact hloop.holds

/-- **`dedup` returns if and only if the slug or one of its numbers is free.** -/
theorem claims_iff : (∃ anchor, Claims used slug anchor) ↔ ¬ AllUsed used slug := by
  constructor
  · rintro ⟨anchor, h⟩ ⟨hused, hall⟩
    cases h with
    | bare hslug => exact hslug hused
    | counted _ hloop => exact hloop.holds (hall _)
  · intro hfree
    by_cases hslug : slug ∈ used
    · have hnumber : ∃ counter, numbered slug counter ∉ used := by
        by_contra hnone
        push Not at hnone
        exact hfree ⟨hslug, hnone⟩
      obtain ⟨counter, hloop⟩ := finds_iff.mpr hnumber
      exact ⟨_, .counted hslug hloop⟩
    · exact ⟨slug, .bare hslug⟩

/-- The slug and its numbers, one by one. -/
def candidates (slug : String) : List String :=
  slug :: (List.range (2 ^ 32)).map fun n => numbered slug (UInt32.ofNat n)

theorem candidates_length (slug : String) : (candidates slug).length = 2 ^ 32 + 1 := by
  rw [candidates, List.length_cons, List.length_map, List.length_range]

theorem mem_candidates {text : String} :
    text ∈ candidates slug ↔ text = slug ∨ ∃ counter, text = numbered slug counter := by
  rw [candidates, List.mem_cons, List.mem_map]
  refine or_congr Iff.rfl ⟨?_, ?_⟩
  · rintro ⟨n, _, rfl⟩
    exact ⟨UInt32.ofNat n, rfl⟩
  · rintro ⟨counter, rfl⟩
    refine ⟨counter.toNat, List.mem_range.mpr counter.toNat_lt, ?_⟩
    rw [UInt32.ofNat_toNat]

theorem candidates_nodup (slug : String) : (candidates slug).Nodup := by
  refine List.nodup_cons.mpr ⟨?_, ?_⟩
  · intro hmem
    obtain ⟨n, _, hn⟩ := List.mem_map.mp hmem
    exact numbered_ne slug _ hn
  · refine List.Nodup.map_on ?_ List.nodup_range
    intro m hm n hn h
    have hsame := congrArg UInt32.toNat (numbered_inj.mp h)
    rwa [UInt32.toNat_ofNat_of_lt' (List.mem_range.mp hm),
      UInt32.toNat_ofNat_of_lt' (List.mem_range.mp hn)] at hsame

theorem AllUsed.length_le (h : AllUsed used slug) : 2 ^ 32 + 1 ≤ used.length := by
  rw [← candidates_length slug]
  refine (List.subperm_of_subset (candidates_nodup slug) fun text htext => ?_).length_le
  rcases mem_candidates.mp htext with rfl | ⟨counter, rfl⟩
  · exact h.1
  · exact h.2 counter

/-- Distinct claims of one slug exhaust it when they are as many. -/
theorem all_used_of_length (hnodup : used.Nodup) (hsub : ∀ text ∈ used, text ∈ candidates slug)
    (hlength : used.length = 2 ^ 32 + 1) : AllUsed used slug := by
  have hperm := (List.subperm_of_subset hnodup hsub).perm_of_length_le
    (by rw [hlength, candidates_length])
  refine ⟨hperm.mem_iff.mpr (mem_candidates.mpr (.inl rfl)), fun counter => ?_⟩
  exact hperm.mem_iff.mpr (mem_candidates.mpr (.inr ⟨counter, rfl⟩))

end

/-! ## Headings in document order -/

section

variable [UnicodeTables] [StrDebug]

/-- A heading as it is closed: its assembled text and its byte range. -/
structure RawHeading where
  raw : String
  range : ByteRange
deriving DecidableEq

/-- The slug of a heading that has no explicit id. -/
def RawHeading.slug (heading : RawHeading) : String := slugify (normalize_prose heading.raw)

/-- The heading has a valid explicit id. -/
def RawHeading.IsExplicit (heading : RawHeading) : Prop :=
  ∃ label_prefix id, extract_explicit_id heading.raw = .Valid label_prefix id

/-- One return of `process_heading`: the label text, the anchor, and the state after. -/
inductive Processed (heading : RawHeading) (a : Adapter) : String → String → Adapter → Prop
  /-- No id suffix: the slug is claimed. -/
  | plain {anchor : String} (hid : extract_explicit_id heading.raw = .None)
      (hclaim : Claims a.used_anchors heading.slug anchor) :
      Processed heading a (normalize_prose heading.raw) anchor
        { a with used_anchors := anchor :: a.used_anchors }
  /-- The explicit id is new. -/
  | explicit { label_prefix id : String}
      (hid : extract_explicit_id heading.raw = .Valid label_prefix id)
      (hfree : id ∉ a.used_anchors) :
      Processed heading a (normalize_prose label_prefix) id
        { a with used_anchors := id :: a.used_anchors }
  /-- The explicit id is used already. -/
  | repeated { label_prefix id : String}
      (hid : extract_explicit_id heading.raw = .Valid label_prefix id)
      (hused : id ∈ a.used_anchors) :
      Processed heading a (normalize_prose label_prefix) id
        (a.diagnose (.DuplicateAnchor id) heading.range
          ("explicit heading anchor " ++ str_debug id ++ " is claimed more than once"))
  /-- The suffix is no valid id: it is diagnosed, and the slug is claimed. -/
  | malformed {bad anchor : String} (hid : extract_explicit_id heading.raw = .Malformed bad)
      (hclaim : Claims a.used_anchors heading.slug anchor) :
      Processed heading a (normalize_prose heading.raw) anchor
        { a.diagnose (.MalformedExplicitId bad) heading.range
            ("trailing heading id \x7b#" ++ bad ++ "\x7d is not a valid explicit id") with
          used_anchors := anchor :: a.used_anchors }

/-- The headings of a document are processed in order: their anchors, and the state after. -/
inductive Read : List RawHeading → List String → Adapter → Prop
  | nil : Read [] [] .new
  | snoc {headings : List RawHeading} {anchors : List String} {a b : Adapter}
      {heading : RawHeading} {label anchor : String} (hread : Read headings anchors a)
      (hstep : Processed heading a label anchor b) :
      Read (headings ++ [heading]) (anchors ++ [anchor]) b

/-- A heading whose anchor is generated finds its slug and all the numbers used. -/
def Exhausted (heading : RawHeading) (a : Adapter) : Prop :=
  ¬ heading.IsExplicit ∧ AllUsed a.used_anchors heading.slug

/-- No explicit anchor was diagnosed as a repeated one. -/
def Undiagnosed (a : Adapter) : Prop :=
  ∀ diagnostic ∈ a.diagnostics, ∀ anchor, diagnostic.kind ≠ .DuplicateAnchor anchor

variable {heading : RawHeading} {headings : List RawHeading} {anchors : List String}
  {a b : Adapter} {label anchor : String}

/-- **`process_heading` returns unless the heading is exhausted.** -/
theorem processed_iff : (∃ label anchor b, Processed heading a label anchor b) ↔
    ¬ Exhausted heading a := by
  constructor
  · rintro ⟨label, anchor, b, h⟩ ⟨hplain, hall⟩
    cases h with
    | plain _ hclaim => exact claims_iff.mp ⟨_, hclaim⟩ hall
    | explicit hid _ => exact hplain ⟨_, _, hid⟩
    | repeated hid _ => exact hplain ⟨_, _, hid⟩
    | malformed _ hclaim => exact claims_iff.mp ⟨_, hclaim⟩ hall
  · intro hfree
    cases hid : extract_explicit_id heading.raw with
    | None =>
      have hplain : ¬ heading.IsExplicit := by
        rintro ⟨ label_prefix, id, hvalid⟩
        rw [hid] at hvalid
        cases hvalid
      obtain ⟨anchor, hclaim⟩ := claims_iff.mpr fun hall => hfree ⟨hplain, hall⟩
      exact ⟨_, _, _, .plain hid hclaim⟩
    | Valid label_prefix id =>
      by_cases hused : id ∈ a.used_anchors
      · exact ⟨_, _, _, .repeated hid hused⟩
      · exact ⟨_, _, _, .explicit hid hused⟩
    | Malformed bad =>
      have hplain : ¬ heading.IsExplicit := by
        rintro ⟨ label_prefix, id, hvalid⟩
        rw [hid] at hvalid
        cases hvalid
      obtain ⟨anchor, hclaim⟩ := claims_iff.mpr fun hall => hfree ⟨hplain, hall⟩
      exact ⟨_, _, _, .malformed hid hclaim⟩

/-- After a step the used anchors are the earlier ones and the new one. -/
theorem Processed.mem_used (h : Processed heading a label anchor b) (text : String) :
    text ∈ b.used_anchors ↔ text = anchor ∨ text ∈ a.used_anchors := by
  cases h with
  | plain | explicit | malformed => exact List.mem_cons
  | repeated _ hused =>
    refine ⟨.inr, fun htext => ?_⟩
    rcases htext with rfl | htext
    · exact hused
    · exact htext

/-- Diagnostics are only added. -/
theorem Processed.undiagnosed (h : Processed heading a label anchor b) (hb : Undiagnosed b) :
    Undiagnosed a := by
  intro diagnostic hdiagnostic
  cases h with
  | plain | explicit => exact hb diagnostic hdiagnostic
  | repeated | malformed => exact hb diagnostic (List.mem_append_left _ hdiagnostic)

/-- **A step whose explicit id is not diagnosed has a new anchor.** -/
theorem Processed.fresh (h : Processed heading a label anchor b) (hb : Undiagnosed b) :
    anchor ∉ a.used_anchors := by
  cases h with
  | plain _ hclaim => exact hclaim.fresh
  | explicit _ hfree => exact hfree
  | repeated _ _ =>
    exact absurd rfl (hb _ (List.mem_append_right _ List.mem_cons_self) anchor)
  | malformed _ hclaim => exact hclaim.fresh

theorem Read.mem_used (h : Read headings anchors a) (text : String) :
    text ∈ a.used_anchors ↔ text ∈ anchors := by
  induction h with
  | nil => rfl
  | snoc _ hstep ih =>
    rw [hstep.mem_used, ih, List.mem_append, List.mem_singleton]
    exact or_comm

/-- **Without a repeated explicit anchor, the anchors are pairwise distinct.** The
induction is on the run: what is claimed is new, and what was claimed stays used. -/
theorem Read.anchors_nodup (h : Read headings anchors a) (ha : Undiagnosed a) :
    anchors.Nodup := by
  induction h with
  | nil => exact List.nodup_nil
  | snoc hread hstep ih =>
    refine List.nodup_append'.mpr ⟨ih (hstep.undiagnosed ha), List.nodup_singleton _, ?_⟩
    intro text htext hanchor
    rw [List.mem_singleton.mp hanchor] at htext
    exact hstep.fresh ha ((hread.mem_used _).mpr htext)

/-- What the headings of a document are promised: each gets its anchor, and the anchors
are pairwise distinct when no repeated one is diagnosed. -/
def AnchorsHold (headings : List RawHeading) : Prop :=
  (∀ before heading after, headings = before ++ heading :: after →
    ∀ anchors a, Read before anchors a → ∃ label anchor b, Processed heading a label anchor b) ∧
  ∀ anchors a, Read headings anchors a → Undiagnosed a → anchors.Nodup

/-- **Every heading gets its anchor, and the anchors are distinct, if and only if no
heading is exhausted.** A heading is so in a state where its anchor is generated and the
slug and all `2^32` numbered slugs are used. -/
theorem anchors_hold_iff (headings : List RawHeading) :
    AnchorsHold headings ↔
      ∀ before heading after, headings = before ++ heading :: after →
        ∀ anchors a, Read before anchors a → ¬ Exhausted heading a := by
  constructor
  · rintro ⟨hends, _⟩ before heading after hsplit anchors a hread
    exact processed_iff.mp (hends before heading after hsplit anchors a hread)
  · intro hfree
    refine ⟨fun before heading after hsplit anchors a hread => ?_, fun anchors a hread ha => ?_⟩
    · exact processed_iff.mpr (hfree before heading after hsplit anchors a hread)
    · exact hread.anchors_nodup ha

/-- A run uses at most as many anchors as it has headings. -/
theorem Read.length_used_le (h : Read headings anchors a) :
    a.used_anchors.length ≤ headings.length := by
  induction h with
  | nil => exact Nat.zero_le _
  | snoc _ hstep ih =>
    rw [List.length_append, List.length_singleton]
    cases hstep with
    | plain | explicit | malformed => exact Nat.succ_le_succ ih
    | repeated => exact Nat.le_succ_of_le ih

/-- **A document of at most `2^32 + 1` headings is served**, whatever its titles and
ids are. -/
theorem anchors_hold_of_length (hlength : headings.length ≤ 2 ^ 32 + 1) :
    AnchorsHold headings := by
  refine ⟨fun before heading after hsplit anchors a hread => processed_iff.mpr ?_,
    fun anchors a hread ha => hread.anchors_nodup ha⟩
  rintro ⟨_, hall⟩
  have hused := hread.length_used_le
  have hcandidates := hall.length_le
  rw [hsplit, List.length_append, List.length_cons] at hlength
  omega

/-! ## One title too often -/

theorem same_titles_used (hplain : ¬ heading.IsExplicit) {n : ℕ}
    (h : Read (List.replicate n heading) anchors a) :
    a.used_anchors.Nodup ∧ a.used_anchors.length = n ∧
      ∀ text ∈ a.used_anchors, text ∈ candidates heading.slug := by
  generalize hheadings : List.replicate n heading = headings at h
  induction h generalizing n with
  | nil =>
    rw [List.replicate_eq_nil_iff] at hheadings
    subst hheadings
    exact ⟨List.nodup_nil, rfl, fun text htext => absurd htext List.not_mem_nil⟩
  | @snoc headings anchors a b last label anchor _ hstep ih =>
    cases n with
    | zero =>
      have hne := List.append_ne_nil_of_right_ne_nil headings (List.cons_ne_nil last [])
      exact absurd hheadings.symm hne
    | succ n =>
      rw [List.replicate_succ'] at hheadings
      obtain ⟨hsame, hlast⟩ := List.append_inj' hheadings rfl
      rw [List.cons.injEq] at hlast
      obtain ⟨hnodup, hlength, hsub⟩ := ih hsame
      have hclaim : Claims a.used_anchors heading.slug anchor ∧
          b.used_anchors = anchor :: a.used_anchors := by
        rw [hlast.1] at hplain ⊢
        cases hstep with
        | plain _ hclaim => exact ⟨hclaim, rfl⟩
        | explicit hid _ => exact absurd ⟨_, _, hid⟩ hplain
        | repeated hid _ => exact absurd ⟨_, _, hid⟩ hplain
        | malformed _ hclaim => exact ⟨hclaim, rfl⟩
      obtain ⟨hclaim, hb⟩ := hclaim
      rw [hb]
      refine ⟨List.nodup_cons.mpr ⟨hclaim.fresh, hnodup⟩, by rw [List.length_cons, hlength], ?_⟩
      refine List.forall_mem_cons.mpr ⟨mem_candidates.mpr ?_, hsub⟩
      cases hclaim with
      | bare => exact .inl rfl
      | counted => exact .inr ⟨_, rfl⟩

/-- **After `2^32 + 1` headings of one title the next one is exhausted.** -/
theorem same_titles_exhaust (hplain : ¬ heading.IsExplicit)
    (h : Read (List.replicate (2 ^ 32 + 1) heading) anchors a) : Exhausted heading a := by
  obtain ⟨hnodup, hlength, hsub⟩ := same_titles_used hplain h
  exact ⟨hplain, all_used_of_length hnodup hsub hlength⟩

theorem AnchorsHold.read (h : AnchorsHold headings) : ∃ anchors a, Read headings anchors a := by
  induction headings using List.reverseRecOn with
  | nil => exact ⟨_, _, .nil⟩
  | append_singleton before heading ih =>
    have hbefore : AnchorsHold before := by
      refine ⟨fun front next after hsplit => ?_, fun _ _ hread => hread.anchors_nodup⟩
      exact h.1 front next (after ++ [heading]) (by rw [hsplit, List.append_assoc]; rfl)
    obtain ⟨anchors, a, hread⟩ := ih hbefore
    obtain ⟨label, anchor, b, hstep⟩ := h.1 before heading [] rfl anchors a hread
    exact ⟨_, _, hread.snoc hstep⟩

/-- A document with one title too often is not served. -/
theorem not_anchors_hold_replicate (hplain : ¬ heading.IsExplicit) :
    ¬ AnchorsHold (List.replicate (2 ^ 32 + 2) heading) := by
  intro h
  have hearlier : AnchorsHold (List.replicate (2 ^ 32 + 1) heading) :=
    anchors_hold_of_length (by rw [List.length_replicate])
  obtain ⟨anchors, a, hread⟩ := hearlier.read
  refine processed_iff.mp (h.1 (List.replicate (2 ^ 32 + 1) heading) heading [] ?_ anchors a hread)
    (same_titles_exhaust hplain hread)
  exact List.replicate_succ' (n := 2 ^ 32 + 1)

end

/-- A heading without an id suffix. -/
def sample_heading : RawHeading := ⟨"A", (0, 3)⟩

/-- **One title too often.** The last of `2^32 + 2` headings of one title finds the slug
and all its numbers used, and the loop of `dedup` does not end. -/
theorem repeated_title_never_ends :
    ¬ @AnchorsHold ascii_tables plain_debug (List.replicate (2 ^ 32 + 2) sample_heading) := by
  let _ := ascii_tables
  let _ := plain_debug
  refine not_anchors_hold_replicate ?_
  rintro ⟨ label_prefix, id, hvalid⟩
  have hnone : extract_explicit_id sample_heading.raw = .None := by decide
  rw [hnone] at hvalid
  cases hvalid

/-! ## Counting in `ℕ` -/

section

variable {used : List String} {slug : String}

/-- A candidate of the count in `ℕ`, while the count fits the counter. -/
theorem numbered_ofNat (slug : String) {n : ℕ} (hn : n < 2 ^ 32) :
    slug ++ "-" ++ decimal n = numbered slug (UInt32.ofNat n) := by
  rw [numbered, UInt32.toNat_ofNat_of_lt' hn]

/-- Some number is free among the first ones, one more than there are used anchors. -/
theorem free_number (hlength : used.length + 2 < 2 ^ 32) :
    ∃ n, 2 ≤ n ∧ n ≤ used.length + 2 ∧ numbered slug (UInt32.ofNat n) ∉ used := by
  by_contra hnone
  push Not at hnone
  have hnodup : ((List.range (used.length + 1)).map fun n =>
      numbered slug (UInt32.ofNat (n + 2))).Nodup := by
    refine List.Nodup.map_on ?_ List.nodup_range
    intro m hm n hn h
    have hm := List.mem_range.mp hm
    have hn := List.mem_range.mp hn
    have hsame := congrArg UInt32.toNat (numbered_inj.mp h)
    rw [UInt32.toNat_ofNat_of_lt' (show m + 2 < 2 ^ 32 by omega),
      UInt32.toNat_ofNat_of_lt' (show n + 2 < 2 ^ 32 by omega)] at hsame
    omega
  have hsub : ∀ text ∈ (List.range (used.length + 1)).map fun n =>
      numbered slug (UInt32.ofNat (n + 2)), text ∈ used := by
    intro text htext
    obtain ⟨n, hn, rfl⟩ := List.mem_map.mp htext
    have hn := List.mem_range.mp hn
    exact hnone (n + 2) (by omega) (by omega)
  have hle := (List.subperm_of_subset hnodup hsub).length_le
  rw [List.length_map, List.length_range] at hle
  omega

theorem first_unused_finds (fuel : ℕ) {counter n : ℕ} (hfits : counter + fuel < 2 ^ 32)
    (hle : counter ≤ n) (hn : n ≤ counter + fuel)
    (hfree : numbered slug (UInt32.ofNat n) ∉ used) :
    ∃ m, Finds (fun m => numbered slug m ∉ used) (UInt32.ofNat counter) m ∧
      first_unused used slug fuel counter = numbered slug m := by
  induction fuel generalizing counter with
  | zero =>
    have hcounter : n = counter := by omega
    rw [hcounter] at hfree
    exact ⟨_, .here hfree, numbered_ofNat slug (by omega)⟩
  | succ fuel ih =>
    simp only [first_unused, numbered_ofNat slug (show counter < 2 ^ 32 by omega)]
    by_cases hused : numbered slug (UInt32.ofNat counter) ∈ used
    · have hne : counter ≠ n := fun heq => hfree (heq ▸ hused)
      have hfits' : counter + 1 + fuel < 2 ^ 32 := by omega
      obtain ⟨m, hm, hfirst⟩ := ih hfits' (by omega) (by omega)
      rw [if_pos hused]
      refine ⟨m, .next (fun hfree => hfree hused) ?_, hfirst⟩
      rw [UInt32.ofNat_add] at hm
      exact hm
    · rw [if_neg hused]
      exact ⟨_, .here hused, rfl⟩

/-- **Counting in `ℕ` claims the same anchor**, while the used anchors are fewer than the
numbers of the counter. -/
theorem claims_dedup_anchor (slug : String) (hlength : used.length + 2 < 2 ^ 32) :
    Claims used slug (dedup_anchor used slug).1 ∧
      (dedup_anchor used slug).2 = (dedup_anchor used slug).1 :: used := by
  rw [dedup_anchor]
  by_cases hslug : slug ∈ used
  · rw [if_pos hslug]
    obtain ⟨n, hle, hn, hfree⟩ := free_number hlength
    have hfits : 2 + used.length < 2 ^ 32 := by omega
    obtain ⟨m, hm, hfirst⟩ := first_unused_finds used.length hfits hle (by omega) hfree
    refine ⟨?_, rfl⟩
    rw [hfirst]
    exact .counted hslug hm
  · rw [if_neg hslug]
    exact ⟨.bare hslug, rfl⟩

/-- **`process_heading` is one processed heading**, under the same bound. -/
theorem Processed.of_process_heading [UnicodeTables] [StrDebug] {heading : RawHeading}
    {a : Adapter} (hlength : a.used_anchors.length + 2 < 2 ^ 32) :
    Processed heading a (process_heading heading.raw heading.range a).1
      (process_heading heading.raw heading.range a).2.1
      (process_heading heading.raw heading.range a).2.2 := by
  obtain ⟨hclaim, hused⟩ := claims_dedup_anchor heading.slug hlength
  unfold process_heading
  cases hid : extract_explicit_id heading.raw with
  | None =>
    have hstep := Processed.plain hid hclaim
    rw [← hused] at hstep
    exact hstep
  | Valid label_prefix id =>
    by_cases hclaimed : id ∈ a.used_anchors
    · simp only [if_pos hclaimed]
      exact .repeated hid hclaimed
    · simp only [if_neg hclaimed]
      exact .explicit hid hclaimed
  | Malformed bad =>
    have hstep := Processed.malformed hid hclaim
    rw [← hused] at hstep
    exact hstep

end

end Evidence.Corpus.Markdown
