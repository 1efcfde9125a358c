/-
The selectors of a test, one by one and together -- `requirement_report/builders.rs` and
`multi_selector.rs`.

A test of one selector and a test of several take different paths, over the same rule for
what a selector matches. The two agree: the status of several selectors is the worst of
the statuses they have alone (`multi_selector_status_fold`), a gap being worse than a
skip and a skip worse than a pass.

An ambiguous selector is reported with the keys it matches, to be replaced by one of them.
A key matches itself, and every key that has it at its end behind a `::`. So the repair
works exactly when no outcome key has one of the listed keys at its end in this way
(`selectors_coherent_iff`). The reading of the last segment from the right makes one
exception: a text without `::` that begins with a colon is never a last segment.
-/
import Evidence.Trace.RequirementReport

set_option autoImplicit false

namespace Evidence.Trace

open Evidence.Bundle (Outcomes TestOutcome)

/-! ## The last segment of a key -/

/-- What follows the last occurrence of a pattern. -/
def last_match (pattern text : List Char) : Option (List Char) :=
  (text.tails.filterMap (strip_text pattern)).getLast?

theorem after_last_eq (pattern text : List Char) :
    after_last pattern text = (last_match pattern text).getD text := rfl

/-- The last occurrence is in the tail, or there is none there and it is at the head. -/
theorem last_match_cons (pattern : List Char) (c : Char) (text : List Char) :
    last_match pattern (c :: text) =
      (last_match pattern text).or (strip_text pattern (c :: text)) := by
  rw [last_match, last_match, List.tails, List.filterMap_cons]
  cases strip_text pattern (c :: text) with
  | none => rw [Option.or_none]
  | some rest =>
    rw [List.getLast?_cons]
    cases (text.tails.filterMap (strip_text pattern)).getLast? <;> rfl

theorem strip_colons_iff {text rest : List Char} :
    strip_text [':', ':'] text = some rest ↔ text = ':' :: ':' :: rest := by
  constructor
  · intro h
    unfold strip_text at h
    split_ifs at h with hpre
    obtain ⟨tail, rfl⟩ := List.isPrefixOf_iff_prefix.mp hpre
    rw [← Option.some.inj h]
    rfl
  · rintro rfl
    exact strip_text_append [':', ':'] rest

/-- **What follows the last colons**: they are in front of it, and it has none itself and does
not begin with one. -/
theorem last_match_some {text rest : List Char} (h : last_match [':', ':'] text = some rest) :
    (∃ before, text = before ++ ':' :: ':' :: rest) ∧ last_match [':', ':'] rest = none ∧
      rest.head? ≠ some ':' := by
  induction text with
  | nil => cases h
  | cons c text ih =>
    rw [last_match_cons] at h
    cases hlater : last_match [':', ':'] text with
    | some rest' =>
      rw [hlater, Option.some_or] at h
      rw [hlater] at ih
      obtain ⟨⟨before, hbefore⟩, hrest⟩ := ih h
      exact ⟨⟨c :: before, by rw [hbefore, List.cons_append]⟩, hrest⟩
    | none =>
      rw [hlater, Option.none_or, strip_colons_iff] at h
      obtain ⟨rfl, rfl⟩ := List.cons.inj h
      rw [last_match_cons, Option.or_eq_none_iff] at hlater
      refine ⟨⟨[], rfl⟩, hlater.1, ?_⟩
      intro hhead
      cases rest with
      | nil => cases hhead
      | cons d rest =>
        cases hhead
        have hstrip : strip_text [':', ':'] (':' :: ':' :: rest) = some rest :=
          strip_colons_iff.mpr rfl
        rw [hlater.2] at hstrip
        cases hstrip

/-- A text without colons of its own is what follows the last ones. -/
theorem last_match_append {rest : List Char} (before : List Char)
    (hnone : last_match [':', ':'] rest = none) (hhead : rest.head? ≠ some ':') :
    last_match [':', ':'] (before ++ ':' :: ':' :: rest) = some rest := by
  induction before with
  | nil =>
    have hsecond : strip_text [':', ':'] (':' :: rest) = none := by
      rw [Option.eq_none_iff_forall_ne_some]
      intro tail htail
      rw [strip_colons_iff] at htail
      rw [(List.cons.inj htail).2] at hhead
      exact hhead rfl
    rw [List.nil_append, last_match_cons, last_match_cons, hnone, hsecond]
    exact strip_colons_iff.mpr rfl
  | cons c before ih =>
    rw [List.cons_append, last_match_cons, ih, Option.some_or]

theorem split_once_isSome_iff (text : List Char) :
    (split_once [':', ':'] text).isSome = true ↔ last_match [':', ':'] text ≠ none := by
  induction text with
  | nil => simp [split_once, last_match, strip_text]
  | cons c text ih =>
    rw [last_match_cons, Ne, Option.or_eq_none_iff, not_and_or, ← Ne, ← ih, split_once]
    split_ifs with hpre
    · simp only [Option.isSome_some, true_iff]
      right
      rw [strip_text, if_pos hpre]
      exact Option.some_ne_none _
    · rw [Option.isSome_map, strip_text, if_neg hpre]
      simp only [not_true_eq_false, or_false]

/-- A text that can be the last segment of another one, or has colons itself. -/
def ends_a_path (selector : List Char) : Bool :=
  (split_once [':', ':'] selector).isSome || selector.head? != some ':'

/-- **What a key ends in**: the key itself, or what stands behind colons in it. -/
theorem ends_with_fn_iff {key selector : String} :
    ends_with_fn key selector = true ↔
      (key = selector ∧
          ((split_once [':', ':'] selector.toList).isSome = true ∨
            last_match [':', ':'] key.toList = none)) ∨
        ∃ before, key.toList = before ++ ':' :: ':' :: selector.toList ∧
          ends_a_path selector.toList = true := by
  have hcolons : "::".toList = [':', ':'] := rfl
  unfold ends_with_fn ends_a_path
  rw [hcolons]
  cases hsplit : (split_once [':', ':'] selector.toList).isSome with
  | true =>
    simp only [if_true, Bool.or_eq_true, beq_iff_eq, List.isSuffixOf_iff_suffix, true_or, and_true,
      Bool.true_or, String.toList_append, hcolons]
    refine or_congr_right ?_
    constructor
    · rintro ⟨before, hbefore⟩
      exact ⟨before, hbefore.symm⟩
    · rintro ⟨before, hbefore⟩
      exact ⟨before, hbefore.symm⟩
  | false =>
    have hnone : last_match [':', ':'] selector.toList = none := by
      by_contra hsome
      rw [(split_once_isSome_iff _).mpr hsome] at hsplit
      cases hsplit
    simp only [Bool.false_eq_true, if_false, beq_iff_eq, false_or, Bool.false_or, bne_iff_ne,
      after_last_eq]
    constructor
    · intro h
      cases hkey : last_match [':', ':'] key.toList with
      | none =>
        rw [hkey, Option.getD_none] at h
        exact .inl ⟨String.toList_inj.mp h, rfl⟩
      | some rest =>
        rw [hkey, Option.getD_some] at h
        obtain ⟨⟨before, hbefore⟩, -, hhead⟩ := last_match_some hkey
        rw [h] at hbefore hhead
        exact .inr ⟨before, hbefore, hhead⟩
    · rintro (⟨rfl, hkey⟩ | ⟨before, hbefore, hhead⟩)
      · rw [hkey, Option.getD_none]
      · rw [hbefore, last_match_append before hnone hhead, Option.getD_some]

/-! ## The worst status -/

def worse : RequirementStatus → RequirementStatus → RequirementStatus
  | .Gap, _ => .Gap
  | _, .Gap => .Gap
  | .Skip, _ => .Skip
  | _, .Skip => .Skip
  | .Pass, .Pass => .Pass

def worst (statuses : List RequirementStatus) : RequirementStatus := statuses.foldr worse .Pass

theorem worse_eq_gap {s t : RequirementStatus} : worse s t = .Gap ↔ s = .Gap ∨ t = .Gap := by
  cases s <;> cases t <;> decide

theorem worse_eq_pass {s t : RequirementStatus} : worse s t = .Pass ↔ s = .Pass ∧ t = .Pass := by
  cases s <;> cases t <;> decide

theorem worst_eq_gap {statuses : List RequirementStatus} :
    worst statuses = .Gap ↔ .Gap ∈ statuses := by
  induction statuses with
  | nil => simp [worst]
  | cons s statuses ih =>
    rw [worst, List.foldr_cons, worse_eq_gap, List.mem_cons, ← ih, eq_comm]
    rfl

theorem worst_eq_pass {statuses : List RequirementStatus} :
    worst statuses = .Pass ↔ ∀ s ∈ statuses, s = .Pass := by
  induction statuses with
  | nil => simp [worst]
  | cons s statuses ih =>
    rw [worst, List.foldr_cons, worse_eq_pass, List.forall_mem_cons, ← ih]
    rfl

theorem status_ext {s t : RequirementStatus} (hgap : s = .Gap ↔ t = .Gap)
    (hpass : s = .Pass ↔ t = .Pass) : s = t := by
  revert hgap hpass
  cases s <;> cases t <;> decide

/-! ## One selector -/

def matched_status : List (String × TestOutcome) → RequirementStatus
  | [(_, .Passed)] => .Pass
  | [(_, .Ignored)] => .Skip
  | _ => .Gap

def selector_status (outcomes : Outcomes) (selector : String) : RequirementStatus :=
  matched_status (matching_outcomes outcomes selector)

theorem single_selector_status_eq (t : ReportTest) (selector : String) (outcomes : Outcomes) :
    (single_selector_status t selector outcomes).1.status = selector_status outcomes selector := by
  unfold single_selector_status selector_status
  split
  · next heq => rw [heq]; rfl
  · next only heq =>
    rw [heq]
    obtain ⟨key, outcome⟩ := only
    cases outcome <;> rfl
  · next hnone hone =>
    cases hmatches : matching_outcomes outcomes selector with
    | nil => exact absurd hmatches hnone
    | cons first rest =>
      cases rest with
      | nil => exact absurd hmatches (hone first)
      | cons second rest =>
        obtain ⟨key, outcome⟩ := first
        cases outcome <;> rfl

/-! ## Several selectors -/

/-- What filing one selector changes: the lists of what is not passed grow with it. -/
theorem SelectorSummary.add_status (outcomes : Outcomes) (summary : SelectorSummary)
    (sel : String) :
    ((summary.add outcomes sel).failed = [] ∧ (summary.add outcomes sel).ambiguous = [] ∧
        (summary.add outcomes sel).unmatched = [] ↔
      (summary.failed = [] ∧ summary.ambiguous = [] ∧ summary.unmatched = []) ∧
        selector_status outcomes sel ≠ .Gap) ∧
    ((summary.add outcomes sel).ignored = [] ↔
      summary.ignored = [] ∧ selector_status outcomes sel ≠ .Skip) := by
  unfold SelectorSummary.add selector_status
  cases matching_outcomes outcomes sel with
  | nil => simp [matched_status]
  | cons first rest =>
    cases rest with
    | nil =>
      obtain ⟨key, outcome⟩ := first
      cases outcome <;> simp [matched_status]
    | cons second rest => simp [matched_status]

theorem collect_summary_status (outcomes : Outcomes) (selectors : List String)
    (summary : SelectorSummary) :
    let result := selectors.foldl (SelectorSummary.add outcomes) summary
    (result.failed = [] ∧ result.ambiguous = [] ∧ result.unmatched = [] ↔
      (summary.failed = [] ∧ summary.ambiguous = [] ∧ summary.unmatched = []) ∧
        ∀ sel ∈ selectors, selector_status outcomes sel ≠ .Gap) ∧
    (result.ignored = [] ↔
      summary.ignored = [] ∧ ∀ sel ∈ selectors, selector_status outcomes sel ≠ .Skip) := by
  induction selectors generalizing summary with
  | nil => simp
  | cons sel selectors ih =>
    obtain ⟨hgap, hskip⟩ := summary.add_status outcomes sel
    obtain ⟨hgaps, hskips⟩ := ih (summary.add outcomes sel)
    simp only [List.foldl_cons, List.forall_mem_cons]
    exact ⟨by rw [hgaps, hgap, and_assoc], by rw [hskips, hskip, and_assoc]⟩

/-- **Several selectors have the worst status of each.** -/
theorem multi_selector_status_fold (t : ReportTest) (selectors : List String)
    (outcomes : Outcomes) :
    (multi_selector_status t selectors outcomes).1.status =
      worst (selectors.map (selector_status outcomes)) := by
  obtain ⟨hgaps, hskips⟩ := collect_summary_status outcomes selectors ⟨[], [], [], []⟩
  simp only [true_and] at hgaps hskips
  rw [← collect_summary] at hgaps hskips
  refine status_ext ?_ ?_
  · rw [worst_eq_gap, List.mem_map]
    constructor
    · intro h
      by_contra hnone
      have hclear := hgaps.mpr fun sel hsel heq => hnone ⟨sel, hsel, heq⟩
      unfold multi_selector_status at h
      simp only [hclear.1, hclear.2.1, hclear.2.2, List.isEmpty_nil, Bool.not_true,
        Bool.false_eq_true, if_false] at h
      split_ifs at h
    · rintro ⟨sel, hsel, heq⟩
      have hnot : ¬ ((collect_summary selectors outcomes).failed = [] ∧
          (collect_summary selectors outcomes).ambiguous = [] ∧
          (collect_summary selectors outcomes).unmatched = []) :=
        fun hclear => hgaps.mp hclear sel hsel heq
      unfold multi_selector_status
      simp only
      split_ifs with hfailed hambiguous hunmatched
      · rfl
      · rfl
      · rfl
      · simp_all
      · simp_all
  · rw [worst_eq_pass]
    constructor
    · intro h s hs
      obtain ⟨sel, hsel, rfl⟩ := List.mem_map.mp hs
      unfold multi_selector_status at h
      simp only at h
      split_ifs at h with hfailed hambiguous hunmatched hignored
      simp only [Bool.not_eq_true, Bool.not_eq_false', List.isEmpty_iff] at hfailed hambiguous
      simp only [Bool.not_eq_true, Bool.not_eq_false', List.isEmpty_iff] at hunmatched hignored
      have hgap := hgaps.mp ⟨hfailed, hambiguous, hunmatched⟩ sel hsel
      have hskip := hskips.mp hignored sel hsel
      cases hstatus : selector_status outcomes sel with
      | Pass => rfl
      | Gap => exact absurd hstatus hgap
      | Skip => exact absurd hstatus hskip
    · intro hall
      have hpass : ∀ sel ∈ selectors, selector_status outcomes sel = .Pass :=
        fun sel hsel => hall _ (List.mem_map_of_mem hsel)
      have hclear := hgaps.mpr fun sel hsel heq => by
        rw [hpass sel hsel] at heq
        cases heq
      have hignored := hskips.mpr fun sel hsel heq => by
        rw [hpass sel hsel] at heq
        cases heq
      unfold multi_selector_status
      simp only [hclear.1, hclear.2.1, hclear.2.2, hignored, List.isEmpty_nil, Bool.not_true,
        Bool.false_eq_true, if_false]

/-! ## The repair of an ambiguous selector -/

/-- A key has another one at its end, behind colons. -/
def Qualifies (other key : String) : Prop :=
  ∃ before, other.toList = before ++ ':' :: ':' :: key.toList ∧ ends_a_path key.toList = true

theorem matches_key_iff {outcomes : Outcomes} {key : String} {matched : String × TestOutcome} :
    matched ∈ matching_outcomes outcomes key ↔
      matched ∈ outcomes.values ∧ (matched.1 = key ∨ Qualifies matched.1 key) := by
  rw [matching_outcomes, List.mem_filter, Bool.or_eq_true, beq_iff_eq, ends_with_fn_iff]
  refine and_congr_right fun _ => ?_
  constructor
  · rintro (heq | ⟨heq, -⟩ | hbefore)
    · exact .inl heq
    · exact .inl heq
    · exact .inr hbefore
  · rintro (heq | hbefore)
    · exact .inl heq
    · exact .inr (.inr hbefore)

/-- **A key matches exactly its own outcome when nothing else ends in it.** -/
theorem matching_own_iff {outcomes : Outcomes} {matched : String × TestOutcome}
    (hmatched : matched ∈ outcomes.values) :
    matching_outcomes outcomes matched.1 = [matched] ↔
      ∀ other ∈ outcomes.values, ¬ Qualifies other.1 matched.1 := by
  have hlonger : ∀ key : String, ¬ Qualifies key key := by
    rintro key ⟨before, hbefore, -⟩
    have hlength := congrArg List.length hbefore
    simp only [List.length_append, List.length_cons] at hlength
    omega
  constructor
  · intro h other hother hqualifies
    have hmem : other ∈ matching_outcomes outcomes matched.1 :=
      matches_key_iff.mpr ⟨hother, .inr hqualifies⟩
    rw [h, List.mem_singleton] at hmem
    rw [hmem] at hqualifies
    exact hlonger _ hqualifies
  · intro h
    have hnodup : (matching_outcomes outcomes matched.1).Nodup := outcomes.values_nodup.filter _
    refine List.perm_singleton.mp ((List.perm_ext_iff_of_nodup hnodup
      (List.nodup_singleton _)).mpr fun other => ?_)
    rw [matches_key_iff, List.mem_singleton]
    constructor
    · rintro ⟨hother, heq | hqualifies⟩
      · exact Store.eq_of_mem_values hother hmatched heq
      · exact absurd hqualifies (h other hother)
    · rintro rfl
      exact ⟨hmatched, .inl rfl⟩

/-- The keys that the hint of an ambiguous selector lists. -/
def listed_keys (outcomes : Outcomes) (selector : String) : List String :=
  (matching_outcomes outcomes selector).map Prod.fst

/-- **Selectors are coherent, and the repair of an ambiguous one works, exactly when no outcome
key has a listed key at its end behind colons.** -/
theorem selectors_coherent_iff (t : ReportTest) (outcomes : Outcomes) :
    ((∀ selectors, (multi_selector_status t selectors outcomes).1.status =
          worst (selectors.map fun selector =>
            (single_selector_status t selector outcomes).1.status)) ∧
        ∀ selector, 2 ≤ (listed_keys outcomes selector).length →
          single_selector_status t selector outcomes =
              ambiguous_selector t selector (listed_keys outcomes selector) ∧
            ∀ key ∈ listed_keys outcomes selector,
              (matching_outcomes outcomes key).map Prod.fst = [key]) ↔
      ∀ selector, 2 ≤ (listed_keys outcomes selector).length →
        ∀ key ∈ listed_keys outcomes selector,
          ∀ other ∈ outcomes.values, ¬ Qualifies other.1 key := by
  have hfold : ∀ selectors, (multi_selector_status t selectors outcomes).1.status =
      worst (selectors.map fun selector =>
        (single_selector_status t selector outcomes).1.status) := by
    intro selectors
    simp only [single_selector_status_eq]
    exact multi_selector_status_fold t selectors outcomes
  have hreported : ∀ selector, 2 ≤ (listed_keys outcomes selector).length →
      single_selector_status t selector outcomes =
        ambiguous_selector t selector (listed_keys outcomes selector) := by
    intro selector hmany
    unfold listed_keys at hmany ⊢
    unfold single_selector_status
    split
    · next heq =>
      rw [heq] at hmany
      cases hmany
    · next only heq =>
      rw [heq] at hmany
      simp only [List.map_cons, List.map_nil, List.length_singleton] at hmany
      omega
    · rfl
  have hown : ∀ selector key, key ∈ listed_keys outcomes selector →
      ((matching_outcomes outcomes key).map Prod.fst = [key] ↔
        ∀ other ∈ outcomes.values, ¬ Qualifies other.1 key) := by
    intro selector key hkey
    obtain ⟨matched, hmatched, rfl⟩ := List.mem_map.mp hkey
    have hmem : matched ∈ outcomes.values := (List.mem_filter.mp hmatched).1
    rw [← matching_own_iff hmem]
    constructor
    · intro h
      obtain ⟨found, hfound⟩ := List.map_eq_singleton_iff.mp h
      have hlisted : matched ∈ matching_outcomes outcomes matched.1 :=
        matches_key_iff.mpr ⟨hmem, .inl rfl⟩
      rw [hfound.1, List.mem_singleton] at hlisted
      rw [hfound.1, hlisted]
    · intro h
      rw [h, List.map_singleton]
  constructor
  · rintro ⟨-, hrepair⟩ selector hmany key hkey
    exact (hown selector key hkey).mp ((hrepair selector hmany).2 key hkey)
  · intro hends
    refine ⟨hfold, fun selector hmany => ⟨hreported selector hmany, fun key hkey => ?_⟩⟩
    exact (hown selector key hkey).mpr (hends selector hmany key hkey)

/-! ## A key at the end of another -/

def named_test : ReportTest where
  uid := "test"
  id := "TEST-1"
  selectors := ["works"]
  traces_to := ["llr"]
  link_gap := none
  sort_key := none

/-- Two functions of one name, one at the root of the crate `parser` and one in a module
`parser` of another crate. -/
def nested_run : Outcomes :=
  Store.ofList [("parser::works", .Passed), ("cli::parser::works", .Passed)]

/-- **The repair of an ambiguous selector can be ambiguous again.** -/
theorem selectors_coherent_fails :
    ¬ ((∀ selectors, (multi_selector_status named_test selectors nested_run).1.status =
          worst (selectors.map fun selector =>
            (single_selector_status named_test selector nested_run).1.status)) ∧
        ∀ selector, 2 ≤ (listed_keys nested_run selector).length →
          single_selector_status named_test selector nested_run =
              ambiguous_selector named_test selector (listed_keys nested_run selector) ∧
            ∀ key ∈ listed_keys nested_run selector,
              (matching_outcomes nested_run key).map Prod.fst = [key]) := by
  rintro ⟨-, hrepair⟩
  have hworks := (hrepair "works" (by decide +kernel)).2 "parser::works" (by decide +kernel)
  exact absurd hworks (by decide +kernel)

end Evidence.Trace
