/-
The comparison of two bundles as an **exact equality test**.

For bundles whose planes can be read, the findings are those of the inputs, of the recipe
and of the outputs, sorted. Each plane has no finding exactly if it was reproduced; each
key and each recipe field is in at most one finding of its plane, as the buckets of a diff
are disjoint and the planes have kinds of findings of their own; and nothing but the
names of the kinds depends on which bundle is the baseline.
-/
import Evidence.Verify.DigestPlanes

set_option autoImplicit false

namespace Evidence.Verify

open Std Check Sorting Evidence.Bundle

/-! ## What the planes of a bundle are -/

section Planes

variable [ReproductionJson]

/-- The files the comparison reads. -/
def PLANE_FILES : List String :=
  ["inputs_hashes.json", "deterministic-manifest.json", "outputs_hashes.json"]

/-- A bundle with readable planes: a directory in which each plane file that is there can
be read. -/
def BundleDir.Readable (bundle : BundleDir) : Prop :=
  ∃ tree, bundle.tree = some tree ∧ ∀ name ∈ PLANE_FILES,
    tree.exists_text name.toList = true → (read_bytes tree name).isSome

/-- What a plane file holds, if it is there. -/
def BundleDir.file (bundle : BundleDir) (name : String) : Option (List UInt8) :=
  bundle.tree.bind fun tree =>
    if tree.exists_text name.toList then read_bytes tree name else none

def BundleDir.plane (bundle : BundleDir) (name : String) : Option DigestMap :=
  (bundle.file name).bind ReproductionJson.map_from_slice

/-- The recipe, if it is there and parses. -/
def BundleDir.recipe (bundle : BundleDir) : Option ReproductionJson.Value :=
  (bundle.file "deterministic-manifest.json").bind ReproductionJson.value_from_slice

/-- A field of a recipe; an absent one is `null`. -/
def recipe_field (recipe : ReproductionJson.Value) (key : String) : ReproductionJson.Value :=
  (ReproductionJson.get recipe key).getD ReproductionJson.null

/-- Two planes parse and are one map of digests. -/
def PlanesEqual (p q : Option DigestMap) : Prop :=
  ∃ base cand, p = some base ∧ q = some cand ∧
    (∀ k, digest_of base k = none ↔ digest_of cand k = none) ∧
    (∀ k d e, digest_of base k = some d → digest_of cand k = some e → d = e) ∧
    (∀ k d, digest_of base k = some d → IsDigest d) ∧
    (∀ k d, digest_of cand k = some d → IsDigest d)

/-- Two recipes parse and agree on every recipe field. -/
def RecipesAgree (p q : Option ReproductionJson.Value) : Prop :=
  ∃ base cand, p = some base ∧ q = some cand ∧
    ∀ field ∈ RECIPE_FIELDS, recipe_field base field.1 = recipe_field cand field.1

/-- **The candidate reproduced the baseline.** -/
def Reproduced (a b : BundleDir) : Prop :=
  PlanesEqual (a.plane "inputs_hashes.json") (b.plane "inputs_hashes.json") ∧
    RecipesAgree a.recipe b.recipe ∧
    PlanesEqual (a.plane "outputs_hashes.json") (b.plane "outputs_hashes.json")

/-- A key that differs, is one-sided or is malformed on the baseline's side. -/
def Reportable (base cand : DigestMap) (k : String) : Prop :=
  (∃ d e, digest_of base k = some d ∧ digest_of cand k = some e ∧ d ≠ e) ∨
    (digest_of base k ≠ none ∧ digest_of cand k = none) ∨
    (digest_of base k = none ∧ digest_of cand k ≠ none) ∨
    ∃ d, digest_of base k = some d ∧ ¬ IsDigest d

def concerns_input (k : String) : ReproductionFinding → Bool
  | .InputChanged path | .InputMissing path | .InputUnverifiable path => path == k
  | _ => false

def concerns_output (k : String) : ReproductionFinding → Bool
  | .OutputChanged artifact | .OutputMissing artifact | .OutputExtra artifact
  | .OutputUnverifiable artifact => artifact == k
  | _ => false

/-- A key is reported in exactly one finding if it is to be, else in none. -/
def ReportedOnce (p q : Option DigestMap) (concerns : String → ReproductionFinding → Bool)
    (findings : List ReproductionFinding) : Prop :=
  ∀ base cand, p = some base → q = some cand → ∀ k,
    (Reportable base cand k → findings.countP (concerns k) = 1) ∧
      (¬ Reportable base cand k → findings.countP (concerns k) = 0)

/-- A recipe field is reported once if the recipes differ on it, else not at all. -/
def FieldsReportedOnce (p q : Option ReproductionJson.Value)
    (findings : List ReproductionFinding) : Prop :=
  ∀ base cand, p = some base → q = some cand → ∀ field ∈ RECIPE_FIELDS,
    findings.count (.RecipeFieldChanged field.2) =
      if recipe_field base field.1 = recipe_field cand field.1 then 0 else 1

def WellFormed (p : Option DigestMap) : Prop :=
  ∃ map, p = some map ∧ ∀ k d, digest_of map k = some d → IsDigest d

/-- **The comparison is an exact equality test**: of a pair of bundles and the two lists of
findings, this way round and the other. -/
structure ExactComparison (a b : BundleDir) (findings swapped : List ReproductionFinding) :
    Prop where
  empty_iff : findings = [] ↔ Reproduced a b
  inputs_once : ReportedOnce (a.plane "inputs_hashes.json") (b.plane "inputs_hashes.json")
    concerns_input findings
  fields_once : FieldsReportedOnce a.recipe b.recipe findings
  outputs_once : ReportedOnce (a.plane "outputs_hashes.json") (b.plane "outputs_hashes.json")
    concerns_output findings
  sorted : findings.Pairwise fun f g => (finding_cmp f g).isLE = true
  swap_empty : findings = [] ↔ swapped = []
  swap_outputs : WellFormed (a.plane "outputs_hashes.json") →
    WellFormed (b.plane "outputs_hashes.json") → ∀ k,
      (.OutputMissing k ∈ findings ↔ .OutputExtra k ∈ swapped) ∧
        (.OutputExtra k ∈ findings ↔ .OutputMissing k ∈ swapped)

/-! ## The findings of each plane -/

def input_findings : Option DigestMap → Option DigestMap → List ReproductionFinding
  | some base, some cand =>
    (diff_digest_planes base cand).changed.map .InputChanged ++
      ((diff_digest_planes base cand).base_only ++
        (diff_digest_planes base cand).cand_only).map .InputMissing ++
      (diff_digest_planes base cand).unverifiable.map .InputUnverifiable
  | _, _ => [.InputUnverifiable "inputs_hashes.json"]

def recipe_findings : Option ReproductionJson.Value → Option ReproductionJson.Value →
    List ReproductionFinding
  | some base, some cand => (compare_recipe_fields base cand).map .RecipeFieldChanged
  | _, _ => [.RecipeUnavailable]

def output_findings : Option DigestMap → Option DigestMap → List ReproductionFinding
  | some base, some cand =>
    (diff_digest_planes base cand).changed.map .OutputChanged ++
      (diff_digest_planes base cand).base_only.map .OutputMissing ++
      (diff_digest_planes base cand).unverifiable.map .OutputUnverifiable ++
      (diff_digest_planes base cand).cand_only.map .OutputExtra
  | _, _ => [.OutputUnverifiable "outputs_hashes.json"]

/-- All findings, before they are sorted. -/
def all_findings (a b : BundleDir) : List ReproductionFinding :=
  input_findings (a.plane "inputs_hashes.json") (b.plane "inputs_hashes.json") ++
    recipe_findings a.recipe b.recipe ++
    output_findings (a.plane "outputs_hashes.json") (b.plane "outputs_hashes.json")

omit [ReproductionJson] in
theorem read_plane_ok {bundle : BundleDir} {tree : FileTree} (htree : bundle.tree = some tree)
    {name : String} (hread : tree.exists_text name.toList = true → (read_bytes tree name).isSome) :
    read_plane bundle.path tree name = .ok (bundle.file name) := by
  rw [read_plane, BundleDir.file, htree, Option.bind_some]
  by_cases hexists : tree.exists_text name.toList = true
  · obtain ⟨bytes, hbytes⟩ := Option.isSome_iff_exists.mp (hread hexists)
    simp only [hexists, Bool.not_true, Bool.false_eq_true, if_false, hbytes, if_true]
  · simp only [Bool.not_eq_true] at hexists
    simp only [hexists, Bool.not_false, if_true, Bool.false_eq_true, if_false]

omit [ReproductionJson] in
/-- What succeeds is followed by what comes next. -/
theorem ok_then {ε α β : Type} (a : α) (f : α → Except ε β) :
    ((.ok a : Except ε α) >>= f) = f a := rfl

/-- So is a digest plane. -/
theorem read_digest_map_ok {bundle : BundleDir} {tree : FileTree}
    (htree : bundle.tree = some tree) {name : String}
    (hread : tree.exists_text name.toList = true → (read_bytes tree name).isSome) :
    read_digest_map bundle.path tree name =
      .ok (((bundle.plane name).map Plane.Loaded).getD .Unavailable) := by
  rw [read_digest_map, read_plane_ok htree hread, BundleDir.plane]
  rcases bundle.file name with _ | bytes
  · rfl
  · rcases hmap : ReproductionJson.map_from_slice bytes with _ | map
    · simp only [ok_then, hmap, Option.bind_some, Option.map_none, Option.getD_none]
    · simp only [ok_then, hmap, Option.bind_some, Option.map_some, Option.getD_some]

theorem read_recipe_ok {bundle : BundleDir} {tree : FileTree} (htree : bundle.tree = some tree)
    (hread : tree.exists_text "deterministic-manifest.json".toList = true →
      (read_bytes tree "deterministic-manifest.json").isSome) :
    read_recipe bundle.path tree = .ok bundle.recipe := by
  rw [read_recipe, read_plane_ok htree hread, BundleDir.recipe]
  rcases bundle.file "deterministic-manifest.json" with _ | bytes
  · rfl
  · rfl

/-- **The findings of readable bundles** are those of the planes, sorted. -/
theorem compare_reproduction_ok {a b : BundleDir} (ha : a.Readable) (hb : b.Readable) :
    compare_reproduction a b = .ok (sortBy finding_cmp (all_findings a b)) := by
  obtain ⟨ta, hta, hreada⟩ := ha
  obtain ⟨tb, htb, hreadb⟩ := hb
  have hinputs (findings : List ReproductionFinding) :
      compare_inputs (a.path, ta) (b.path, tb) findings = .ok (findings ++
        input_findings (a.plane "inputs_hashes.json") (b.plane "inputs_hashes.json")) := by
    rw [compare_inputs, read_digest_map_ok hta (hreada _ (by decide)),
      read_digest_map_ok htb (hreadb _ (by decide))]
    rcases a.plane "inputs_hashes.json" with _ | base
    · rfl
    · rcases b.plane "inputs_hashes.json" with _ | cand
      · rfl
      · simp only [ok_then, Option.map_some, Option.getD_some, input_findings,
          List.append_assoc]
  have hrecipe (findings : List ReproductionFinding) :
      compare_recipe (a.path, ta) (b.path, tb) findings = .ok (findings ++
        recipe_findings a.recipe b.recipe) := by
    rw [compare_recipe, read_recipe_ok hta (hreada _ (by decide)),
      read_recipe_ok htb (hreadb _ (by decide))]
    rcases a.recipe with _ | base
    · rfl
    · rcases b.recipe with _ | cand
      · rfl
      · rfl
  have houtputs (findings : List ReproductionFinding) :
      compare_outputs (a.path, ta) (b.path, tb) findings = .ok (findings ++
        output_findings (a.plane "outputs_hashes.json") (b.plane "outputs_hashes.json")) := by
    rw [compare_outputs, read_digest_map_ok hta (hreada _ (by decide)),
      read_digest_map_ok htb (hreadb _ (by decide))]
    rcases a.plane "outputs_hashes.json" with _ | base
    · rfl
    · rcases b.plane "outputs_hashes.json" with _ | cand
      · rfl
      · simp only [ok_then, Option.map_some, Option.getD_some, output_findings,
          List.append_assoc]
  rw [compare_reproduction, hta, htb]
  simp only [hinputs, hrecipe, houtputs, ok_then, List.nil_append]
  rfl

/-! ## Emptiness -/

omit [ReproductionJson] in
/-- **All buckets are empty exactly if the planes are equal.** -/
theorem buckets_empty_iff {base cand : DigestMap} :
    (∀ b, (diff_digest_planes base cand).keys b = []) ↔
      PlanesEqual (some base) (some cand) := by
  have hverdict : (∀ b, (diff_digest_planes base cand).keys b = []) ↔
      ∀ k, verdict base cand k = none := by
    constructor
    · intro h k
      rcases hk : verdict base cand k with _ | b
      · rfl
      · have hcount := count_keys base cand b k
        rw [h b, hk, if_pos rfl] at hcount
        cases hcount
    · intro h b
      rw [List.eq_nil_iff_forall_not_mem]
      intro k hk
      have hcount := count_keys base cand b k
      rw [h k, if_neg nofun] at hcount
      exact absurd hk (List.count_eq_zero.mp hcount)
  rw [hverdict]
  constructor
  · intro h
    have hk (k : String) := verdict_eq_none_iff.mp (h k)
    refine ⟨base, cand, rfl, rfl, fun k => by rw [(hk k).1], fun k d e hd he => ?_,
      fun k d hd => (hk k).2 d hd, fun k d hd => (hk k).2 d ((hk k).1.trans hd)⟩
    rw [(hk k).1, he] at hd
    exact (Option.some.inj hd).symm
  · rintro ⟨base', cand', hbase, hcand, hkeys, hvalues, hdigests, -⟩ k
    rw [Option.some.injEq] at hbase hcand
    subst hbase hcand
    refine verdict_eq_none_iff.mpr ⟨?_, hdigests k⟩
    rcases hd : digest_of base k with _ | d
    · exact ((hkeys k).mp hd).symm
    · rcases he : digest_of cand k with _ | e
      · rw [(hkeys k).mpr he] at hd
        cases hd
      · rw [hvalues k d e hd he]

omit [ReproductionJson] in
theorem lists_empty_iff (diff : DigestPlaneDiff) :
    (∀ b, diff.keys b = []) ↔
      diff.changed = [] ∧ diff.base_only = [] ∧ diff.cand_only = [] ∧ diff.unverifiable = [] := by
  constructor
  · intro h
    exact ⟨h .Changed, h .BaseOnly, h .CandOnly, h .Unverifiable⟩
  · rintro ⟨hchanged, hbase, hcand, hunverifiable⟩ b
    cases b with
    | Changed => exact hchanged
    | BaseOnly => exact hbase
    | CandOnly => exact hcand
    | Unverifiable => exact hunverifiable

omit [ReproductionJson] in
theorem PlanesEqual.some {p q : Option DigestMap} (h : PlanesEqual p q) :
    p ≠ none ∧ q ≠ none := by
  obtain ⟨base, cand, hp, hq, -⟩ := h
  rw [hp, hq]
  exact ⟨Option.some_ne_none base, Option.some_ne_none cand⟩

omit [ReproductionJson] in
theorem input_findings_eq_nil_iff {p q : Option DigestMap} :
    input_findings p q = [] ↔ PlanesEqual p q := by
  rcases p with _ | base
  · exact iff_of_false (List.cons_ne_nil _ _) fun h => h.some.1 rfl
  · rcases q with _ | cand
    · exact iff_of_false (List.cons_ne_nil _ _) fun h => h.some.2 rfl
    · rw [← buckets_empty_iff, lists_empty_iff, input_findings]
      simp only [List.append_eq_nil_iff, List.map_eq_nil_iff, and_assoc]

omit [ReproductionJson] in
theorem output_findings_eq_nil_iff {p q : Option DigestMap} :
    output_findings p q = [] ↔ PlanesEqual p q := by
  rcases p with _ | base
  · exact iff_of_false (List.cons_ne_nil _ _) fun h => h.some.1 rfl
  · rcases q with _ | cand
    · exact iff_of_false (List.cons_ne_nil _ _) fun h => h.some.2 rfl
    · rw [← buckets_empty_iff, lists_empty_iff, output_findings]
      simp only [List.append_eq_nil_iff, List.map_eq_nil_iff, and_assoc]
      exact and_congr_right fun _ => and_congr_right fun _ => and_comm

theorem recipe_findings_eq_nil_iff {p q : Option ReproductionJson.Value} :
    recipe_findings p q = [] ↔ RecipesAgree p q := by
  rcases p with _ | base
  · refine iff_of_false (List.cons_ne_nil _ _) ?_
    rintro ⟨base, cand, h, -⟩
    cases h
  · rcases q with _ | cand
    · refine iff_of_false (List.cons_ne_nil _ _) ?_
      rintro ⟨base, cand, -, h, -⟩
      cases h
    · rw [recipe_findings, List.map_eq_nil_iff, compare_recipe_fields, List.map_eq_nil_iff,
        List.filter_eq_nil_iff]
      constructor
      · intro h
        refine ⟨base, cand, rfl, rfl, fun field hfield => ?_⟩
        simpa [recipe_field] using h field hfield
      · rintro ⟨base', cand', hbase, hcand, h⟩ field hfield
        rw [Option.some.injEq] at hbase hcand
        subst hbase hcand
        simpa [recipe_field] using h field hfield

/-- **No finding exactly if the candidate reproduced the baseline.** -/
theorem all_findings_eq_nil_iff {a b : BundleDir} :
    sortBy finding_cmp (all_findings a b) = [] ↔ Reproduced a b := by
  have hsort (l : List ReproductionFinding) : sortBy finding_cmp l = [] ↔ l = [] := by
    rw [← List.length_eq_zero_iff, (sortBy_perm l).length_eq, List.length_eq_zero_iff]
  rw [hsort, all_findings, List.append_eq_nil_iff, List.append_eq_nil_iff,
    input_findings_eq_nil_iff, recipe_findings_eq_nil_iff, output_findings_eq_nil_iff,
    Reproduced, and_assoc]

/-! ## Each key once -/

omit [ReproductionJson] in
/-- The keys to be reported are those with a bucket. -/
theorem reportable_iff {base cand : DigestMap} {k : String} :
    Reportable base cand k ↔ verdict base cand k ≠ none := by
  rw [Ne, verdict_eq_none_iff, Reportable]
  rcases digest_of base k with _ | d
  · rcases digest_of cand k with _ | e
    · simp
    · simp
  · rcases digest_of cand k with _ | e
    · simp
    · by_cases hsame : d = e
      · simp [hsame]
      · simp [hsame]

omit [ReproductionJson] in
theorem count_buckets (base cand : DigestMap) (k : String) :
    (diff_digest_planes base cand).changed.count k +
        (diff_digest_planes base cand).base_only.count k +
        (diff_digest_planes base cand).cand_only.count k +
        (diff_digest_planes base cand).unverifiable.count k =
      if verdict base cand k = none then 0 else 1 := by
  have hchanged := count_keys base cand .Changed k
  have hbase := count_keys base cand .BaseOnly k
  have hcand := count_keys base cand .CandOnly k
  have hunverifiable := count_keys base cand .Unverifiable k
  simp only [DigestPlaneDiff.keys] at hchanged hbase hcand hunverifiable
  rw [hchanged, hbase, hcand, hunverifiable]
  rcases verdict base cand k with _ | b
  · rfl
  · cases b <;> rfl

omit [ReproductionJson] in
theorem countP_map_kind {concerns : ReproductionFinding → Bool}
    {kind : String → ReproductionFinding} {k : String} (h : ∀ p, concerns (kind p) = (p == k))
    (ps : List String) : (ps.map kind).countP concerns = ps.count k := by
  rw [List.countP_map, List.count]
  exact congrArg (List.countP · ps) (funext h)

omit [ReproductionJson] in
/-- Findings of kinds that are not about the key. -/
theorem countP_eq_zero_of_forall {concerns : ReproductionFinding → Bool}
    {findings : List ReproductionFinding} (h : ∀ f ∈ findings, concerns f = false) :
    findings.countP concerns = 0 := by
  rw [List.countP_eq_zero]
  intro f hf
  rw [h f hf]
  exact Bool.false_ne_true

omit [ReproductionJson] in
theorem rank_of_mem_inputs {p q : Option DigestMap} {f : ReproductionFinding}
    (hf : f ∈ input_findings p q) : f.rank < 3 := by
  rcases p with _ | base
  · rw [List.mem_singleton.mp hf]
    decide
  · rcases q with _ | cand
    · rw [List.mem_singleton.mp hf]
      decide
    · simp only [input_findings, List.mem_append, List.mem_map] at hf
      rcases hf with (⟨_, -, rfl⟩ | ⟨_, -, rfl⟩) | ⟨_, -, rfl⟩ <;>
        simp [ReproductionFinding.rank]

/-- Those about the recipe follow. -/
theorem rank_of_mem_recipe {p q : Option ReproductionJson.Value} {f : ReproductionFinding}
    (hf : f ∈ recipe_findings p q) : 3 ≤ f.rank ∧ f.rank < 5 := by
  rcases p with _ | base
  · rw [List.mem_singleton.mp hf]
    decide
  · rcases q with _ | cand
    · rw [List.mem_singleton.mp hf]
      decide
    · obtain ⟨field, -, rfl⟩ := List.mem_map.mp hf
      simp [ReproductionFinding.rank]

omit [ReproductionJson] in
/-- Those about the outputs are of the last kinds. -/
theorem rank_of_mem_outputs {p q : Option DigestMap} {f : ReproductionFinding}
    (hf : f ∈ output_findings p q) : 5 ≤ f.rank := by
  rcases p with _ | base
  · rw [List.mem_singleton.mp hf]
    decide
  · rcases q with _ | cand
    · rw [List.mem_singleton.mp hf]
      decide
    · simp only [output_findings, List.mem_append, List.mem_map] at hf
      rcases hf with ((⟨_, -, rfl⟩ | ⟨_, -, rfl⟩) | ⟨_, -, rfl⟩) | ⟨_, -, rfl⟩ <;>
        simp [ReproductionFinding.rank]

omit [ReproductionJson] in
/-- A finding about an input is of the first kinds, one about an output of the last. -/
theorem rank_of_concerns {k : String} {f : ReproductionFinding} :
    (concerns_input k f = true → f.rank < 3) ∧ (concerns_output k f = true → 5 ≤ f.rank) := by
  cases f <;> simp [concerns_input, concerns_output, ReproductionFinding.rank]

omit [ReproductionJson] in
theorem reportedOnce_of_count {p q : Option DigestMap}
    {concerns : String → ReproductionFinding → Bool} {findings : List ReproductionFinding}
    (h : ∀ base cand, p = some base → q = some cand → ∀ k,
      findings.countP (concerns k) = if verdict base cand k = none then 0 else 1) :
    ReportedOnce p q concerns findings := by
  intro base cand hbase hcand k
  rw [h base cand hbase hcand k, reportable_iff]
  constructor
  · intro hreported
    rw [if_neg hreported]
  · intro hequal
    rw [if_pos (not_not.mp hequal)]

/-- **Each key of the inputs is reported once or not at all.** -/
theorem inputs_reported_once (a b : BundleDir) :
    ReportedOnce (a.plane "inputs_hashes.json") (b.plane "inputs_hashes.json") concerns_input
      (sortBy finding_cmp (all_findings a b)) := by
  refine reportedOnce_of_count fun base cand hbase hcand k => ?_
  have hrest (l : List ReproductionFinding) (h : ∀ f ∈ l, 3 ≤ f.rank) :
      l.countP (concerns_input k) = 0 := by
    refine countP_eq_zero_of_forall fun f hf => ?_
    by_contra hconcerns
    rw [Bool.not_eq_false] at hconcerns
    have hlt := rank_of_concerns.1 hconcerns
    have hge := h f hf
    omega
  rw [(sortBy_perm _).countP_eq, all_findings, List.countP_append, List.countP_append,
    hrest (recipe_findings _ _) (fun f hf => (rank_of_mem_recipe hf).1),
    hrest (output_findings _ _) (fun f hf => by
      have hge := rank_of_mem_outputs hf
      omega), hbase, hcand, input_findings, List.countP_append, List.countP_append,
    countP_map_kind (fun _ => rfl), countP_map_kind (fun _ => rfl),
    countP_map_kind (fun _ => rfl), List.count_append, ← count_buckets base cand k]
  omega

/-- **Each key of the outputs is reported once or not at all.** -/
theorem outputs_reported_once (a b : BundleDir) :
    ReportedOnce (a.plane "outputs_hashes.json") (b.plane "outputs_hashes.json") concerns_output
      (sortBy finding_cmp (all_findings a b)) := by
  refine reportedOnce_of_count fun base cand hbase hcand k => ?_
  have hrest (l : List ReproductionFinding) (h : ∀ f ∈ l, f.rank < 5) :
      l.countP (concerns_output k) = 0 := by
    refine countP_eq_zero_of_forall fun f hf => ?_
    by_contra hconcerns
    rw [Bool.not_eq_false] at hconcerns
    have hge := rank_of_concerns.2 hconcerns
    have hlt := h f hf
    omega
  rw [(sortBy_perm _).countP_eq, all_findings, List.countP_append, List.countP_append,
    hrest (input_findings _ _) (fun f hf => by
      have hlt := rank_of_mem_inputs hf
      omega), hrest (recipe_findings _ _) (fun f hf => (rank_of_mem_recipe hf).2),
    hbase, hcand, output_findings, List.countP_append, List.countP_append, List.countP_append,
    countP_map_kind (fun _ => rfl), countP_map_kind (fun _ => rfl),
    countP_map_kind (fun _ => rfl), countP_map_kind (fun _ => rfl),
    ← count_buckets base cand k]
  omega

theorem count_compare_recipe_fields (base cand : ReproductionJson.Value) {field : String × String}
    (hfield : field ∈ RECIPE_FIELDS) :
    (compare_recipe_fields base cand).count field.2 =
      if recipe_field base field.1 = recipe_field cand field.1 then 0 else 1 := by
  have hnames : (RECIPE_FIELDS.map Prod.snd).Nodup := by decide
  have hnodup : (compare_recipe_fields base cand).Nodup :=
    hnames.sublist (List.filter_sublist.map Prod.snd)
  have hmem : field.2 ∈ compare_recipe_fields base cand ↔
      recipe_field base field.1 ≠ recipe_field cand field.1 := by
    rw [compare_recipe_fields, List.mem_map]
    constructor
    · rintro ⟨other, hother, hname⟩
      have hsame : other = field :=
        List.inj_on_of_nodup_map hnames (List.mem_filter.mp hother).1 hfield hname
      rw [hsame] at hother
      simpa [recipe_field] using (List.mem_filter.mp hother).2
    · intro h
      refine ⟨field, List.mem_filter.mpr ⟨hfield, ?_⟩, rfl⟩
      simpa [recipe_field] using h
  rw [hnodup.count]
  by_cases hsame : recipe_field base field.1 = recipe_field cand field.1
  · rw [if_neg fun h => hmem.mp h hsame, if_pos hsame]
  · rw [if_pos (hmem.mpr hsame), if_neg hsame]

/-- **Each recipe field is reported once or not at all.** -/
theorem fields_reported_once (a b : BundleDir) :
    FieldsReportedOnce a.recipe b.recipe (sortBy finding_cmp (all_findings a b)) := by
  intro base cand hbase hcand field hfield
  have hinputs : (input_findings (a.plane "inputs_hashes.json")
      (b.plane "inputs_hashes.json")).count (.RecipeFieldChanged field.2) = 0 := by
    refine List.count_eq_zero.mpr fun h => ?_
    have hlt := rank_of_mem_inputs h
    rw [ReproductionFinding.rank] at hlt
    omega
  have houtputs : (output_findings (a.plane "outputs_hashes.json")
      (b.plane "outputs_hashes.json")).count (.RecipeFieldChanged field.2) = 0 := by
    refine List.count_eq_zero.mpr fun h => ?_
    have hge := rank_of_mem_outputs h
    rw [ReproductionFinding.rank] at hge
    omega
  have hinjective : Function.Injective ReproductionFinding.RecipeFieldChanged :=
    fun _ _ h => ReproductionFinding.RecipeFieldChanged.inj h
  rw [(sortBy_perm _).count_eq, all_findings, List.count_append, List.count_append, hinputs,
    houtputs, hbase, hcand, recipe_findings, List.count_map_of_injective _ _ hinjective,
    count_compare_recipe_fields base cand hfield, Nat.zero_add, Nat.add_zero]

/-! ## The other way round -/

omit [ReproductionJson] in
theorem PlanesEqual.symm {p q : Option DigestMap} (h : PlanesEqual p q) : PlanesEqual q p := by
  obtain ⟨base, cand, hp, hq, hkeys, hvalues, hbase, hcand⟩ := h
  exact ⟨cand, base, hq, hp, fun k => (hkeys k).symm,
    fun k d e hd he => (hvalues k e d he hd).symm, hcand, hbase⟩

theorem RecipesAgree.symm {p q : Option ReproductionJson.Value} (h : RecipesAgree p q) :
    RecipesAgree q p := by
  obtain ⟨base, cand, hp, hq, hfields⟩ := h
  exact ⟨cand, base, hq, hp, fun field hfield => (hfields field hfield).symm⟩

/-- **A reproduction is one either way round.** -/
theorem Reproduced.symm {a b : BundleDir} (h : Reproduced a b) : Reproduced b a :=
  ⟨h.1.symm, h.2.1.symm, h.2.2.symm⟩

omit [ReproductionJson] in
theorem mem_keys_iff {base cand : DigestMap} {b : Bucket} {k : String} :
    k ∈ (diff_digest_planes base cand).keys b ↔ verdict base cand k = some b := by
  rw [← List.count_pos_iff, count_keys]
  by_cases hverdict : verdict base cand k = some b
  · rw [if_pos hverdict]
    exact iff_of_true Nat.zero_lt_one hverdict
  · rw [if_neg hverdict]
    exact iff_of_false (Nat.lt_irrefl 0) hverdict

omit [ReproductionJson] in
/-- A key that both planes have is in neither of the one-sided buckets. -/
theorem verdict_of_both {base cand : DigestMap} {k d e : String} (hd : digest_of base k = some d)
    (he : digest_of cand k = some e) :
    verdict base cand k ≠ some .BaseOnly ∧ verdict base cand k ≠ some .CandOnly := by
  rw [verdict, hd, he]
  dsimp only
  split_ifs <;> simp

omit [ReproductionJson] in
/-- A key the baseline alone has. -/
theorem verdict_base_only_iff {base cand : DigestMap} {k : String}
    (hbase : ∀ d, digest_of base k = some d → IsDigest d) :
    verdict base cand k = some .BaseOnly ↔ digest_of base k ≠ none ∧ digest_of cand k = none := by
  rcases hd : digest_of base k with _ | d
  · rcases he : digest_of cand k with _ | e <;> simp [verdict, hd, he]
  · rcases he : digest_of cand k with _ | e
    · have hhex : is_sha256_hex d = true := (is_sha256_hex_iff d).mpr (hbase d hd)
      simp [verdict, hd, he, hhex]
    · simp [(verdict_of_both hd he).1]

omit [ReproductionJson] in
/-- A key the candidate alone has. -/
theorem verdict_cand_only_iff {base cand : DigestMap} {k : String} :
    verdict base cand k = some .CandOnly ↔ digest_of base k = none ∧ digest_of cand k ≠ none := by
  rcases hd : digest_of base k with _ | d
  · rcases he : digest_of cand k with _ | e <;> simp [verdict, hd, he]
  · rcases he : digest_of cand k with _ | e
    · by_cases hhex : is_sha256_hex d = true <;> simp [verdict, hd, he, hhex]
    · simp [(verdict_of_both hd he).2]

theorem mem_all_findings_of_rank {a b : BundleDir} {f : ReproductionFinding}
    (hrank : 5 ≤ f.rank) :
    f ∈ sortBy finding_cmp (all_findings a b) ↔
      f ∈ output_findings (a.plane "outputs_hashes.json") (b.plane "outputs_hashes.json") := by
  rw [mem_sortBy, all_findings, List.mem_append, List.mem_append]
  refine or_iff_right ?_
  rintro (h | h)
  · have hlt := rank_of_mem_inputs h
    omega
  · have hlt := (rank_of_mem_recipe h).2
    omega

omit [ReproductionJson] in
theorem mem_output_findings {base cand : DigestMap} {k : String} :
    (.OutputMissing k ∈ output_findings (some base) (some cand) ↔
        verdict base cand k = some .BaseOnly) ∧
      (.OutputExtra k ∈ output_findings (some base) (some cand) ↔
        verdict base cand k = some .CandOnly) := by
  rw [← mem_keys_iff, ← mem_keys_iff]
  simp [output_findings, DigestPlaneDiff.keys]

/-- **Missing and extra outputs change places.** -/
theorem missing_iff_extra {a b : BundleDir} (ha : WellFormed (a.plane "outputs_hashes.json"))
    (hb : WellFormed (b.plane "outputs_hashes.json")) (k : String) :
    .OutputMissing k ∈ sortBy finding_cmp (all_findings a b) ↔
      .OutputExtra k ∈ sortBy finding_cmp (all_findings b a) := by
  obtain ⟨base, hbase, hbase_digests⟩ := ha
  obtain ⟨cand, hcand, -⟩ := hb
  rw [mem_all_findings_of_rank (by simp [ReproductionFinding.rank]),
    mem_all_findings_of_rank (by simp [ReproductionFinding.rank]), hbase, hcand,
    mem_output_findings.1, mem_output_findings.2, verdict_base_only_iff (hbase_digests k),
    verdict_cand_only_iff, and_comm]

/-! ## The exact equality test -/

omit [ReproductionJson] in
instance : TransCmp finding_cmp :=
  inferInstanceAs (TransCmp (compareLex (compareOn ReproductionFinding.rank)
    (compareOn ReproductionFinding.name)))

/-- **The comparison of two bundles with readable planes is an exact equality test**: its
list of findings is empty exactly if the inputs, the recipe and the outputs were reproduced;
each key that differs, is one-sided or malformed in the baseline is in one finding of its
plane; the list is sorted; and the other way round the emptiness is the same and missing
outputs are extra ones. -/
theorem compare_reproduction_exact {a b : BundleDir} (ha : a.Readable) (hb : b.Readable) :
    ∃ findings swapped, compare_reproduction a b = .ok findings ∧
      compare_reproduction b a = .ok swapped ∧ ExactComparison a b findings swapped := by
  refine ⟨_, _, compare_reproduction_ok ha hb, compare_reproduction_ok hb ha, ?_⟩
  refine ⟨all_findings_eq_nil_iff, inputs_reported_once a b, fields_reported_once a b,
    outputs_reported_once a b, sortBy_sorted _, ?_, ?_⟩
  · rw [all_findings_eq_nil_iff, all_findings_eq_nil_iff]
    exact ⟨Reproduced.symm, Reproduced.symm⟩
  · intro hwell_a hwell_b k
    exact ⟨missing_iff_extra hwell_a hwell_b k, (missing_iff_extra hwell_b hwell_a k).symm⟩

end Planes

/-! ## A bundle without its outputs -/

section Examples

/-- The text of an object without fields. -/
def empty_object : List UInt8 := str_bytes "\x7b\x7d"

/-- The parser on that text, whose values are that object and `null`. -/
@[reducible] def empty_json : ReproductionJson where
  map_from_slice := fun bytes => if bytes = empty_object then some Store.empty else none
  Value := Option Unit
  value_eq := inferInstance
  null := none
  get := fun _ _ => none
  value_from_slice := fun bytes => if bytes = empty_object then some (some ()) else none

attribute [local instance] empty_json

/-- Files that hold that text, under plane names. -/
def empty_planes (names : List String) (hnodup : (names.map root_path).Nodup)
    (hnames : ∀ name ∈ names, IsName (os_name name.toList)) : FileTree where
  entries := names.map fun name => (root_path name, .File empty_object)
  outside := fun _ => none
  nodup := by simpa [List.map_map, Function.comp_def] using hnodup
  named := by
    intro entry hentry
    obtain ⟨name, hname, rfl⟩ := List.mem_map.mp hentry
    exact ⟨List.cons_ne_nil _ _, fun n hn => List.mem_singleton.mp hn ▸ hnames name hname⟩
  parents := by
    intro entry hentry hparent
    obtain ⟨name, -, rfl⟩ := List.mem_map.mp hentry
    exact absurd rfl hparent

/-- A bundle with all planes. -/
def whole_bundle : BundleDir :=
  ⟨"baseline", some (empty_planes PLANE_FILES (by decide) (by decide))⟩

/-- A bundle without its outputs. -/
def partial_bundle : BundleDir :=
  ⟨"candidate", some (empty_planes (PLANE_FILES.take 2) (by decide) (by decide))⟩

theorem compare_reproduction_exact_partial :
    ∃ findings swapped, compare_reproduction whole_bundle partial_bundle = .ok findings ∧
      compare_reproduction partial_bundle whole_bundle = .ok swapped ∧
      ExactComparison whole_bundle partial_bundle findings swapped :=
  compare_reproduction_exact ⟨_, rfl, by decide⟩ ⟨_, rfl, by decide⟩

end Examples

end Evidence.Verify
