/-
`diff.rs`, `diff/categories_*.rs` -- each category with its sides exchanged.

The categories read both sides before they compare, so exchanging the sides exchanges what is
read, and what is left is a comparison of two values. Its findings mirror those of the values
exchanged: the same is changed and the same unexamined, and the lines mirror each other. A digest
plane mirrors in its status alone: a path with a malformed digest that only one side has is
a malformed digest if the side is the first, and an addition if it is the second.
-/
import Evidence.Diff.Mirror

set_option autoImplicit false

namespace Evidence.Diff

open Std Sorting Check Evidence.Bundle
open Verify (ReproductionJson DigestMap digest_of IsDigest read_digest_map read_recipe
  diff_digest_planes compare_recipe_fields)

/-! ## Results -/

/-- The status with the sides exchanged. -/
def DiffCategoryStatus.swap : DiffCategoryStatus → DiffCategoryStatus
  | .Added => .Removed
  | .Removed => .Added
  | status => status

structure StatusMirror (d d' : CategoryDiff) : Prop where
  category : d'.category = d.category
  status : d'.status = d.status.swap

/-- The lines are those of the sides exchanged, too. -/
structure ResultMirror (d d' : CategoryDiff) : Prop extends StatusMirror d d' where
  details : LinesMirror d.details d'.details

/-- Findings with the sides exchanged. -/
structure FindingsMirror (f g : Findings) : Prop where
  changed : f.changed = g.changed
  unexaminable : f.unexaminable = g.unexaminable
  details : LinesMirror f.details g.details

namespace FindingsMirror

theorem differences {l l' : List String} (h : LinesMirror l l') :
    FindingsMirror (.differences l) (.differences l') := by
  refine ⟨?_, rfl, h⟩
  have hnil := h.eq_nil_iff
  simp only [Findings.differences]
  by_cases hl : l = []
  · rw [hl, hnil.mp hl]
  · rw [List.isEmpty_eq_false_iff.mpr hl, List.isEmpty_eq_false_iff.mpr fun h => hl (hnil.mpr h)]

theorem unexamined {x y : String} (hx : Plain x) (hy : Plain y) :
    FindingsMirror (.unexamined x) (.unexamined y) :=
  ⟨rfl, rfl, .singleton (hx.mirror hy)⟩

theorem add {f g f' g' : Findings} (h : FindingsMirror f g) (h' : FindingsMirror f' g') :
    FindingsMirror (f.add f') (g.add g') := by
  refine ⟨?_, ?_, h.details.append h'.details⟩
  · simp only [Findings.add, h.changed, h'.changed]
  · simp only [Findings.add, h.unexaminable, h'.unexaminable]

/-- Parts that mirror each other one by one do so together. -/
theorem foldr {fs gs : List Findings} {z z' : Findings} (h : List.Forall₂ FindingsMirror fs gs)
    (hz : FindingsMirror z z') : FindingsMirror (fs.foldr Findings.add z)
      (gs.foldr Findings.add z') := by
  induction h with
  | nil => exact hz
  | cons hhead _ ih => exact hhead.add ih

theorem report {f g : Findings} (h : FindingsMirror f g) (category : String) :
    ResultMirror (f.report category) (g.report category) := by
  refine ⟨⟨rfl, ?_⟩, h.details⟩
  have hreport := @Findings.report_status f category
  have hstatus : (g.report category).status = (f.report category).status := by
    simp only [Findings.report, h.changed, h.unexaminable]
  rw [hstatus]
  cases hs : (f.report category).status with
  | Added => exact absurd hs hreport.1
  | Removed => exact absurd hs hreport.2
  | Equal => rfl
  | Changed => rfl
  | Unverifiable => rfl

end FindingsMirror

theorem unverifiable_mirror (category reason reason' : String) :
    ResultMirror (unverifiable category reason) (unverifiable category reason') :=
  ⟨⟨rfl, rfl⟩, .singleton ((plain_note reason).mirror (plain_note reason'))⟩

/-! ## Programs -/

section Programs

variable {ε α β : Type}

/-- What comes of one program comes, mirrored, of the other. -/
def ExceptMirror (r : β → β → Prop) (x y : Except ε β) : Prop :=
  ∀ v, x = .ok v → ∃ w, y = .ok w ∧ r v w

theorem ExceptMirror.ok {r : β → β → Prop} {v w : β} (h : r v w) :
    ExceptMirror r (.ok v : Except ε β) (.ok w) := by
  intro v' hv
  rw [← Except.ok.inj hv]
  exact ⟨w, rfl, h⟩

/-- Two readings in one order or the other. -/
theorem ExceptMirror.both {γ : Type} {r : γ → γ → Prop} {x y : Except ε α}
    {compare compare' : α → α → Except ε γ}
    (h : ∀ a b, x = .ok a → y = .ok b → ExceptMirror r (compare a b) (compare' b a)) :
    ExceptMirror r (x >>= fun a => y >>= fun b => compare a b)
      (y >>= fun b => x >>= fun a => compare' b a) := by
  intro v hv
  obtain ⟨a, ha, hv⟩ := bind_ok_iff.mp hv
  obtain ⟨b, hb, hv⟩ := bind_ok_iff.mp hv
  obtain ⟨w, hw, hr⟩ := h a b ha hb v hv
  exact ⟨w, bind_ok_iff.mpr ⟨b, hb, bind_ok_iff.mpr ⟨a, ha, hw⟩⟩, hr⟩

theorem ExceptMirror.mapM {r : β → β → Prop} {f g : α → Except ε β} {l l' : List α}
    (h : List.Forall₂ (fun a a' => ExceptMirror r (f a) (g a')) l l') :
    ExceptMirror (List.Forall₂ r) (l.mapM f) (l'.mapM g) := by
  intro ys hys
  rw [mapM_ok_iff] at hys
  simp only [mapM_ok_iff]
  induction h generalizing ys with
  | nil =>
    rw [List.forall₂_nil_left_iff.mp hys]
    exact ⟨[], .nil, .nil⟩
  | cons hhead _ ih =>
    obtain ⟨y, rest, hy, hrest, rfl⟩ := List.forall₂_cons_left_iff.mp hys
    obtain ⟨z, hz, hyz⟩ := hhead y hy
    obtain ⟨zs, hzs, hall⟩ := ih rest hrest
    exact ⟨z :: zs, .cons hz hzs, .cons hyz hall⟩

end Programs

/-! ## Maps and fields -/

section Entries

variable {κ ν : Type} [Ord κ] [TransOrd κ] [LawfulEqOrd κ] {key : ν → κ}

theorem mem_diff_entries {differs : ν → ν → Bool} {removed added : ν → String}
    {changed : ν → ν → String} {map_a map_b : Store key} {line : String} :
    line ∈ diff_entries differs removed changed added map_a map_b ↔
      (∃ k a, map_a.get k = some a ∧ map_b.get k = none ∧ line = removed a) ∨
      (∃ k a b, map_a.get k = some a ∧ map_b.get k = some b ∧ differs a b = true ∧
        line = changed a b) ∨
      ∃ k b, map_a.get k = none ∧ map_b.get k = some b ∧ line = added b := by
  rw [diff_entries, List.mem_append, List.mem_filterMap, List.mem_filterMap, ← or_assoc]
  refine or_congr ⟨?_, ?_⟩ ⟨?_, ?_⟩
  · rintro ⟨a, ha, hline⟩
    have hget := Store.mem_values.mp ha
    cases hb : map_b.get (key a) with
    | none =>
      rw [hb] at hline
      exact .inl ⟨key a, a, hget, hb, (Option.some.inj hline).symm⟩
    | some b =>
      rw [hb] at hline
      by_cases hd : differs a b = true
      · simp only [hd, if_true, Option.some.injEq] at hline
        exact .inr ⟨key a, a, b, hget, hb, hd, hline.symm⟩
      · simp [hd] at hline
  · rintro (⟨k, a, ha, hb, rfl⟩ | ⟨k, a, b, ha, hb, hd, rfl⟩)
    · refine ⟨a, Store.mem_values_of_get ha, ?_⟩
      rw [Store.key_of_get ha, hb]
    · refine ⟨a, Store.mem_values_of_get ha, ?_⟩
      rw [Store.key_of_get ha, hb]
      exact if_pos hd
  · rintro ⟨b, hb, hline⟩
    have hget := Store.mem_values.mp hb
    cases ha : map_a.get (key b) with
    | none =>
      rw [ha] at hline
      exact ⟨key b, b, ha, hget, (Option.some.inj hline).symm⟩
    | some a =>
      rw [ha] at hline
      simp at hline
  · rintro ⟨k, b, ha, hb, rfl⟩
    refine ⟨b, Store.mem_values_of_get hb, ?_⟩
    rw [Store.key_of_get hb, ha]
    rfl

/-- **A diff of two maps mirrors** if its lines do. -/
theorem diff_entries_mirror {differs : ν → ν → Bool} {removed added : ν → String}
    {changed : ν → ν → String} {map_a map_b : Store key}
    (hdiffers : ∀ a b, differs a b = differs b a) (hsigns : ∀ v, Mirror (added v) (removed v))
    (hchanged : ∀ a b, Plain (changed a b)) :
    LinesMirror (diff_entries differs removed changed added map_a map_b)
      (diff_entries differs removed changed added map_b map_a) := by
  have hleft : ∀ {map_a map_b : Store key}, ∀ x ∈ diff_entries differs removed changed added map_a
      map_b, ∃ y ∈ diff_entries differs removed changed added map_b map_a, Mirror x y := by
    intro map_a map_b x hx
    simp only [mem_diff_entries] at hx ⊢
    rcases hx with ⟨k, a, ha, hb, rfl⟩ | ⟨k, a, b, ha, hb, hd, rfl⟩ | ⟨k, b, ha, hb, rfl⟩
    · exact ⟨added a, .inr (.inr ⟨k, a, hb, ha, rfl⟩), (hsigns a).symm⟩
    · refine ⟨changed b a, .inr (.inl ⟨k, b, a, hb, ha, ?_, rfl⟩),
        (hchanged a b).mirror (hchanged b a)⟩
      rw [hdiffers, hd]
    · exact ⟨removed b, .inl ⟨k, b, hb, ha, rfl⟩, hsigns b⟩
  refine ⟨hleft, fun y hy => ?_⟩
  obtain ⟨x, hx, hyx⟩ := hleft y hy
  exact ⟨x, hx, hyx.symm⟩

variable [DecidableEq κ]

theorem key_lines_mirror {map_a map_b : Store key} {line : κ → Option ν → Option ν → List String}
    (h : ∀ k x y, LinesMirror (line k x y) (line k y x)) :
    LinesMirror
      ((key_set map_a map_b).flatMap fun k => line k (map_a.get k) (map_b.get k))
      ((key_set map_b map_a).flatMap fun k => line k (map_b.get k) (map_a.get k)) := by
  refine .flatMap (fun k => ?_) fun k _ => h k _ _
  rw [mem_key_set, mem_key_set, or_comm]

end Entries

theorem plain_change_line (label before after : String) : Plain (change_line label before after) :=
  ((((plain_change label).append ": ").append before).append " -> ").append after

/-- One line if two values differ. -/
theorem changed_if_mirror {p q : Prop} [Decidable p] [Decidable q] {x y : String} (hpq : p ↔ q)
    (hx : Plain x) (hy : Plain y) :
    LinesMirror (if p then [x] else []) (if q then [y] else []) := by
  by_cases hp : p
  · rw [if_pos hp, if_pos (hpq.mp hp)]
    exact .singleton (hx.mirror hy)
  · rw [if_neg hp, if_neg fun hq => hp (hpq.mpr hq)]
    exact .nil

/-- A line for every element by which two values differ. -/
theorem changed_lines_mirror {α : Type} {l : List α} {p q : α → Prop} [DecidablePred p]
    [DecidablePred q] {f g : α → String} (hpq : ∀ a, p a ↔ q a) (hf : ∀ a, Plain (f a))
    (hg : ∀ a, Plain (g a)) :
    LinesMirror (l.filterMap fun a => if p a then some (f a) else none)
      (l.filterMap fun a => if q a then some (g a) else none) := by
  refine ⟨fun x hx => ?_, fun y hy => ?_⟩
  · obtain ⟨a, ha, hline⟩ := List.mem_filterMap.mp hx
    by_cases hp : p a
    · rw [if_pos hp, Option.some.injEq] at hline
      refine ⟨g a, List.mem_filterMap.mpr ⟨a, ha, if_pos ((hpq a).mp hp)⟩, ?_⟩
      rw [← hline]
      exact (hf a).mirror (hg a)
    · rw [if_neg hp] at hline
      cases hline
  · obtain ⟨a, ha, hline⟩ := List.mem_filterMap.mp hy
    by_cases hq : q a
    · rw [if_pos hq, Option.some.injEq] at hline
      refine ⟨f a, List.mem_filterMap.mpr ⟨a, ha, if_pos ((hpq a).mpr hq)⟩, ?_⟩
      rw [← hline]
      exact (hf a).mirror (hg a)
    · rw [if_neg hq] at hline
      cases hline

section Values

variable [DiffJson]

theorem field_changes_mirror (label : String → String)
    (read_a read_b : String → ReproductionJson.Value) (fields : List String) :
    LinesMirror (field_changes label read_a read_b fields)
      (field_changes label read_b read_a fields) := by
  refine changed_lines_mirror (fun _ => ne_comm) (fun field => ?_) fun field => ?_
  · exact ((((plain_change _).append _).append _).append _).append _
  · exact ((((plain_change _).append _).append _).append _).append _

theorem compare_indexes_mirror {a b : IndexedSide} {category : String}
    {findings : Index → Index → Findings}
    (h : ∀ ia ib, FindingsMirror (findings ia ib) (findings ib ia)) :
    ResultMirror (compare_indexes a b category findings)
      (compare_indexes b a category findings) := by
  unfold compare_indexes require_indexes
  cases a.index with
  | Ok ia =>
    cases b.index with
    | Ok ib => exact (h ia ib).report category
    | Missing => exact unverifiable_mirror _ _ _
    | Unparseable => exact unverifiable_mirror _ _ _
  | Missing => cases b.index <;> exact unverifiable_mirror _ _ _
  | Unparseable => cases b.index <;> exact unverifiable_mirror _ _ _

/-! ## Content -/

theorem dal_line_mirror (krate : String) (la lb : Option (String × ReproductionJson.Value)) :
    LinesMirror (dal_line krate la lb) (dal_line krate lb la) := by
  have hsign : Mirror "+ dal_map[" "- dal_map[" := .inl ⟨_, rfl, rfl⟩
  have hlabel := fun v : ReproductionJson.Value =>
    ((hsign.append krate).append "]: ").append (value_label v)
  have hplain : Plain "~ dal_map[" := ⟨_, _, rfl, by decide, by decide⟩
  cases la with
  | none =>
    cases lb with
    | none => exact .nil
    | some lb => exact .singleton (hlabel lb.2)
  | some la =>
    cases lb with
    | none => exact .singleton (hlabel la.2).symm
    | some lb =>
      refine changed_if_mirror ne_comm ?_ ?_
      · exact (((((hplain.append _).append _).append _).append _).append _)
      · exact (((((hplain.append _).append _).append _).append _).append _)

theorem scope_mirror (a b : IndexedSide) : ResultMirror (scope a b) (scope b a) := by
  refine compare_indexes_mirror fun ia ib => .differences ?_
  exact ((field_changes_mirror _ _ _ _).append (key_lines_mirror dal_line_mirror)).append
    (field_changes_mirror _ _ _ _)

theorem compare_recipe_fields_comm (base cand : ReproductionJson.Value) :
    compare_recipe_fields base cand = compare_recipe_fields cand base := by
  unfold compare_recipe_fields
  refine congrArg (List.map Prod.snd) (List.filter_congr fun field _ => ?_)
  simp only [ne_eq, eq_comm]

theorem recipe_mirror (a b : FileTree) : ExceptMirror ResultMirror (recipe a b) (recipe b a) := by
  refine .both fun ra rb _ _ => ?_
  cases ra with
  | none => cases rb <;> exact .ok (unverifiable_mirror _ _ _)
  | some ra =>
    cases rb with
    | none => exact .ok (unverifiable_mirror _ _ _)
    | some rb =>
      refine .ok (FindingsMirror.report (.differences ?_) _)
      rw [compare_recipe_fields_comm rb ra]
      exact .map fun field _ => (plain_change field).mirror (plain_change field)

omit [DiffJson] in
/-- Two planes differ whichever comes first. -/
theorem plane_lines_eq_nil_comm (ma mb : DigestMap) :
    plane_lines (diff_digest_planes ma mb) = [] ↔ plane_lines (diff_digest_planes mb ma) = [] := by
  rw [plane_lines_eq_nil_iff, plane_lines_eq_nil_iff]
  refine forall_congr' fun path => ?_
  constructor
  · rintro ⟨heq, hformed⟩
    exact ⟨heq.symm, heq ▸ hformed⟩
  · rintro ⟨heq, hformed⟩
    exact ⟨heq.symm, heq ▸ hformed⟩

theorem digest_plane_mirror (a b : FileTree) (category : String) :
    ExceptMirror StatusMirror (digest_plane a b category) (digest_plane b a category) := by
  refine .both fun pa pb _ _ => ?_
  cases pa with
  | Unavailable => cases pb <;> exact .ok (unverifiable_mirror _ _ _).toStatusMirror
  | Loaded ma =>
    cases pb with
    | Unavailable => exact .ok (unverifiable_mirror _ _ _).toStatusMirror
    | Loaded mb =>
      refine .ok ⟨rfl, ?_⟩
      have hnil := plane_lines_eq_nil_comm ma mb
      simp only [Findings.report, Findings.differences]
      by_cases hlines : plane_lines (diff_digest_planes ma mb) = []
      · rw [hlines, hnil.mp hlines]
        rfl
      · rw [List.isEmpty_eq_false_iff.mpr hlines,
          List.isEmpty_eq_false_iff.mpr fun h => hlines (hnil.mpr h)]
        rfl

end Values

/-! ## The trace graph and the tests -/

section Loads

theorem entry_line_mirror [TomlJson] (file : String) (entry : TraceEntry) :
    Mirror (entry_line "+" file entry) (entry_line "-" file entry) := by
  have hsign : Mirror "+" "-" := .inl ⟨[], rfl, rfl⟩
  exact (((hsign.append " ").append file).append ": ").append entry.id

theorem plain_entry_line [TomlJson] (file : String) (entry : TraceEntry) :
    Plain (entry_line "~" file entry) := by
  have hsign : Plain "~" := ⟨'~', [], rfl, by decide, by decide⟩
  exact (((hsign.append " ").append file).append ": ").append entry.id

/-- Lines of a side that alone has a file, under a note. -/
theorem noted_lines_mirror {α : Type} {l : List α} {f g : α → String} {x y : String}
    (hx : Plain x) (hy : Plain y) (h : ∀ a ∈ l, Mirror (f a) (g a)) :
    LinesMirror (x :: l.map f) (y :: l.map g) :=
  (LinesMirror.singleton (hx.mirror hy)).append (.map h)

theorem entry_findings_mirror [TomlJson] (file : String) (ea eb : Load TraceEntries) :
    FindingsMirror (entry_findings file ea eb) (entry_findings file eb ea) := by
  have hnote : Plain "! trace/" := ⟨_, _, rfl, by decide, by decide⟩
  have hplain : ∀ tail : String, Plain ("! trace/" ++ file ++ tail) :=
    fun tail => (hnote.append file).append tail
  cases ea with
  | Unparseable => cases eb <;> exact .unexamined (hplain _) (hplain _)
  | Missing =>
    cases eb with
    | Unparseable => exact .unexamined (hplain _) (hplain _)
    | Missing => exact .differences .nil
    | Ok map =>
      exact .differences (noted_lines_mirror (hplain _) (hplain _)
        fun entry _ => entry_line_mirror file entry)
  | Ok map_a =>
    cases eb with
    | Unparseable => exact .unexamined (hplain _) (hplain _)
    | Missing =>
      exact .differences (noted_lines_mirror (hplain _) (hplain _)
        fun entry _ => (entry_line_mirror file entry).symm)
    | Ok map_b =>
      refine .differences (diff_entries_mirror (fun x y => ?_) (entry_line_mirror file)
        fun x _ => plain_entry_line file x)
      exact decide_eq_decide.mpr ne_comm

theorem matrix_findings_mirror (matrix_a matrix_b : Bool) :
    FindingsMirror (matrix_findings matrix_a matrix_b) (matrix_findings matrix_b matrix_a) := by
  have hsign : Plain "~ trace/matrix.md: " := ⟨_, _, rfl, by decide, by decide⟩
  refine .differences (changed_if_mirror ne_comm ?_ ?_)
  · exact ((hsign.append _).append _).append _
  · exact ((hsign.append _).append _).append _

theorem trace_graph_mirror [TomlJson] (a b : FileTree) :
    ExceptMirror ResultMirror (trace_graph a b) (trace_graph b a) := by
  unfold trace_graph
  cases is_dir a "trace" with
  | false => cases is_dir b "trace" <;> exact .ok (unverifiable_mirror _ _ _)
  | true =>
    cases is_dir b "trace" with
    | false => exact .ok (unverifiable_mirror _ _ _)
    | true =>
      have hfiles : ExceptMirror (List.Forall₂ FindingsMirror)
          (TRACE_FILES.mapM (file_findings a b)) (TRACE_FILES.mapM (file_findings b a)) := by
        refine .mapM (List.forall₂_same.mpr fun file _ => ?_)
        unfold file_findings
        exact .both fun ea eb _ _ => .ok (entry_findings_mirror file ea eb)
      intro diff hdiff
      obtain ⟨findings, hfindings, hdiff⟩ := bind_ok_iff.mp hdiff
      obtain ⟨others, hothers, hall⟩ := hfiles findings hfindings
      refine ⟨_, bind_ok_iff.mpr ⟨others, hothers, rfl⟩, ?_⟩
      rw [← Except.ok.inj hdiff]
      exact (FindingsMirror.foldr hall (matrix_findings_mirror _ _)).report _

theorem log_findings_mirror (file : String) (la lb : Bool) :
    FindingsMirror (log_findings file la lb) (log_findings file lb la) := by
  refine .differences (changed_if_mirror ne_comm ?_ ?_)
  · exact plain_change_line _ _ _
  · exact plain_change_line _ _ _

theorem row_line_mirror (row : TestOutcomeRecord) :
    Mirror (row_line "+" row) (row_line "-" row) := by
  have hsign : Mirror "+" "-" := .inl ⟨[], rfl, rfl⟩
  exact ((((hsign.append " ").append _).append " (").append _).append ")"

theorem outcome_findings_mirror (oa ob : Load (List TestOutcomeRecord)) :
    FindingsMirror (outcome_findings oa ob) (outcome_findings ob oa) := by
  have hunparseable_a : Plain "! tests/test_outcomes.jsonl unparseable in bundle A" :=
    ⟨_, _, rfl, by decide, by decide⟩
  have hunparseable_b : Plain "! tests/test_outcomes.jsonl unparseable in bundle B" :=
    ⟨_, _, rfl, by decide, by decide⟩
  have habsent_a : Plain "! tests/test_outcomes.jsonl absent in bundle A" :=
    ⟨_, _, rfl, by decide, by decide⟩
  have habsent_b : Plain "! tests/test_outcomes.jsonl absent in bundle B" :=
    ⟨_, _, rfl, by decide, by decide⟩
  cases oa with
  | Unparseable =>
    cases ob with
    | Unparseable => exact .unexamined hunparseable_a hunparseable_a
    | Missing => exact .unexamined hunparseable_a hunparseable_b
    | Ok rows => exact .unexamined hunparseable_a hunparseable_b
  | Missing =>
    cases ob with
    | Unparseable => exact .unexamined hunparseable_b hunparseable_a
    | Missing => exact .differences .nil
    | Ok rows =>
      exact .differences (noted_lines_mirror habsent_a habsent_b fun row _ => row_line_mirror row)
  | Ok ra =>
    cases ob with
    | Unparseable => exact .unexamined hunparseable_b hunparseable_a
    | Missing =>
      exact .differences (noted_lines_mirror habsent_b habsent_a
        fun row _ => (row_line_mirror row).symm)
    | Ok rb =>
      refine .differences (diff_entries_mirror (fun x y => bne_comm) row_line_mirror fun x y => ?_)
      exact plain_change_line _ _ _

theorem summary_findings_mirror (sa sb : Option TestSummary) :
    FindingsMirror (summary_findings sa sb) (summary_findings sb sa) := by
  have hcount : ∀ label before after : String,
      Plain ("~ test_summary." ++ label ++ ": " ++ before ++ " -> " ++ after) := by
    intro label before after
    have hsign : Plain "~ test_summary." := ⟨_, _, rfl, by decide, by decide⟩
    exact ((((hsign.append _).append _).append _).append _).append _
  have hpresence : ∀ before after : String,
      Plain ("~ test_summary: " ++ before ++ " -> " ++ after) := by
    intro before after
    have hsign : Plain "~ test_summary: " := ⟨_, _, rfl, by decide, by decide⟩
    exact ((hsign.append _).append _).append _
  cases sa with
  | none =>
    cases sb with
    | none => exact .differences .nil
    | some sb => exact .differences (.singleton ((hpresence _ _).mirror (hpresence _ _)))
  | some sa =>
    cases sb with
    | none => exact .differences (.singleton ((hpresence _ _).mirror (hpresence _ _)))
    | some sb =>
      have hline : ∀ {label x : String} {va vb : UInt32},
          (if va ≠ vb then some ("~ test_summary." ++ label ++ ": " ++ decimal va.toNat ++ " -> " ++
            decimal vb.toNat) else none) = some x → Plain x := by
        intro label x va vb h
        split at h
        · rw [← Option.some.inj h]
          exact hcount _ _ _
        · cases h
      refine .differences (.of_plain (fun x hx => ?_) (fun x hx => ?_) ?_)
      · obtain ⟨_, -, hx⟩ := List.mem_filterMap.mp hx
        exact hline hx
      · obtain ⟨_, -, hx⟩ := List.mem_filterMap.mp hx
        exact hline hx
      rw [← Findings.differences_silent, ← Findings.differences_silent]
      have hsilent := @summary_findings_silent (some sa) (some sb)
      have hsilent' := @summary_findings_silent (some sb) (some sa)
      exact hsilent.trans (eq_comm.trans hsilent'.symm)

theorem compare_tests_mirror (ta tb : TestSide) :
    ResultMirror (compare_tests ta tb) (compare_tests tb ta) := by
  have honly : ∀ label tail : String,
      Plain ("test evidence present only in bundle " ++ label ++ tail) := fun label tail =>
    (Plain.append ⟨_, _, rfl, by decide, by decide⟩ label).append tail
  have hfindings : FindingsMirror (test_findings ta tb) (test_findings tb ta) :=
    (summary_findings_mirror _ _).add ((outcome_findings_mirror _ _).add
      ((log_findings_mirror _ _ _).add (log_findings_mirror _ _ _)))
  unfold compare_tests
  cases ta.has_data with
  | false =>
    cases tb.has_data with
    | false =>
      refine ⟨⟨rfl, rfl⟩, .singleton (Plain.mirror ?_ ?_)⟩
      · exact ⟨_, _, rfl, by decide, by decide⟩
      · exact ⟨_, _, rfl, by decide, by decide⟩
    | true => exact ⟨⟨rfl, rfl⟩, .singleton ((honly "B: " _).mirror (honly "A: " _))⟩
  | true =>
    cases tb.has_data with
    | false => exact ⟨⟨rfl, rfl⟩, .singleton ((honly "A: " _).mirror (honly "B: " _))⟩
    | true => exact hfindings.report "tests"

theorem tests_mirror [SerdeJson] (a b : Side) :
    ExceptMirror ResultMirror (tests a b) (tests b a) :=
  .both fun ta tb _ _ => .ok (compare_tests_mirror ta tb)

/-- A file whose presence differs. -/
def presence_lines (a b : FileTree) (label rel : String) : List String :=
  if is_file a rel ≠ is_file b rel then
    [change_line label (presence_label (is_file a rel)) (presence_label (is_file b rel))]
  else []

theorem integrity_details (a b : FileTree) : (integrity a b).details =
    presence_lines a b "signature (BUNDLE.sig)" "BUNDLE.sig" ++
      presence_lines a b "SHA256SUMS" "SHA256SUMS" := by
  unfold integrity presence_lines
  simp only [List.filterMap_cons, List.filterMap_nil]
  by_cases hsig : is_file a "BUNDLE.sig" = is_file b "BUNDLE.sig"
  · by_cases hsums : is_file a "SHA256SUMS" = is_file b "SHA256SUMS" <;>
      simp [hsig, hsums, change_line]
  · by_cases hsums : is_file a "SHA256SUMS" = is_file b "SHA256SUMS" <;>
      simp [hsig, hsums, change_line]

theorem integrity_mirror (a b : FileTree) : ResultMirror (integrity a b) (integrity b a) := by
  have hline : ∀ label rel : String,
      LinesMirror (presence_lines a b label rel) (presence_lines b a label rel) :=
    fun label rel => changed_if_mirror ne_comm (plain_change_line _ _ _) (plain_change_line _ _ _)
  have hlines : LinesMirror (integrity a b).details (integrity b a).details := by
    rw [integrity_details, integrity_details]
    exact (hline _ _).append (hline _ _)
  have hnil := hlines.eq_nil_iff
  have hstatus : ∀ a b : FileTree, (integrity a b).status =
      if (integrity a b).details.isEmpty then .Equal else .Changed := fun _ _ => rfl
  refine ⟨⟨rfl, ?_⟩, hlines⟩
  rw [hstatus, hstatus]
  by_cases h : (integrity a b).details = []
  · rw [h, hnil.mp h]
    rfl
  · rw [List.isEmpty_eq_false_iff.mpr h, List.isEmpty_eq_false_iff.mpr fun h' => h (hnil.mpr h')]
    rfl

theorem reviews_approvals_mirror : ResultMirror reviews_approvals reviews_approvals :=
  unverifiable_mirror _ _ _

end Loads

end Evidence.Diff
