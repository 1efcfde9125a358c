/-
The order in which the operations of a patch apply.

`apply_patch` runs the operations as the record stores them. What puts them into
canonical ordinal order is the loader: it sorts the operations of a record file, so
that the layout of the file is nothing the record keeps. A record that was loaded is
therefore the only loaded record among its permutations
(`SourcePatchRecord.Parsed.eq_of_reordered`), while a permutation that was not loaded
may apply in another way.
-/
import Evidence.Corpus.SourcePatch.Preconditions

set_option autoImplicit false

namespace Evidence.Corpus

open Check Sorting

/-- `q` is `p` with its operations stored in another order. -/
def SourcePatchRecord.Reordered (p q : SourcePatchRecord) : Prop :=
  ∃ operations : List PatchOperation, operations.Perm p.operations ∧
    q = { p with operations := operations }

theorem ordered_operations_perm {operations operations' : List PatchOperation}
    (hnodup : (operations.map PatchOperation.ordinal).Nodup)
    (h : operations'.Perm operations) :
    ordered_operations operations' = ordered_operations operations := by
  refine sortBy_congr h fun a ha b hb heq => ?_
  have hordinal : a.ordinal = b.ordinal := Std.LawfulEqCmp.compare_eq_iff_eq.mp heq
  exact List.inj_on_of_nodup_map hnodup (h.mem_iff.mp ha) (h.mem_iff.mp hb) hordinal

theorem SourcePatchRecord.Reordered.reviewed_content_bytes [F64Display] {p q : SourcePatchRecord}
    (h : p.Reordered q) (hnodup : (p.operations.map PatchOperation.ordinal).Nodup) :
    Corpus.reviewed_content_bytes q = Corpus.reviewed_content_bytes p := by
  obtain ⟨operations, hperm, rfl⟩ := h
  simp only [Corpus.reviewed_content_bytes, ordered_operations_perm hnodup hperm, hperm.length_eq]

section Loaded

variable [Sha256] [F64Display] [Formats]

/-- **A loaded record stores its operations in ordinal order**, under distinct ordinals. -/
theorem SourcePatchRecord.Parsed.ordered {p : SourcePatchRecord} (h : p.Parsed) :
    (p.operations.map PatchOperation.ordinal).Nodup ∧
      ordered_operations p.operations = p.operations := by
  obtain ⟨path, file, hload⟩ := h
  obtain ⟨-, -, -, -, -, -, -, -, -, hnodup, -, -, rfl⟩ := admit_source_patch_ok_iff.mp hload
  dsimp only [ordered_operations]
  refine ⟨((sortBy_perm _).map _).nodup_iff.mpr hnodup, ?_⟩
  exact sortBy_eq_self (sortBy_sorted file.patch.operations)

/-- **Loaded records that differ in the order of their operations are equal.** -/
theorem SourcePatchRecord.Parsed.eq_of_reordered {p q : SourcePatchRecord} (hp : p.Parsed)
    (hq : q.Parsed) (h : p.Reordered q) : q = p := by
  obtain ⟨operations, hperm, rfl⟩ := h
  obtain ⟨hnodup, hself⟩ := hp.ordered
  have hsame : operations = p.operations :=
    calc operations = ordered_operations operations := hq.ordered.2.symm
      _ = ordered_operations p.operations := ordered_operations_perm hnodup hperm
      _ = p.operations := hself
  rw [hsame]

/-- **The layout of a record file does not matter**: the file loads as the same record
when its operations are listed in another order. -/
theorem admit_source_patch_reordered {path : String} {file : SourcePatchFile}
    {record patch : SourcePatchRecord} (hload : admit_source_patch path file = .ok record)
    (h : file.patch.Reordered patch) :
    admit_source_patch path { file with patch := patch } = .ok record := by
  obtain ⟨operations, hperm, rfl⟩ := h
  obtain ⟨hschema, huid, hid, hauthor, hrationale, hrevision, hstamp, hne, hfields, hordinals,
    hclaims, hdigest, rfl⟩ := admit_source_patch_ok_iff.mp hload
  refine admit_source_patch_ok_iff.mpr ⟨hschema, huid, hid, hauthor, hrationale, hrevision, hstamp,
    fun hnil => ?_, fun operation hop => hfields operation (hperm.mem_iff.mp hop),
    (hperm.map _).nodup_iff.mpr hordinals, (hperm.map _).nodup_iff.mpr hclaims, hdigest, ?_⟩
  · rw [show operations = [] from hnil] at hperm
    exact hne hperm.symm.eq_nil
  · dsimp only
    rw [ordered_operations_perm hordinals hperm]

end Loaded

/-! ## A patch stored in reverse -/

section Witness

attribute [local instance] fips180 F64.exact_display canonical_formats

/-- The edit and the removal, stored the other way around. -/
def remove_stored_first : SourcePatchRecord :=
  { edit_then_remove with operations := edit_then_remove.operations.reverse }

/-- Stored the other way around, the edit finds its target removed. -/
private theorem remove_stored_first_fails (bindings : PatchBindings) (media_type : String)
    (application : PatchApplication) :
    apply_patch one_paragraph remove_stored_first bindings media_type ≠ .ok application := by
  intro hok
  obtain ⟨-, -, -, -, final, hrun, -, -⟩ := apply_patch_ok_iff.mp hok
  have hrun : Runs (apply_operation remove_stored_first) one_paragraph
      [.Remove 2 "snode_00000000-0000-4000-8000-000000000001" (content_digest .Paragraph "Old.")
          .ReparentChildren,
        .ReplaceContent 1 "snode_00000000-0000-4000-8000-000000000001"
          (content_digest .Paragraph "Old.") (some "New.") none] final := hrun
  cases hrun with
  | cons hremove hrest =>
    cases hrest with
    | cons hreplace _ =>
      cases apply_operation_ok_iff.mp hremove with
      | remove_reparent _ _ =>
        cases apply_operation_ok_iff.mp hreplace with
        | replace_content hget _ =>
          have hbody := reparent_children_body one_paragraph
            "snode_00000000-0000-4000-8000-000000000001"
            "snode_00000000-0000-4000-8000-000000000001"
          rw [if_pos rfl, SourceGraph.body_eq_none, hget] at hbody
          cases hbody

end Witness

end Evidence.Corpus
