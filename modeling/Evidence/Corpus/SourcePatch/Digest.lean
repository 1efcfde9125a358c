/-
`corpus/source_patch/digest.rs` -- the reviewed-content encoding of a curated
patch and the canonical digest of a source graph.

The encoding frames the four bindings, the number of operations, and the
operations in ordinal order: every string under its length, every optional
string under a length or the all-ones sentinel, an inserted node's locator as its
canonical rendering. Two patches encode alike exactly when their bindings are the
same and so are their operations, whatever order the records list them in and
whatever their metadata says (`reviewed_content_bytes_eq_iff`).
-/
import Evidence.Framing
import Evidence.Corpus.SourceGraph.Render
import Evidence.Corpus.SourcePatch.Basic

set_option autoImplicit false

namespace Evidence.Corpus

open Codec Sorting

/-! ## The encoding -/

/-- Domain/version tag prefixing the reviewed-content encoding. -/
def REVIEWED_DOMAIN_TAG : List UInt8 := str_bytes "evidence/curated-patch/v1"

/-- Domain/version tag prefixing the canonical source-graph digest. -/
def GRAPH_DOMAIN_TAG : List UInt8 := str_bytes "evidence/source-graph-digest/v1"

/-- The child disposition's snake_case wire name. -/
def child_disposition_tag : ChildDisposition → String
  | .ReparentChildren => "reparent_children"
  | .RemoveSubtree => "remove_subtree"

section Encoding

variable [F64Display]

def push_operation_fields : PatchOperation → List UInt8
  | .ReplaceContent _ target_uid expected_content_sha256 new_canonical_text new_label =>
    push_str target_uid ++ push_str expected_content_sha256.as_str ++
      push_opt new_canonical_text ++ push_opt new_label
  | .Reclassify _ target_uid expected_kind new_kind =>
    push_str target_uid ++ push_str expected_kind.as_str ++ push_str new_kind.as_str
  | .Reparent _ target_uid expected_parent_uid expected_ordinal new_parent_uid new_ordinal =>
    push_str target_uid ++ push_opt expected_parent_uid ++ push_count expected_ordinal.toNat ++
      push_opt new_parent_uid ++ push_count new_ordinal.toNat
  | .Insert _ expected_parent_uid node =>
    push_opt expected_parent_uid ++ push_str node.uid ++ push_str node.kind.as_str ++
      push_count node.ordinal.toNat ++ push_opt node.label ++ push_str node.canonical_text ++
      push_str (render_locator_fields node.locator)
  | .Remove _ target_uid expected_digest child_disposition =>
    push_str target_uid ++ push_str expected_digest.as_str ++
      push_str (child_disposition_tag child_disposition)

/-- One operation: its wire tag, ordinal, and per-variant fields. -/
def push_operation (operation : PatchOperation) : List UInt8 :=
  push_str operation.op_tag ++ push_count operation.ordinal.toNat ++
    push_operation_fields operation

/-- The operations in canonical ordinal order. -/
def ordered_operations (operations : List PatchOperation) : List PatchOperation :=
  sortBy (compareOn PatchOperation.ordinal) operations

/-- Encode a record's canonical patch intent. -/
def reviewed_content_bytes (record : SourcePatchRecord) : List UInt8 :=
  REVIEWED_DOMAIN_TAG ++ [0] ++ push_str record.source_revision_uid ++
    push_str record.recipe_digest.as_str ++ push_str record.input_digest.as_str ++
    push_str record.pre_patch_graph_digest.as_str ++ push_count record.operations.length ++
    (ordered_operations record.operations).flatMap push_operation

def reviewed_content_digest [Sha256] (record : SourcePatchRecord) : StructuralContentDigest :=
  .of_bytes (reviewed_content_bytes record)

/-- The bytes `source_graph_digest` hashes. -/
def graph_digest_bytes (graph : SourceGraph) : List UInt8 :=
  GRAPH_DOMAIN_TAG ++ [0] ++ render_sorted_nodes graph.values

theorem graph_digest_bytes_eq_flatMap (graph : SourceGraph) :
    graph_digest_bytes graph = GRAPH_DOMAIN_TAG ++ [0] ++
      (text "schema_version = 1\n" ++ (sortBy uid_cmp graph.values).flatMap render_node).flatMap
        String.utf8EncodeChar := by
  rw [graph_digest_bytes, render_sorted_nodes, str_bytes_eq_flatMap, String.toList_ofList]

/-- The canonical digest of one source revision's committed graph. -/
def source_graph_digest [Sha256] (graph : SourceGraph) : StructuralContentDigest :=
  .of_bytes (graph_digest_bytes graph)

end Encoding

/-! ## What an encoding shows -/

inductive RenderedOperation where
  | ReplaceContent (ordinal : UInt32) (target_uid : String)
      (expected_content_sha256 : StructuralContentDigest) (new_canonical_text : Option String)
      (new_label : Option String)
  | Reclassify (ordinal : UInt32) (target_uid : String) (expected_kind new_kind : SourceNodeKind)
  | Reparent (ordinal : UInt32) (target_uid : String) (expected_parent_uid : Option String)
      (expected_ordinal : UInt32) (new_parent_uid : Option String) (new_ordinal : UInt32)
  | Insert (ordinal : UInt32) (expected_parent_uid : Option String) (uid : String)
      (kind : SourceNodeKind) (node_ordinal : UInt32) (label : Option String)
      (canonical_text : String) (locator : RenderedLocator)
  | Remove (ordinal : UInt32) (target_uid : String) (expected_digest : StructuralContentDigest)
      (child_disposition : ChildDisposition)
deriving DecidableEq

def RenderedOperation.ordinal : RenderedOperation → UInt32
  | ReplaceContent ordinal .. => ordinal
  | Reclassify ordinal .. => ordinal
  | Reparent ordinal .. => ordinal
  | Insert ordinal .. => ordinal
  | Remove ordinal .. => ordinal

/-- What the encoding shows of an operation: all of it, the bounding box of an
inserted PDF locator through its text. -/
def PatchOperation.rendered [F64Display] : PatchOperation → RenderedOperation
  | .ReplaceContent ordinal target_uid expected new_canonical_text new_label =>
    .ReplaceContent ordinal target_uid expected new_canonical_text new_label
  | .Reclassify ordinal target_uid expected_kind new_kind =>
    .Reclassify ordinal target_uid expected_kind new_kind
  | .Reparent ordinal target_uid expected_parent_uid expected_ordinal new_parent_uid new_ordinal =>
    .Reparent ordinal target_uid expected_parent_uid expected_ordinal new_parent_uid new_ordinal
  | .Insert ordinal expected_parent_uid node =>
    .Insert ordinal expected_parent_uid node.uid node.kind node.ordinal node.label
      node.canonical_text node.locator.rendered
  | .Remove ordinal target_uid expected_digest child_disposition =>
    .Remove ordinal target_uid expected_digest child_disposition

/-! ## Field lengths -/

def PatchOperation.FieldsFit [F64Display] : PatchOperation → Prop
  | .ReplaceContent _ target_uid _ new_canonical_text new_label =>
    Fits target_uid ∧ FitsOpt new_canonical_text ∧ FitsOpt new_label
  | .Reclassify _ target_uid _ _ => Fits target_uid
  | .Reparent _ target_uid expected_parent_uid _ new_parent_uid _ =>
    Fits target_uid ∧ FitsOpt expected_parent_uid ∧ FitsOpt new_parent_uid
  | .Insert _ expected_parent_uid node =>
    FitsOpt expected_parent_uid ∧ Fits node.uid ∧ FitsOpt node.label ∧
      Fits node.canonical_text ∧ Fits (render_locator_fields node.locator)
  | .Remove _ target_uid _ _ => Fits target_uid

/-- The lengths a record encodes are below `2^64 - 1`: its strings, and the
number of its operations. -/
def SourcePatchRecord.FieldsFit [F64Display] (record : SourcePatchRecord) : Prop :=
  Fits record.source_revision_uid ∧ record.operations.length < NONE_SENTINEL ∧
    ∀ operation ∈ record.operations, operation.FieldsFit

theorem fits_digest (digest : StructuralContentDigest) : Fits digest.as_str := by
  have hvalid := digest.valid
  rw [is_valid_digest_hex, Bool.and_eq_true, beq_iff_eq] at hvalid
  rw [Fits, hvalid.1]
  decide

theorem fits_kind (kind : SourceNodeKind) : Fits kind.as_str := by
  cases kind <;> decide +kernel

theorem fits_op_tag (operation : PatchOperation) : Fits operation.op_tag := by
  cases operation with
  | ReplaceContent => exact (by decide +kernel : Fits "replace_content")
  | Reclassify => exact (by decide +kernel : Fits "reclassify")
  | Reparent => exact (by decide +kernel : Fits "reparent")
  | Insert => exact (by decide +kernel : Fits "insert")
  | Remove => exact (by decide +kernel : Fits "remove")

theorem fits_child_disposition_tag (disposition : ChildDisposition) :
    Fits (child_disposition_tag disposition) := by
  cases disposition <;> decide +kernel

/-- A framed ordinal reads back. -/
theorem push_ordinal_inj {n m : UInt32} {s t : List UInt8}
    (h : push_count n.toNat ++ s = push_count m.toNat ++ t) : n = m ∧ s = t := by
  have hlt : ∀ k : UInt32, k.toNat < 2 ^ 64 := fun k => by have := k.toNat_lt; omega
  obtain ⟨hnm, hst⟩ := push_count_inj (hlt n) (hlt m) h
  exact ⟨UInt32.toNat_inj.mp hnm, hst⟩

theorem push_digest_inj {d e : StructuralContentDigest} {s t : List UInt8}
    (h : push_str d.as_str ++ s = push_str e.as_str ++ t) : d = e ∧ s = t := by
  obtain ⟨hde, hst⟩ := push_str_inj (fits_digest d) (fits_digest e) h
  exact ⟨StructuralContentDigest.ext_iff.mpr hde, hst⟩

theorem push_kind_inj {k l : SourceNodeKind} {s t : List UInt8}
    (h : push_str k.as_str ++ s = push_str l.as_str ++ t) : k = l ∧ s = t := by
  obtain ⟨hkl, hst⟩ := push_str_inj (fits_kind k) (fits_kind l) h
  exact ⟨SourceNodeKind.as_str_inj hkl, hst⟩

theorem child_disposition_tag_inj {d e : ChildDisposition}
    (h : child_disposition_tag d = child_disposition_tag e) : d = e := by
  revert h
  cases d <;> cases e <;> decide

/-! ## Operations read back -/

section Injective

variable [F64Display]

theorem render_locator_fields_inj {a b : SourceLocator}
    (h : render_locator_fields a = render_locator_fields b) : a.rendered = b.rendered :=
  push_locator_reads.view_eq (String.ofList_injective h)

/-- **An operation reads back**, up to the bounding box of an inserted locator. -/
theorem push_operation_inj {a b : PatchOperation} (ha : a.FieldsFit) (hb : b.FieldsFit)
    {s t : List UInt8} (h : push_operation a ++ s = push_operation b ++ t) :
    a.rendered = b.rendered ∧ s = t := by
  simp only [push_operation, List.append_assoc] at h
  obtain ⟨htag, h⟩ := push_str_inj (fits_op_tag a) (fits_op_tag b) h
  obtain ⟨hordinal, h⟩ := push_ordinal_inj h
  cases a with
  | ReplaceContent ordinal target expected text label =>
    cases b with
    | ReplaceContent ordinal' target' expected' text' label' =>
      simp only [push_operation_fields, List.append_assoc] at h
      obtain ⟨htarget, h⟩ := push_str_inj ha.1 hb.1 h
      obtain ⟨hexpected, h⟩ := push_digest_inj h
      obtain ⟨htext, h⟩ := push_opt_inj ha.2.1 hb.2.1 h
      obtain ⟨hlabel, hst⟩ := push_opt_inj ha.2.2 hb.2.2 h
      have hordinal : ordinal = ordinal' := hordinal
      simp only [PatchOperation.rendered, hordinal, htarget, hexpected, htext, hlabel]
      exact ⟨trivial, hst⟩
    | _ => exact absurd htag (by simp [PatchOperation.op_tag])
  | Reclassify ordinal target expected kind =>
    cases b with
    | Reclassify ordinal' target' expected' kind' =>
      simp only [push_operation_fields, List.append_assoc] at h
      obtain ⟨htarget, h⟩ := push_str_inj ha hb h
      obtain ⟨hexpected, h⟩ := push_kind_inj h
      obtain ⟨hkind, hst⟩ := push_kind_inj h
      have hordinal : ordinal = ordinal' := hordinal
      simp only [PatchOperation.rendered, hordinal, htarget, hexpected, hkind]
      exact ⟨trivial, hst⟩
    | _ => exact absurd htag (by simp [PatchOperation.op_tag])
  | Reparent ordinal target expected_parent expected_ordinal parent new_ordinal =>
    cases b with
    | Reparent ordinal' target' expected_parent' expected_ordinal' parent' new_ordinal' =>
      simp only [push_operation_fields, List.append_assoc] at h
      obtain ⟨htarget, h⟩ := push_str_inj ha.1 hb.1 h
      obtain ⟨hexpected, h⟩ := push_opt_inj ha.2.1 hb.2.1 h
      obtain ⟨hprior, h⟩ := push_ordinal_inj h
      obtain ⟨hparent, h⟩ := push_opt_inj ha.2.2 hb.2.2 h
      obtain ⟨hnew, hst⟩ := push_ordinal_inj h
      have hordinal : ordinal = ordinal' := hordinal
      simp only [PatchOperation.rendered, hordinal, htarget, hexpected, hprior, hparent, hnew]
      exact ⟨trivial, hst⟩
    | _ => exact absurd htag (by simp [PatchOperation.op_tag])
  | Insert ordinal parent node =>
    cases b with
    | Insert ordinal' parent' node' =>
      simp only [push_operation_fields, List.append_assoc] at h
      obtain ⟨hp, hu, hl, ht, hr⟩ := ha
      obtain ⟨hp', hu', hl', ht', hr'⟩ := hb
      obtain ⟨hparent, h⟩ := push_opt_inj hp hp' h
      obtain ⟨huid, h⟩ := push_str_inj hu hu' h
      obtain ⟨hkind, h⟩ := push_kind_inj h
      obtain ⟨hnode, h⟩ := push_ordinal_inj h
      obtain ⟨hlabel, h⟩ := push_opt_inj hl hl' h
      obtain ⟨htext, h⟩ := push_str_inj ht ht' h
      obtain ⟨hlocator, hst⟩ := push_str_inj hr hr' h
      have hordinal : ordinal = ordinal' := hordinal
      simp only [PatchOperation.rendered, hordinal, hparent, huid, hkind, hnode, hlabel, htext,
        render_locator_fields_inj hlocator]
      exact ⟨trivial, hst⟩
    | _ => exact absurd htag (by simp [PatchOperation.op_tag])
  | Remove ordinal target expected disposition =>
    cases b with
    | Remove ordinal' target' expected' disposition' =>
      simp only [push_operation_fields, List.append_assoc] at h
      obtain ⟨htarget, h⟩ := push_str_inj ha hb h
      obtain ⟨hexpected, h⟩ := push_digest_inj h
      obtain ⟨hdisposition, hst⟩ := push_str_inj (fits_child_disposition_tag disposition)
        (fits_child_disposition_tag disposition') h
      have hordinal : ordinal = ordinal' := hordinal
      simp only [PatchOperation.rendered, hordinal, htarget, hexpected,
        child_disposition_tag_inj hdisposition]
      exact ⟨trivial, hst⟩
    | _ => exact absurd htag (by simp [PatchOperation.op_tag])

/-- The bytes of an operation depend on what they show. -/
theorem push_operation_congr {a b : PatchOperation} (h : a.rendered = b.rendered) :
    push_operation a = push_operation b := by
  cases a with
  | Insert ordinal parent node =>
    cases b with
    | Insert ordinal' parent' node' =>
      simp only [PatchOperation.rendered, RenderedOperation.Insert.injEq] at h
      obtain ⟨rfl, rfl, huid, hkind, hnode, hlabel, htext, hlocator⟩ := h
      simp only [push_operation, push_operation_fields, PatchOperation.op_tag,
        PatchOperation.ordinal, huid, hkind, hnode, hlabel, htext, render_locator_fields,
        push_locator_congr hlocator]
    | _ => cases h
  | ReplaceContent | Reclassify | Reparent | Remove =>
    cases b <;> cases h
    rfl

theorem rendered_ordinal (operation : PatchOperation) :
    operation.rendered.ordinal = operation.ordinal := by
  cases operation <;> rfl

/-! ## Records -/

private theorem ordered_rendered_sorted {operations : List PatchOperation}
    (h : (operations.map PatchOperation.ordinal).Nodup) :
    ((ordered_operations operations).map PatchOperation.rendered).Pairwise fun a b =>
      compareOn RenderedOperation.ordinal a b = .lt := by
  have hsorted : (ordered_operations operations).Pairwise fun a b =>
      (compareOn PatchOperation.ordinal a b).isLE = true := sortBy_sorted _
  have hnodup : (ordered_operations operations).Pairwise fun a b => a.ordinal ≠ b.ordinal := by
    rw [← List.pairwise_map]
    exact ((sortBy_perm operations).map _).nodup_iff.mpr h
  rw [List.pairwise_map]
  refine (hsorted.and hnodup).imp ?_
  rintro a b ⟨hle, hne⟩
  have hcmp : compare a.ordinal b.ordinal ≠ .eq := fun heq =>
    hne (Std.LawfulEqCmp.compare_eq_iff_eq.mp heq)
  rw [compareOn] at hle
  rw [compareOn, rendered_ordinal, rendered_ordinal]
  revert hle hcmp
  cases compare a.ordinal b.ordinal <;> decide

private theorem ordered_rendered_eq_iff {ops ops' : List PatchOperation}
    (h : (ops.map PatchOperation.ordinal).Nodup) (h' : (ops'.map PatchOperation.ordinal).Nodup) :
    (ordered_operations ops).map PatchOperation.rendered =
        (ordered_operations ops').map PatchOperation.rendered ↔
      (ops.map PatchOperation.rendered).Perm (ops'.map PatchOperation.rendered) := by
  have hperm : ((ordered_operations ops).map PatchOperation.rendered).Perm
      (ops.map PatchOperation.rendered) := (sortBy_perm ops).map _
  have hperm' : ((ordered_operations ops').map PatchOperation.rendered).Perm
      (ops'.map PatchOperation.rendered) := (sortBy_perm ops').map _
  constructor
  · intro heq
    exact hperm.symm.trans (heq ▸ hperm')
  · intro hops
    exact eq_of_perm_of_strict (hperm.trans (hops.trans hperm'.symm)) (ordered_rendered_sorted h)
      (ordered_rendered_sorted h')

/-- **The reviewed-content encoding binds exactly the patch intent.** Records with
distinct operation ordinals and lengths below `2^64 - 1` encode to the same bytes
exactly when they bind the same revision, recipe, input and graph and hold the
same operations up to reordering. The uid, the human id, author, rationale and
creation time do not occur. -/
theorem reviewed_content_bytes_eq_iff {p q : SourcePatchRecord}
    (hp : (p.operations.map PatchOperation.ordinal).Nodup)
    (hq : (q.operations.map PatchOperation.ordinal).Nodup)
    (hpfit : p.FieldsFit) (hqfit : q.FieldsFit) :
    reviewed_content_bytes p = reviewed_content_bytes q ↔
      p.source_revision_uid = q.source_revision_uid ∧ p.recipe_digest = q.recipe_digest ∧
      p.input_digest = q.input_digest ∧ p.pre_patch_graph_digest = q.pre_patch_graph_digest ∧
      (p.operations.map PatchOperation.rendered).Perm
        (q.operations.map PatchOperation.rendered) := by
  obtain ⟨hprevision, hpcount, hpops⟩ := hpfit
  obtain ⟨hqrevision, hqcount, hqops⟩ := hqfit
  rw [← ordered_rendered_eq_iff hp hq]
  constructor
  · intro h
    simp only [reviewed_content_bytes, List.append_assoc] at h
    have h := List.append_cancel_left (List.append_cancel_left h)
    obtain ⟨hrevision, h⟩ := push_str_inj hprevision hqrevision h
    obtain ⟨hrecipe, h⟩ := push_digest_inj h
    obtain ⟨hinput, h⟩ := push_digest_inj h
    obtain ⟨hgraph, h⟩ := push_digest_inj h
    have hsentinel : NONE_SENTINEL < 2 ^ 64 := by decide
    obtain ⟨hcount, h⟩ := push_count_inj (by omega) (by omega) h
    refine ⟨hrevision, hrecipe, hinput, hgraph, ?_⟩
    have hlength : (ordered_operations p.operations).length =
        (ordered_operations q.operations).length := by
      rw [ordered_operations, ordered_operations, (sortBy_perm _).length_eq,
        (sortBy_perm _).length_eq, hcount]
    have hread : ∀ a ∈ ordered_operations p.operations, ∀ b ∈ ordered_operations q.operations,
        ∀ s t, push_operation a ++ s = push_operation b ++ t → a.rendered = b.rendered ∧ s = t := by
      intro a ha b hb s t hab
      exact push_operation_inj (hpops a (mem_sortBy.mp ha)) (hqops b (mem_sortBy.mp hb)) hab
    exact (flatMap_inj_length hread hlength (congrArg (· ++ []) h)).1
  · rintro ⟨hrevision, hrecipe, hinput, hgraph, hops⟩
    have hcount := congrArg List.length hops
    rw [List.length_map, List.length_map, ordered_operations, ordered_operations,
      (sortBy_perm _).length_eq, (sortBy_perm _).length_eq] at hcount
    have hbytes := flatMap_congr_view (fun a b => push_operation_congr) hops
    simp only [reviewed_content_bytes, hrevision, hrecipe, hinput, hgraph, hcount, hbytes]

end Injective

/-! ## Two listings of one patch -/

section Witness

attribute [local instance] F64.exact_display

/-- A digest to fill a field with. -/
private def zero_digest : StructuralContentDigest :=
  ⟨"0000000000000000000000000000000000000000000000000000000000000000", by decide +kernel⟩

/-- A patch that removes two nodes, under an author's name. -/
private def removal_patch (author : String) (operations : List PatchOperation) :
    SourcePatchRecord where
  uid := "patch_00000000-0000-4000-8000-000000000001"
  human_id := "drop-boilerplate"
  source_revision_uid := "src_00000000-0000-4000-8000-000000000001"
  recipe_digest := zero_digest
  input_digest := zero_digest
  pre_patch_graph_digest := zero_digest
  reviewed_content_digest := zero_digest
  author := author
  rationale := "boilerplate"
  created_at := "2024-01-01T00:00:00Z"
  operations := operations

private def remove_header : PatchOperation :=
  .Remove 0 "snode_00000000-0000-4000-8000-000000000001" zero_digest .RemoveSubtree

private def remove_footer : PatchOperation :=
  .Remove 1 "snode_00000000-0000-4000-8000-000000000002" zero_digest .ReparentChildren

private theorem removal_patch_fits (author : String) {operations : List PatchOperation}
    (h : ∀ operation ∈ operations, operation = remove_header ∨ operation = remove_footer)
    (hlen : operations.length < NONE_SENTINEL) : (removal_patch author operations).FieldsFit := by
  refine ⟨(by decide +kernel : Fits "src_00000000-0000-4000-8000-000000000001"), hlen, ?_⟩
  intro operation hoperation
  rcases h operation hoperation with rfl | rfl
  · exact (by decide +kernel : Fits "snode_00000000-0000-4000-8000-000000000001")
  · exact (by decide +kernel : Fits "snode_00000000-0000-4000-8000-000000000002")

/-- The order of a record's operations and its author do not matter. -/
theorem reviewed_content_bytes_reordered :
    reviewed_content_bytes (removal_patch "alice" [remove_header, remove_footer]) =
      reviewed_content_bytes (removal_patch "bob" [remove_footer, remove_header]) :=
  (reviewed_content_bytes_eq_iff (by decide) (by decide)
    (removal_patch_fits "alice" (by simp) (by decide))
    (removal_patch_fits "bob" (by simp) (by decide))).mpr
    ⟨rfl, rfl, rfl, rfl, List.Perm.swap _ _ _⟩

end Witness

end Evidence.Corpus
