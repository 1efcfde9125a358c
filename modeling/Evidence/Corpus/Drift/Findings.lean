/-
`corpus/drift/findings.rs` and `drift/node_locator.rs` -- the closed drift categories, the
typed findings, the report of one comparison, and the comparison of two typed locators.

Findings are sorted by category, in declaration order, then by structural path,
node uid and patch uid. A report without findings is explicit equality.

Of two locators, semantic fields report one finding per field, diagnostic positions one
finding per node. A change of the variant is one semantic finding and ends the comparison.
`Agrees` is the equality the source derives on locators, with the coordinates of a
bounding box compared as `f64`; `compare_locators_eq_nil_iff` says that no field
escapes the comparison.
-/
import Mathlib.Order.Compare
import Evidence.Corpus.SourceGraph.Basic
import Evidence.Lib.Sorting

set_option autoImplicit false

namespace Evidence.Corpus

open Sorting

/-- The closed set of drift categories, in declaration order. -/
inductive DriftCategory where
  | RecipeChangedOrUnavailable
  | VerifiedInputChanged
  | ExtractorOutputChanged
  | NodeAdded
  | NodeRemoved
  | NodeUnreconciled
  | NodeKindChanged
  | NodeParentChanged
  | NodeOrdinalChanged
  | NodeLabelChanged
  | NodeCanonicalTextChanged
  | NodeContentDigestChanged
  | NodeStructuralFingerprintChanged
  | NodeSemanticLocatorChanged
  | DiagnosticLocatorMoved
  | PatchAdded
  | PatchRemoved
  | PatchChanged
  | PatchStale
  | PatchRejected
  | PatchUnappliable
  | ReviewStateChanged
  | EffectiveGraphChanged
  | OutputEqual
deriving DecidableEq

/-- The category-specific typed context of one finding. -/
inductive DriftDetail where
  | PlaneDigest (baseline : String) (candidate : Option String)
  | FieldChange (field committed candidate : String)
  | CandidateOnly
  | CommittedOnly
  | AmbiguousKey (committed_pool : List String)
  | PatchDigest (committed candidate : String)
  | LifecycleStates (committed candidate : String)
  | Failure (message : String)
  | EffectiveDigests (committed candidate : String)
deriving DecidableEq

structure DriftFinding where
  category : DriftCategory
  structural_path : Option String
  node_uid : Option String
  patch_uid : Option String
  detail : DriftDetail
deriving DecidableEq

/-- The order of `sort_key`: category, structural path, node uid, patch uid. -/
def DriftFinding.cmp : DriftFinding → DriftFinding → Ordering :=
  compareLex (compareOn fun finding => finding.category.ctorIdx)
    (compareLex (compareOn DriftFinding.structural_path)
      (compareLex (compareOn DriftFinding.node_uid) (compareOn DriftFinding.patch_uid)))

inductive DriftOutcome where
  | Equal
  | Drifted
deriving DecidableEq

/-- The deterministic, read-only result of one re-ingestion comparison. -/
structure DriftReport where
  source_document : String
  source_revision_uid : String
  findings : List DriftFinding
deriving DecidableEq

/-- `Equal` exactly when no findings were emitted. -/
def DriftReport.outcome (report : DriftReport) : DriftOutcome :=
  if report.findings = [] then .Equal else .Drifted

/-- The findings of a report, as the comparison sorts them. -/
def sorted_findings (findings : List DriftFinding) : List DriftFinding :=
  sortBy DriftFinding.cmp findings

theorem sorted_findings_eq_nil_iff {findings : List DriftFinding} :
    sorted_findings findings = [] ↔ findings = [] := by
  rw [sorted_findings, ← List.length_eq_zero_iff, (sortBy_perm findings).length_eq,
    List.length_eq_zero_iff]

theorem perm_of_sorted_findings_eq {findings findings' : List DriftFinding}
    (h : sorted_findings findings = sorted_findings findings') : findings.Perm findings' := by
  have hsorted : (sorted_findings findings').Perm findings' := sortBy_perm findings'
  rw [← h] at hsorted
  exact (sortBy_perm findings).symm.trans hsorted

theorem DriftReport.outcome_eq_equal_iff {report : DriftReport} :
    report.outcome = .Equal ↔ report.findings = [] := by
  rw [outcome]
  split
  · next h => exact ⟨fun _ => h, fun _ => rfl⟩
  · next h => exact ⟨fun heq => (nomatch heq), fun heq => absurd heq h⟩

/-! ## Equality of locators -/

/-- `==` on bounding boxes: coordinate by coordinate. -/
def bbox_eq (bbox other : Vector F64 4) : Bool :=
  (bbox.toList.zip other.toList).all fun pair => pair.1.eq pair.2

def SourceLocator.Agrees : SourceLocator → SourceLocator → Prop
  | .Markdown path git_blob anchor heading_path byte_range,
    .Markdown c_path c_blob c_anchor c_headings c_range =>
    path = c_path ∧ git_blob = c_blob ∧ anchor = c_anchor ∧ heading_path = c_headings ∧
      byte_range = c_range
  | .Html canonical_url final_url fragment heading_path dom_path,
    .Html c_url c_final c_fragment c_headings c_dom =>
    canonical_url = c_url ∧ final_url = c_final ∧ fragment = c_fragment ∧
      heading_path = c_headings ∧ dom_path = c_dom
  | .Pdf physical_page printed_label bbox, .Pdf c_page c_label c_bbox =>
    physical_page = c_page ∧ printed_label = c_label ∧ bbox_eq bbox c_bbox = true
  | _, _ => False

/-! ## Rendering -/

def render_option (value : Option String) : String := value.getD "<none>"

def render_list (values : List String) : String := "[" ++ ", ".intercalate values ++ "]"

def render_u32_list (values : List UInt32) : String :=
  render_list (values.map fun value => decimal value.toNat)

def render_range (range : UInt64 × UInt64) : String :=
  "[" ++ decimal range.1.toNat ++ ", " ++ decimal range.2.toNat ++ "]"

def change (field committed candidate : String) : DriftDetail :=
  .FieldChange field committed candidate

/-! ## Comparison -/

/-- One changed locator field: its name, and its rendered value on both sides. -/
abbrev FieldChange3 := String × String × String

def field_changes {α : Type} (differs : Bool) (field : String) (render : α → String)
    (committed candidate : α) : List FieldChange3 :=
  if differs then [(field, render committed, render candidate)] else []

theorem field_changes_eq_nil_iff {α : Type} {differs : Bool} {field : String} {render : α → String}
    {committed candidate : α} :
    field_changes differs field render committed candidate = [] ↔ differs = false := by
  cases differs <;> simp [field_changes]

variable [F64Display]

/-- The changed semantic and diagnostic fields between two locators of one variant,
in schema order. -/
def locator_changes : SourceLocator → SourceLocator → List FieldChange3 × List FieldChange3
  | .Markdown path git_blob anchor heading_path byte_range,
    .Markdown c_path c_blob c_anchor c_headings c_range =>
    (field_changes (path ≠ c_path) "path" SafeRelPath.as_str path c_path ++
        field_changes (anchor ≠ c_anchor) "anchor" render_option anchor c_anchor ++
        field_changes (heading_path ≠ c_headings) "heading_path" render_list heading_path c_headings,
      field_changes (git_blob ≠ c_blob) "git_blob" render_option git_blob c_blob ++
        field_changes (byte_range ≠ c_range) "byte_range" render_range byte_range c_range)
  | .Html canonical_url final_url fragment heading_path dom_path,
    .Html c_url c_final c_fragment c_headings c_dom =>
    (field_changes (canonical_url ≠ c_url) "canonical_url" id canonical_url c_url ++
        field_changes (fragment ≠ c_fragment) "fragment" render_option fragment c_fragment ++
        field_changes (heading_path ≠ c_headings) "heading_path" render_list heading_path c_headings,
      field_changes (final_url ≠ c_final) "final_url" render_option final_url c_final ++
        field_changes (dom_path ≠ c_dom) "dom_path" render_u32_list dom_path c_dom)
  | .Pdf physical_page printed_label bbox, .Pdf c_page c_label c_bbox =>
    ([],
      field_changes (physical_page ≠ c_page) "physical_page" (fun page => decimal page.toNat)
          physical_page c_page ++
        field_changes (printed_label ≠ c_label) "printed_label" render_option printed_label
          c_label ++
        field_changes (!bbox_eq bbox c_bbox) "bbox" bbox_text bbox c_bbox)
  -- the caller has reported the change of the variant
  | _, _ => ([], [])

/-- One side of the diagnostic finding. -/
def render_fields (fields : List (String × String)) : String :=
  "; ".intercalate (fields.map fun field => field.1 ++ " = " ++ field.2)

/-- The findings of a pair's locators. -/
def compare_locators (committed candidate : SourceNode) : List (DriftCategory × DriftDetail) :=
  if committed.locator.format_str ≠ candidate.locator.format_str then
    [(.NodeSemanticLocatorChanged,
      change "format" committed.locator.format_str candidate.locator.format_str)]
  else
    let (semantic, diagnostic) := locator_changes committed.locator candidate.locator
    semantic.map (fun entry =>
      (DriftCategory.NodeSemanticLocatorChanged, change entry.1 entry.2.1 entry.2.2)) ++
    if diagnostic = [] then []
    else
      [(.DiagnosticLocatorMoved,
        change "diagnostic_fields"
          (render_fields (diagnostic.map fun entry => (entry.1, entry.2.1)))
          (render_fields (diagnostic.map fun entry => (entry.1, entry.2.2))))]

/-- Within one variant, nothing is listed exactly when the locators agree. -/
theorem locator_changes_eq_nil_iff {committed candidate : SourceLocator}
    (hformat : committed.format_str = candidate.format_str) :
    ((locator_changes committed candidate).1 = [] ∧ (locator_changes committed candidate).2 = []) ↔
      committed.Agrees candidate := by
  cases committed <;> cases candidate <;>
    first | (simp [SourceLocator.format_str] at hformat; done) | skip
  all_goals
    simp only [locator_changes, SourceLocator.Agrees, List.append_eq_nil_iff,
      field_changes_eq_nil_iff, decide_eq_false_iff_not, ne_eq, not_not, Bool.not_eq_false',
      true_and]
  · tauto
  · tauto
  · tauto

/-- **No locator field escapes the comparison.** -/
theorem compare_locators_eq_nil_iff {committed candidate : SourceNode} :
    compare_locators committed candidate = [] ↔ committed.locator.Agrees candidate.locator := by
  rw [compare_locators]
  by_cases hformat : committed.locator.format_str = candidate.locator.format_str
  · rw [if_neg (not_not.mpr hformat), ← locator_changes_eq_nil_iff hformat, List.append_eq_nil_iff,
      List.map_eq_nil_iff]
    refine and_congr_right fun _ => ?_
    split
    · next h => exact ⟨fun _ => h, fun _ => rfl⟩
    · next h => exact ⟨fun heq => (nomatch heq), fun heq => absurd heq h⟩
  · rw [if_pos hformat]
    refine ⟨fun heq => (nomatch heq), fun hagrees => absurd ?_ hformat⟩
    revert hagrees
    cases committed.locator <;> cases candidate.locator <;>
      first | exact fun _ => rfl | exact fun hagrees => hagrees.elim

end Evidence.Corpus
