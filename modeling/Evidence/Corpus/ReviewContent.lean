/-
`corpus/review_content.rs` -- the versioned projection of the requirement content a
review approves, and its digest.

The projection leaves out the uid, the human id and the `Verifies` edges. Its two
set-like lists are sorted and duplicate-free, whichever way it was constructed.

An approval is bound to the digest of the encoding, so it carries over to whatever
encodes alike. That is the same content and nothing else
(`canonical_bytes_v1_eq_iff`): every part is framed by its length or count, and an
absent field by a length that no string has.
-/
import Evidence.Framing
import Evidence.Lib.Sorting
import Evidence.Corpus.Graph.Basic

set_option autoImplicit false

namespace Evidence.Corpus

open Codec Sorting

/-! ## The projection and its encoding -/

/-- Domain/version tag prefixing the v1 encoding. -/
def DOMAIN_TAG_V1 : List UInt8 := str_bytes "evidence/requirement-review-content/v1"

/-- The v1 review-content projection. -/
structure RequirementReviewContentV1 where
  title : String
  layer : RequirementLayer
  description : Option String
  rationale : Option String
  scope : Option String
  category : Option String
  source : Option String
  verification_methods : List String
  derives_from : List String
  safety_impact : Option String
deriving DecidableEq

/-- Sort and deduplicate: the canonical form of a set-like list. -/
def canonical_strings (values : List String) : List String :=
  (sortBy compare values).destutter (· ≠ ·)

/-- Sort and deduplicate both set-like lists. -/
def RequirementReviewContentV1.canonicalize (content : RequirementReviewContentV1) :
    RequirementReviewContentV1 :=
  { content with
    verification_methods := canonical_strings content.verification_methods
    derives_from := canonical_strings content.derives_from }

def RequirementReviewContentV1.from_node (node : RequirementNode) : RequirementReviewContentV1 :=
  canonicalize
    { title := node.title
      layer := node.layer
      description := node.description
      rationale := node.rationale
      scope := node.scope
      category := node.category
      source := node.source
      verification_methods := node.verification_methods
      derives_from := edge_targets .DerivesFrom node.edges
      safety_impact := node.safety_impact }

def CorpusGraph.review_content (graph : CorpusGraph) (uid : String) :
    Option RequirementReviewContentV1 :=
  match graph.get uid with
  | some (.Requirement node) => some (.from_node node)
  | _ => none

/-- Encode a projection in the v1 byte format. -/
def canonical_bytes_v1 (content : RequirementReviewContentV1) : List UInt8 :=
  let methods := canonical_strings content.verification_methods
  let targets := canonical_strings content.derives_from
  DOMAIN_TAG_V1 ++ [0] ++ push_str content.title ++ push_str content.layer.as_str ++
    push_opt content.description ++ push_opt content.rationale ++ push_opt content.scope ++
    push_opt content.category ++ push_opt content.source ++
    push_count methods.length ++ methods.flatMap push_str ++
    push_count targets.length ++ targets.flatMap push_str ++
    push_opt content.safety_impact

def review_content_digest_v1 [Sha256] (content : RequirementReviewContentV1) :
    ReviewContentDigest :=
  .of_bytes (canonical_bytes_v1 content)

/-! ## What the encoding shows -/

theorem RequirementLayer.as_str_inj {k l : RequirementLayer} (h : k.as_str = l.as_str) : k = l := by
  revert h
  cases k <;> cases l <;> decide

theorem RequirementLayer.fits_as_str (layer : RequirementLayer) : Fits layer.as_str := by
  cases layer <;> decide +kernel

theorem mem_canonical_strings {values : List String} {value : String} :
    value ∈ canonical_strings values ↔ value ∈ values :=
  mem_destutter_ne.trans mem_sortBy

/-- **Set-like lists have one canonical form.** -/
theorem canonical_strings_eq_iff {values others : List String} :
    canonical_strings values = canonical_strings others ↔
      ∀ value, value ∈ values ↔ value ∈ others :=
  destutter_sortBy_eq_iff

theorem length_canonical_strings_le (values : List String) :
    (canonical_strings values).length ≤ values.length :=
  calc (canonical_strings values).length
      ≤ (sortBy compare values).length := (List.destutter_sublist _ _).length_le
    _ = values.length := (sortBy_perm values).length_eq

/-- Canonical forms are not changed by a second pass. -/
theorem canonical_strings_idem (values : List String) :
    canonical_strings (canonical_strings values) = canonical_strings values :=
  canonical_strings_eq_iff.mpr fun _ => mem_canonical_strings

/-- A content whose strings and lists the framing can hold: no length is the
sentinel or beyond. -/
structure RequirementReviewContentV1.FieldsFit (content : RequirementReviewContentV1) : Prop where
  title : Fits content.title
  description : FitsOpt content.description
  rationale : FitsOpt content.rationale
  scope : FitsOpt content.scope
  category : FitsOpt content.category
  source : FitsOpt content.source
  methods_count : content.verification_methods.length < NONE_SENTINEL
  methods : ∀ method ∈ content.verification_methods, Fits method
  targets_count : content.derives_from.length < NONE_SENTINEL
  targets : ∀ target ∈ content.derives_from, Fits target
  safety_impact : FitsOpt content.safety_impact

/-- **The encoding is injective on canonical content.** -/
theorem canonical_bytes_v1_inj {a b : RequirementReviewContentV1} (ha : a.FieldsFit)
    (hb : b.FieldsFit) (h : canonical_bytes_v1 a = canonical_bytes_v1 b) :
    a.canonicalize = b.canonicalize := by
  have hcount : ∀ {values : List String}, values.length < NONE_SENTINEL →
      (canonical_strings values).length < 2 ^ 64 := by
    intro values hlength
    have hle := length_canonical_strings_le values
    simp only [NONE_SENTINEL] at hlength
    omega
  have hfits : ∀ {values : List String}, (∀ value ∈ values, Fits value) →
      ∀ value ∈ canonical_strings values, Fits value :=
    fun hall value hvalue => hall value (mem_canonical_strings.mp hvalue)
  have h : canonical_bytes_v1 a ++ [] = canonical_bytes_v1 b ++ [] := congrArg (· ++ []) h
  simp only [canonical_bytes_v1, List.append_assoc] at h
  have h := List.append_cancel_left (List.append_cancel_left h)
  obtain ⟨htitle, h⟩ := push_str_inj ha.title hb.title h
  obtain ⟨hlayer, h⟩ := push_str_inj a.layer.fits_as_str b.layer.fits_as_str h
  obtain ⟨hdescription, h⟩ := push_opt_inj ha.description hb.description h
  obtain ⟨hrationale, h⟩ := push_opt_inj ha.rationale hb.rationale h
  obtain ⟨hscope, h⟩ := push_opt_inj ha.scope hb.scope h
  obtain ⟨hcategory, h⟩ := push_opt_inj ha.category hb.category h
  obtain ⟨hsource, h⟩ := push_opt_inj ha.source hb.source h
  obtain ⟨hmethods, h⟩ := push_strs_inj (hcount ha.methods_count) (hcount hb.methods_count)
    (hfits ha.methods) (hfits hb.methods) h
  obtain ⟨htargets, h⟩ := push_strs_inj (hcount ha.targets_count) (hcount hb.targets_count)
    (hfits ha.targets) (hfits hb.targets) h
  obtain ⟨hsafety, -⟩ := push_opt_inj ha.safety_impact hb.safety_impact h
  simp only [RequirementReviewContentV1.canonicalize, RequirementReviewContentV1.mk.injEq]
  exact ⟨htitle, RequirementLayer.as_str_inj hlayer, hdescription, hrationale, hscope, hcategory,
    hsource, hmethods, htargets, hsafety⟩

theorem canonical_bytes_v1_canonicalize (content : RequirementReviewContentV1) :
    canonical_bytes_v1 content.canonicalize = canonical_bytes_v1 content := by
  simp only [canonical_bytes_v1, RequirementReviewContentV1.canonicalize, canonical_strings_idem]

/-! ## Requirements -/

def RequirementNode.review_fields (node : RequirementNode) : RequirementReviewContentV1 where
  title := node.title
  layer := node.layer
  description := node.description
  rationale := node.rationale
  scope := node.scope
  category := node.category
  source := node.source
  verification_methods := node.verification_methods
  derives_from := edge_targets .DerivesFrom node.edges
  safety_impact := node.safety_impact

theorem from_node_eq (node : RequirementNode) :
    RequirementReviewContentV1.from_node node = node.review_fields.canonicalize :=
  rfl

/-- **An approval binds exactly the reviewed content.** Two requirements encode alike
exactly when they agree on every reviewed field, on the set of their verification
methods, and on the set of their `DerivesFrom` targets; their uids, human ids and
other edges do not enter. -/
theorem canonical_bytes_v1_eq_iff {a b : RequirementNode} (ha : a.review_fields.FieldsFit)
    (hb : b.review_fields.FieldsFit) :
    canonical_bytes_v1 (.from_node a) = canonical_bytes_v1 (.from_node b) ↔
      a.layer = b.layer ∧ a.title = b.title ∧ a.description = b.description ∧
      a.rationale = b.rationale ∧ a.scope = b.scope ∧ a.category = b.category ∧
      a.source = b.source ∧ a.safety_impact = b.safety_impact ∧
      (∀ method, method ∈ a.verification_methods ↔ method ∈ b.verification_methods) ∧
      ∀ target, (EdgeKind.DerivesFrom, target) ∈ a.edges ↔ (EdgeKind.DerivesFrom, target) ∈ b.edges := by
  have hcontent : a.review_fields.canonicalize = b.review_fields.canonicalize ↔
      a.layer = b.layer ∧ a.title = b.title ∧ a.description = b.description ∧
      a.rationale = b.rationale ∧ a.scope = b.scope ∧ a.category = b.category ∧
      a.source = b.source ∧ a.safety_impact = b.safety_impact ∧
      (∀ method, method ∈ a.verification_methods ↔ method ∈ b.verification_methods) ∧
      ∀ target, (EdgeKind.DerivesFrom, target) ∈ a.edges ↔
        (EdgeKind.DerivesFrom, target) ∈ b.edges := by
    simp only [RequirementReviewContentV1.canonicalize, RequirementNode.review_fields,
      RequirementReviewContentV1.mk.injEq, canonical_strings_eq_iff, mem_edge_targets]
    constructor
    · rintro ⟨h1, h2, h3, h4, h5, h6, h7, h8, h9, h10⟩
      exact ⟨h2, h1, h3, h4, h5, h6, h7, h10, h8, h9⟩
    · rintro ⟨h1, h2, h3, h4, h5, h6, h7, h8, h9, h10⟩
      exact ⟨h2, h1, h3, h4, h5, h6, h7, h9, h10, h8⟩
  rw [from_node_eq, from_node_eq, canonical_bytes_v1_canonicalize, canonical_bytes_v1_canonicalize,
    ← hcontent]
  constructor
  · exact canonical_bytes_v1_inj ha hb
  · intro h
    rw [← canonical_bytes_v1_canonicalize, h, canonical_bytes_v1_canonicalize]

/-- A derived requirement. -/
def braking : RequirementNode where
  uid := "req_a"
  id := "REQ-1"
  title := "Brake on loss of signal"
  layer := .Derived
  edges := [(.DerivesFrom, "req_b"), (.DerivesFrom, "req_c")]
  description := some "The controller applies the brake."
  rationale := none
  scope := none
  category := some ""
  source := none
  verification_methods := ["test", "review"]
  safety_impact := some "high"

/-- The requirement renamed, with its lists in another order and a test mapped to
it. -/
def renamed_braking : RequirementNode :=
  { braking with
    uid := "req_z"
    id := "REQ-9"
    edges := [(.Verifies, "test_a"), (.DerivesFrom, "req_c"), (.DerivesFrom, "req_b")]
    verification_methods := ["review", "test", "review"] }

/-- The renamed requirement keeps its approval. -/
theorem canonical_bytes_v1_renamed :
    canonical_bytes_v1 (.from_node braking) = canonical_bytes_v1 (.from_node renamed_braking) := by
  refine (canonical_bytes_v1_eq_iff ?_ ?_).mpr ⟨rfl, rfl, rfl, rfl, rfl, rfl, rfl, rfl, ?_, ?_⟩
  · constructor <;> decide +kernel
  · constructor <;> decide +kernel
  · intro method
    simp only [braking, renamed_braking, List.mem_cons, List.not_mem_nil, or_false]
    tauto
  · intro target
    simp only [braking, renamed_braking, List.mem_cons, Prod.mk.injEq, reduceCtorEq, false_and,
      true_and, List.not_mem_nil, or_false, false_or]
    exact or_comm

end Evidence.Corpus
