/-
`corpus/ingest/projection.rs` -- the canonical node projection of one ingestion result.

The projection shows no uid: a node's parent is shown as its place in the list. Strings, optional
lines and locators are written as in the rendering of a source graph, whose helpers
the module repeats and which are one definition here. The rendering reads back block by
block, so it shows the place of the parent and every other field and nothing else
(`projection_faithful`), and a renaming of the uids leaves it as it was.
-/
import Evidence.Lines
import Evidence.Corpus.Ingest.RecipeIdentity
import Evidence.Corpus.ReviewContent
import Evidence.Corpus.SourceGraph.Renaming
import Evidence.Corpus.SourcePatch.Digest

set_option autoImplicit false

namespace Evidence.Corpus

open Codec

/-! ## The projection -/

/-- Domain/version tag opening the Markdown projection. -/
def PROJECTION_HEADER : String := "evidence/markdown-ingest-output/v1"

/-- Domain/version tag opening the HTML projection. -/
def HTML_PROJECTION_HEADER : String := "evidence/html-ingest-output/v1"

/-- Domain/version tag opening the PDF projection. -/
def PDF_PROJECTION_HEADER : String := "evidence/pdf-ingest-output/v1"

/-- The place of a node's parent in the list: of the first node with its uid. -/
def parent_index (nodes : List SourceNode) (node : SourceNode) : Option (Option ℕ) :=
  node.parent_uid.map fun parent => nodes.findIdx? fun n => n.uid == parent

def push_parent : Option (Option ℕ) → List Char
  | some (some found) => push_decimal found
  | some none => text "dangling"
  | none => text "root"

section Render

variable [F64Display]

/-- One node's block, its parent at a place. -/
def push_projected (parent : Option (Option ℕ)) (node : SourceNode) : List Char :=
  text "\n[[node]]\n" ++ (text "parent = " ++ push_parent parent ++ ['\n']) ++
    push_field "kind" node.kind.as_str ++
    (text "ordinal = " ++ push_decimal node.ordinal.toNat ++ ['\n']) ++
    optional (push_field "label") node.label ++ push_locator_fields node.locator ++
    push_field "text" node.canonical_text ++ push_field "digest" node.content_sha256.as_str

def render_projection (header : String) (nodes : List SourceNode) : List UInt8 :=
  str_bytes (String.ofList (header.toList ++ ['\n'] ++
    (text "nodes = " ++ push_decimal nodes.length ++ ['\n']) ++
    nodes.flatMap fun node => push_projected (parent_index nodes node) node))

/-- The canonical Markdown projection. -/
def render_candidate_projection (nodes : List SourceNode) : List UInt8 :=
  render_projection PROJECTION_HEADER nodes

def render_html_projection (nodes : List SourceNode) : List UInt8 :=
  render_projection HTML_PROJECTION_HEADER nodes

def render_pdf_projection (nodes : List SourceNode) : List UInt8 :=
  render_projection PDF_PROJECTION_HEADER nodes

end Render

/-! ## Parents read back -/

/-- What is written for a parent is a word of letters and digits. -/
theorem push_parent_chars (parent : Option (Option ℕ)) :
    ∀ c ∈ push_parent parent, c.isAlphanum = true := by
  match parent with
  | none => decide +kernel
  | some none => decide +kernel
  | some (some found) =>
    intro c hc
    rw [push_parent, push_decimal, decimal, Nat.toList_repr] at hc
    have hdigit : c.isDigit = true := Nat.isDigit_of_mem_toDigits (by decide) (by decide) hc
    rw [Char.isAlphanum, hdigit, Bool.or_true]

/-- A number is not a word that starts with a letter. -/
theorem push_decimal_ne {word : List Char} (hword : word.head?.all Char.isDigit = false) (n : ℕ) :
    push_decimal n ≠ word := by
  rintro rfl
  rw [push_decimal, decimal, Nat.toList_repr] at hword
  cases hdigits : Nat.toDigits 10 n with
  | nil => exact Nat.toDigits_ne_nil hdigits
  | cons c cs =>
    have hdigit : c.isDigit = true :=
      Nat.isDigit_of_mem_toDigits (b := 10) (n := n) (by decide) (by decide)
        (hdigits ▸ List.mem_cons_self)
    rw [hdigits, List.head?_cons, Option.all_some, hdigit] at hword
    cases hword

/-- The word determines the parent. -/
theorem push_parent_inj {p q : Option (Option ℕ)} (h : push_parent p = push_parent q) : p = q := by
  have hroot : ∀ n, push_decimal n ≠ text "root" := push_decimal_ne (by decide +kernel)
  have hdangling : ∀ n, push_decimal n ≠ text "dangling" := push_decimal_ne (by decide +kernel)
  match p, q with
  | none, none => rfl
  | some none, some none => rfl
  | none, some none => exact absurd h (by decide +kernel)
  | some none, none => exact absurd h (by decide +kernel)
  | none, some (some m) => exact absurd h.symm (hroot m)
  | some (some n), none => exact absurd h (hroot n)
  | some none, some (some m) => exact absurd h.symm (hdangling m)
  | some (some n), some none => exact absurd h (hdangling n)
  | some (some n), some (some m) =>
    rw [push_parent, push_parent, push_decimal, push_decimal, String.toList_inj, decimal_inj] at h
    rw [h]

theorem push_parent_reads : ReadsBefore (Stops Char.isAlphanum) id push_parent :=
  ReadsBefore.of_run Char.isAlphanum push_parent_chars fun _ _ h => push_parent_inj h

/-! ## Nodes read back -/

section Reads

variable [F64Display]

/-- The lines of a locator read back, up to the text of its bounding box: the key of the first
line tells the format. -/
theorem push_locator_fields_reads : ReadsBack SourceLocator.rendered push_locator_fields := by
  intro a b s t h
  by_cases hformat : a.format_str = b.format_str
  · apply push_locator_reads a b s t
    rw [push_locator, push_locator, hformat, List.append_assoc, List.append_assoc, h]
  · -- the keys "path", "canonical_url" and "physical_page" are no prefixes of each other
    exfalso
    cases a <;> cases b <;>
      simp only [push_locator_fields, push_field, List.append_assoc] at h <;>
      first
        | exact hformat rfl
        | exact append_ne (by decide +kernel) (by decide +kernel) _ _ h

theorem push_locator_fields_ne (locator : SourceLocator) (s : List Char) (value : String)
    (u : List Char) : push_locator_fields locator ++ s ≠ push_field "label" value ++ u := by
  cases locator <;> simp only [push_locator_fields, push_field, List.append_assoc] <;>
    exact append_ne (by decide +kernel) (by decide +kernel) _ _

/-- What the projection shows of a node, its parent at a place. -/
structure ProjectedNode where
  parent : Option (Option ℕ)
  kind : SourceNodeKind
  ordinal : UInt32
  label : Option String
  locator : RenderedLocator
  canonical_text : String
  content_sha256 : StructuralContentDigest
deriving DecidableEq

def SourceNode.projected (parent : Option (Option ℕ)) (node : SourceNode) : ProjectedNode where
  parent := parent
  kind := node.kind
  ordinal := node.ordinal
  label := node.label
  locator := node.locator.rendered
  canonical_text := node.canonical_text
  content_sha256 := node.content_sha256

/-- **A block reads back.** -/
theorem push_projected_reads :
    ReadsBack (fun placed : Option (Option ℕ) × SourceNode => placed.2.projected placed.1)
      fun placed => push_projected placed.1 placed.2 := by
  rintro ⟨p, a⟩ ⟨q, b⟩ s t h
  simp only [push_projected, List.append_assoc] at h
  obtain ⟨hparent, h⟩ := push_parent_reads.closed (by decide +kernel) (by decide +kernel)
    (List.append_cancel_left (List.append_cancel_left h))
  obtain ⟨hkind, h⟩ := push_field_reads "kind" _ _ _ _ h
  obtain ⟨hordinal, h⟩ := push_decimal_reads.closed (by decide +kernel) (by decide +kernel)
    (List.append_cancel_left h)
  obtain ⟨hlabel, h⟩ := push_optional_field (push_locator_fields_ne _ _)
    (push_locator_fields_ne _ _) h
  obtain ⟨hlocator, h⟩ := push_locator_fields_reads _ _ _ _ h
  obtain ⟨htext, h⟩ := push_field_reads "text" _ _ _ _ h
  obtain ⟨hdigest, hst⟩ := push_field_reads "digest" _ _ _ _ h
  refine ⟨?_, hst⟩
  rw [id_eq, id_eq] at hparent htext
  simp only [SourceNode.projected, ProjectedNode.mk.injEq]
  exact ⟨hparent, SourceNodeKind.as_str_inj hkind, UInt32.toNat_inj.mp hordinal, hlabel, hlocator,
    htext, StructuralContentDigest.ext_iff.mpr hdigest⟩

/-- The text of a block depends on what it shows. -/
theorem push_projected_congr {p q : Option (Option ℕ)} {a b : SourceNode}
    (h : a.projected p = b.projected q) : push_projected p a = push_projected q b := by
  simp only [SourceNode.projected, ProjectedNode.mk.injEq] at h
  obtain ⟨hparent, hkind, hordinal, hlabel, hlocator, htext, hdigest⟩ := h
  have hfields : push_locator_fields a.locator = push_locator_fields b.locator :=
    (push_field_reads "format" _ _ _ _ (push_locator_congr hlocator)).2
  simp only [push_projected, hparent, hkind, hordinal, hlabel, htext, hdigest, hfields]

/-! ## Lists of nodes -/

/-- Two nodes of two lists agree on everything but their uids, their revision and their
fingerprints: on the place of the parent, and on every field that is shown. -/
structure ProjectedAlike (A B : List SourceNode) (a b : SourceNode) : Prop where
  parent : parent_index A a = parent_index B b
  kind : a.kind = b.kind
  ordinal : a.ordinal = b.ordinal
  label : a.label = b.label
  canonical_text : a.canonical_text = b.canonical_text
  content_sha256 : a.content_sha256 = b.content_sha256
  locator : a.locator.rendered = b.locator.rendered

theorem projectedAlike_iff {A B : List SourceNode} {a b : SourceNode} :
    ProjectedAlike A B a b ↔ a.projected (parent_index A a) = b.projected (parent_index B b) := by
  simp only [SourceNode.projected, ProjectedNode.mk.injEq]
  constructor
  · rintro ⟨hparent, hkind, hordinal, hlabel, htext, hdigest, hlocator⟩
    exact ⟨hparent, hkind, hordinal, hlabel, hlocator, htext, hdigest⟩
  · rintro ⟨hparent, hkind, hordinal, hlabel, hlocator, htext, hdigest⟩
    exact ⟨hparent, hkind, hordinal, hlabel, htext, hdigest, hlocator⟩

/-- The blocks of two lists are the same text exactly when the lists are shown alike. -/
theorem push_nodes_eq_iff {A B : List SourceNode} :
    (A.flatMap fun node => push_projected (parent_index A node) node) =
        (B.flatMap fun node => push_projected (parent_index B node) node) ↔
      List.Forall₂ (ProjectedAlike A B) A B := by
  have hplaced : ∀ L : List SourceNode,
      (L.flatMap fun node => push_projected (parent_index L node) node) =
        (L.map fun node => (parent_index L node, node)).flatMap
          fun placed => push_projected placed.1 placed.2 := by
    intro L
    rw [List.flatMap_map]
  have hviews : List.Forall₂ (ProjectedAlike A B) A B ↔
      (A.map fun node => (parent_index A node, node)).map
          (fun placed => placed.2.projected placed.1) =
        (B.map fun node => (parent_index B node, node)).map
          fun placed => placed.2.projected placed.1 := by
    rw [List.map_map, List.map_map, ← List.forall₂_eq_eq_eq, List.forall₂_map_left_iff,
      List.forall₂_map_right_iff]
    exact iff_of_eq (congrArg (fun r => List.Forall₂ r A B)
      (funext fun a => funext fun b => propext projectedAlike_iff))
  rw [hplaced, hplaced, hviews]
  constructor
  · refine flatMap_inj_nil push_projected_reads ?_
    rintro ⟨parent, node⟩ hnil
    simp only [push_projected, List.append_assoc, List.append_eq_nil_iff] at hnil
    exact absurd hnil.1 (by decide +kernel)
  · exact flatMap_congr_view fun _ _ => push_projected_congr

omit [F64Display] in
/-- The place of a parent does not depend on how the uids are spelled. -/
theorem parent_index_rename {f : String → String} {nodes : List SourceNode}
    (hf : Set.InjOn f {uid | ∃ n ∈ nodes, n.uid = uid}) {node : SourceNode}
    (hparent : ∀ parent ∈ node.parent_uid, ∃ n ∈ nodes, n.uid = parent) :
    parent_index (nodes.map (rename_node f)) (rename_node f node) = parent_index nodes node := by
  rw [parent_index, parent_index, rename_node, Option.map_map]
  cases hnode : node.parent_uid with
  | none => rfl
  | some parent =>
    rw [Option.map_some, Option.map_some, Function.comp_apply, List.findIdx?_map]
    congr 1
    have hmem := hparent parent hnode
    -- the search meets listed uids only
    have hsearch : ∀ sub : List SourceNode, (∀ n ∈ sub, n ∈ nodes) →
        sub.findIdx? ((fun n => n.uid == f parent) ∘ rename_node f) =
          sub.findIdx? fun n => n.uid == parent := by
      intro sub hsub
      induction sub with
      | nil => rfl
      | cons n sub ih =>
        have hsame : (f n.uid == f parent) = (n.uid == parent) := by
          rw [Bool.eq_iff_iff, beq_iff_eq, beq_iff_eq]
          exact hf.eq_iff ⟨n, hsub n List.mem_cons_self, rfl⟩ hmem
        rw [List.findIdx?_cons, List.findIdx?_cons, Function.comp_apply,
          show (rename_node f n).uid = f n.uid from rfl, hsame,
          ih fun m hm => hsub m (List.mem_cons_of_mem n hm)]
    exact hsearch nodes fun _ hn => hn

/-- **The projection is a faithful canonical form**: two lists have one rendering exactly when they
have the same length and are shown alike position by position; and an injective renaming of the
uids of a list whose parents are in it leaves its rendering as it was. -/
theorem projection_faithful (header : String) :
    (∀ A B : List SourceNode,
      render_projection header A = render_projection header B ↔
        List.Forall₂ (ProjectedAlike A B) A B) ∧
    ∀ (nodes : List SourceNode) (f : String → String),
      (∀ node ∈ nodes, ∀ parent ∈ node.parent_uid, ∃ n ∈ nodes, n.uid = parent) →
      Set.InjOn f {uid | ∃ n ∈ nodes, n.uid = uid} →
      render_projection header (nodes.map (rename_node f)) = render_projection header nodes := by
  have hiff : ∀ A B : List SourceNode,
      render_projection header A = render_projection header B ↔
        List.Forall₂ (ProjectedAlike A B) A B := by
    intro A B
    rw [← push_nodes_eq_iff, render_projection, render_projection]
    constructor
    · intro h
      have h := String.ofList_injective (str_bytes_inj h)
      simp only [List.append_assoc] at h
      obtain ⟨-, h⟩ := push_decimal_reads.closed (by decide +kernel) (by decide +kernel)
        (List.append_cancel_left (List.append_cancel_left (List.append_cancel_left h)))
      exact h
    · intro h
      have hlength : A.length = B.length := (push_nodes_eq_iff.mp h).length_eq
      rw [h, hlength]
  refine ⟨hiff, ?_⟩
  intro nodes f hparents hf
  rw [hiff, List.forall₂_map_left_iff, List.forall₂_same]
  intro node hnode
  exact ⟨parent_index_rename hf (hparents node hnode), rfl, rfl, rfl, rfl, rfl, rfl⟩

end Reads

/-! ## Domains -/

section Domains

variable [F64Display]

inductive Encoded : List UInt8 → List UInt8 → Prop where
  | content (kind : SourceNodeKind) (text : String) :
    Encoded CONTENT_DOMAIN_TAG (content_bytes kind text)
  | fingerprint (kind : SourceNodeKind) (label : Option String) (ancestry : List AncestryPair) :
    Encoded FINGERPRINT_DOMAIN_TAG (fingerprint_bytes kind label ancestry)
  | requirement (content : RequirementReviewContentV1) :
    Encoded DOMAIN_TAG_V1 (canonical_bytes_v1 content)
  | patch (record : SourcePatchRecord) : Encoded REVIEWED_DOMAIN_TAG (reviewed_content_bytes record)
  | graph (graph : SourceGraph) : Encoded GRAPH_DOMAIN_TAG (graph_digest_bytes graph)
  | recipe (recipe : Recipe) : Encoded recipe.tag recipe.canonical_bytes
  | lock (lock : PdfToolLock) : Encoded LOCK_DOMAIN_TAG lock.canonical_bytes
  | markdown (nodes : List SourceNode) :
    Encoded (str_bytes PROJECTION_HEADER) (render_candidate_projection nodes)
  | html (nodes : List SourceNode) :
    Encoded (str_bytes HTML_PROJECTION_HEADER) (render_html_projection nodes)
  | pdf (nodes : List SourceNode) :
    Encoded (str_bytes PDF_PROJECTION_HEADER) (render_pdf_projection nodes)

omit [F64Display] in
def TAGS : List (List UInt8) :=
  [CONTENT_DOMAIN_TAG, FINGERPRINT_DOMAIN_TAG, DOMAIN_TAG_V1, REVIEWED_DOMAIN_TAG,
    GRAPH_DOMAIN_TAG, RECIPE_DOMAIN_TAG, HTML_RECIPE_DOMAIN_TAG, PDF_RECIPE_DOMAIN_TAG,
    LOCK_DOMAIN_TAG, str_bytes PROJECTION_HEADER, str_bytes HTML_PROJECTION_HEADER,
    str_bytes PDF_PROJECTION_HEADER]

theorem render_projection_opens (header : String) (nodes : List SourceNode) :
    str_bytes header <+: render_projection header nodes := by
  rw [render_projection, str_bytes_eq_flatMap, str_bytes_eq_flatMap, String.toList_ofList]
  simp only [List.append_assoc, List.flatMap_append]
  exact List.prefix_append _ _

theorem Encoded.opens {tag bytes : List UInt8} (h : Encoded tag bytes) :
    tag ∈ TAGS ∧ tag <+: bytes := by
  cases h with
  | recipe recipe =>
    obtain ⟨rest, hrest⟩ := recipe.canonical_bytes_tag
    refine ⟨?_, hrest ▸ List.prefix_append _ _⟩
    cases recipe <;> simp [Recipe.tag, TAGS]
  | markdown nodes => exact ⟨by simp [TAGS], render_projection_opens _ nodes⟩
  | html nodes => exact ⟨by simp [TAGS], render_projection_opens _ nodes⟩
  | pdf nodes => exact ⟨by simp [TAGS], render_projection_opens _ nodes⟩
  | content | fingerprint | requirement | patch | graph | lock =>
    refine ⟨by simp [TAGS], ?_⟩
    simp only [content_bytes, fingerprint_bytes, canonical_bytes_v1, reviewed_content_bytes,
      graph_digest_bytes, PdfToolLock.canonical_bytes, List.append_assoc]
    exact List.prefix_append _ _

/-- **No bytes are hashed for two purposes**: what they encode can be read off them. -/
theorem domains_apart (bytes : List UInt8) : {tag | Encoded tag bytes}.Subsingleton := by
  intro tag h tag' h'
  have hapart : TAGS.Pairwise fun k l => ¬ k <+: l ∧ ¬ l <+: k := by decide +kernel
  have hsymm : Std.Symm fun k l : List UInt8 => ¬ k <+: l ∧ ¬ l <+: k := ⟨fun _ _ hkl => hkl.symm⟩
  by_contra hne
  obtain ⟨hkl, hlk⟩ := hapart.forall h.opens.1 h'.opens.1 hne
  rcases List.prefix_or_prefix_of_prefix h.opens.2 h'.opens.2 with hprefix | hprefix
  · exact hkl hprefix
  · exact hlk hprefix

end Domains

end Evidence.Corpus
