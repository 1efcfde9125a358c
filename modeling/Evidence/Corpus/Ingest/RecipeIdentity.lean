/-
Recipe identities are faithful, and those of the three families are disjoint.

Every encoding starts with the tag of its family, none of which starts another. Behind the
tag each field reads back in front of any rest: a string by its length, a set or a
list by its count, an optional field by its flag. The lock inside a PDF recipe reads back by
itself, so that the length in front of it is not needed.
-/
import Mathlib.Data.List.Pairwise
import Evidence.Corpus.Ingest.Recipe

set_option autoImplicit false

namespace Evidence.Corpus

open Codec

/-! ## Fields that fit -/

structure SetFits (set : StringSet) : Prop where
  count : set.size < 2 ^ 64
  members : ∀ member ∈ set.values, FitsU64 member

structure IngesterRecipe.FieldsFit (recipe : IngesterRecipe) : Prop where
  parser : FitsU64 recipe.parser
  parser_version : FitsU64 recipe.parser_version
  extensions : SetFits recipe.extensions
  adapter_version : FitsU64 recipe.adapter_version
  normalization_contract : FitsU64 recipe.normalization_contract

structure HtmlIngestionRecipe.FieldsFit (recipe : HtmlIngestionRecipe) : Prop where
  parser : FitsU64 recipe.parser
  parser_version : FitsU64 recipe.parser_version
  adapter_version : FitsU64 recipe.adapter_version
  normalization_contract : FitsU64 recipe.normalization_contract
  encoding : FitsU64 recipe.encoding
  inclusion_root : ∀ root ∈ recipe.inclusion_root, FitsU64 root
  exclusion_selectors : SetFits recipe.exclusion_selectors
  note_selectors : SetFits recipe.note_selectors
  figure_caption_selectors : SetFits recipe.figure_caption_selectors
  compatibility_modes : SetFits recipe.compatibility_modes

structure PdfToolLock.FieldsFit (lock : PdfToolLock) : Prop where
  tool_name : FitsU64 lock.tool_name
  version_output : FitsU64 lock.version_output
  executables_count : lock.executable_sha256.size < 2 ^ 64
  executables : ∀ entry ∈ lock.executable_sha256.values, FitsU64 entry.2
  argv_count : lock.argv.length < 2 ^ 64
  argv : ∀ arg ∈ lock.argv, FitsU64 arg
  adapter_version : FitsU64 lock.adapter_version
  config_digest : FitsU64 lock.config_digest

structure PdfIngestionRecipe.FieldsFit (recipe : PdfIngestionRecipe) : Prop where
  tool_lock : recipe.tool_lock.FieldsFit
  note_prefixes : SetFits recipe.rules.note_prefixes
  caption_prefixes : SetFits recipe.rules.caption_prefixes
  page_label_prefix : ∀ label ∈ recipe.rules.page_label_prefix, FitsU64 label

/-! ## Fields read back -/

/-- **A framed set reads back**, as a set. -/
theorem push_set_reads {A B : StringSet} (hA : SetFits A) (hB : SetFits B) {s t : List UInt8}
    (h : push_set A ++ s = push_set B ++ t) : A = B ∧ s = t := by
  simp only [push_set, List.append_assoc, ← Store.length_values] at h
  obtain ⟨hvalues, hst⟩ := push_strs_reads (by rw [Store.length_values]; exact hA.count)
    (by rw [Store.length_values]; exact hB.count) hA.members hB.members h
  refine ⟨Store.ext_values fun member => ?_, hst⟩
  rw [hvalues]

/-- **A flagged field reads back** when the field does. -/
theorem push_flagged_reads {α : Type} {enc : α → List UInt8} {o o' : Option α}
    (henc : ∀ a ∈ o, ∀ b ∈ o', ∀ s t, enc a ++ s = enc b ++ t → a = b ∧ s = t) {s t : List UInt8}
    (h : push_flagged enc o ++ s = push_flagged enc o' ++ t) : o = o' ∧ s = t := by
  match o, o' with
  | none, none => exact ⟨rfl, List.append_cancel_left h⟩
  | none, some b => exact absurd (List.cons.inj h).1 (by decide)
  | some a, none => exact absurd (List.cons.inj h).1 (by decide)
  | some a, some b =>
    obtain ⟨rfl, hst⟩ := henc a rfl b rfl s t (List.cons.inj h).2
    exact ⟨rfl, hst⟩

theorem push_flagged_str_reads {o o' : Option String} (ho : ∀ value ∈ o, FitsU64 value)
    (ho' : ∀ value ∈ o', FitsU64 value) {s t : List UInt8}
    (h : push_flagged push_str o ++ s = push_flagged push_str o' ++ t) : o = o' ∧ s = t :=
  push_flagged_reads (fun a ha b hb _ _ heq => push_str_reads (ho a ha) (ho' b hb) heq) h

/-- A bit pattern reads back. -/
theorem push_f64_reads {x y : F64} {s t : List UInt8} (h : push_f64 x ++ s = push_f64 y ++ t) :
    x = y ∧ s = t := by
  obtain ⟨hbits, hst⟩ := push_count_inj x.bits.toNat_lt y.bits.toNat_lt h
  exact ⟨congrArg F64.mk (UInt64.toNat_inj.mp hbits), hst⟩

/-- The wire key determines the platform. -/
theorem PdfPlatform.as_str_inj {p q : PdfPlatform} (h : p.as_str = q.as_str) : p = q := by
  revert h
  cases p <;> cases q <;> decide

theorem PdfPlatform.fits_as_str (platform : PdfPlatform) : FitsU64 platform.as_str := by
  cases platform <;> decide +kernel

/-- **A lock reads back.** -/
theorem PdfToolLock.canonical_bytes_reads {a b : PdfToolLock} (ha : a.FieldsFit)
    (hb : b.FieldsFit) {s t : List UInt8}
    (h : a.canonical_bytes ++ s = b.canonical_bytes ++ t) : a = b ∧ s = t := by
  simp only [PdfToolLock.canonical_bytes, List.append_assoc, ← Store.length_values] at h
  obtain ⟨htool, h⟩ := push_str_reads ha.tool_name hb.tool_name
    (List.append_cancel_left (List.append_cancel_left h))
  obtain ⟨hversion, h⟩ := push_str_reads ha.version_output hb.version_output h
  have hentry : ∀ v ∈ a.executable_sha256.values, ∀ w ∈ b.executable_sha256.values, ∀ s t,
      push_executable v ++ s = push_executable w ++ t → v = w ∧ s = t := by
    intro v hv w hw s t heq
    simp only [push_executable, List.append_assoc] at heq
    obtain ⟨hplatform, heq⟩ := push_str_reads v.1.fits_as_str w.1.fits_as_str heq
    obtain ⟨hdigest, hst⟩ := push_str_reads (ha.executables v hv) (hb.executables w hw) heq
    exact ⟨Prod.ext (PdfPlatform.as_str_inj hplatform) hdigest, hst⟩
  obtain ⟨hexecutables, h⟩ :=
    push_list_reads (by rw [Store.length_values]; exact ha.executables_count)
      (by rw [Store.length_values]; exact hb.executables_count) hentry h
  obtain ⟨hargv, h⟩ := push_strs_reads ha.argv_count hb.argv_count ha.argv hb.argv h
  obtain ⟨hadapter, h⟩ := push_str_reads ha.adapter_version hb.adapter_version h
  obtain ⟨hconfig, hst⟩ := push_str_reads ha.config_digest hb.config_digest h
  have hmap : a.executable_sha256 = b.executable_sha256 :=
    Store.ext_values fun entry => by rw [hexecutables]
  refine ⟨?_, hst⟩
  cases a
  cases b
  simp only [PdfToolLock.mk.injEq]
  exact ⟨htool, hversion, hmap, hargv, hadapter, hconfig⟩

/-! ## Recipes -/

theorem IngesterRecipe.canonical_bytes_inj {a b : IngesterRecipe} (ha : a.FieldsFit)
    (hb : b.FieldsFit) (h : a.canonical_bytes = b.canonical_bytes) : a = b := by
  have h : a.canonical_bytes ++ [] = b.canonical_bytes ++ [] := congrArg (· ++ []) h
  have hset : ∀ recipe : IngesterRecipe, recipe.canonical_bytes ++ [] =
      RECIPE_DOMAIN_TAG ++ ([0] ++ (push_str recipe.parser ++ (push_str recipe.parser_version ++
        (push_set recipe.extensions ++ (push_str recipe.adapter_version ++
          (push_str recipe.normalization_contract ++ [])))))) := by
    intro recipe
    simp only [IngesterRecipe.canonical_bytes, push_set, List.append_assoc]
  rw [hset, hset] at h
  obtain ⟨hparser, h⟩ := push_str_reads ha.parser hb.parser
    (List.append_cancel_left (List.append_cancel_left h))
  obtain ⟨hversion, h⟩ := push_str_reads ha.parser_version hb.parser_version h
  obtain ⟨hextensions, h⟩ := push_set_reads ha.extensions hb.extensions h
  obtain ⟨hadapter, h⟩ := push_str_reads ha.adapter_version hb.adapter_version h
  obtain ⟨hcontract, -⟩ := push_str_reads ha.normalization_contract hb.normalization_contract h
  cases a
  cases b
  simp only [IngesterRecipe.mk.injEq]
  exact ⟨hparser, hversion, hextensions, hadapter, hcontract⟩

theorem HtmlIngestionRecipe.canonical_bytes_inj {a b : HtmlIngestionRecipe} (ha : a.FieldsFit)
    (hb : b.FieldsFit) (h : a.canonical_bytes = b.canonical_bytes) : a = b := by
  have h : a.canonical_bytes ++ [] = b.canonical_bytes ++ [] := congrArg (· ++ []) h
  simp only [HtmlIngestionRecipe.canonical_bytes, List.append_assoc] at h
  obtain ⟨hparser, h⟩ := push_str_reads ha.parser hb.parser
    (List.append_cancel_left (List.append_cancel_left h))
  obtain ⟨hversion, h⟩ := push_str_reads ha.parser_version hb.parser_version h
  obtain ⟨hadapter, h⟩ := push_str_reads ha.adapter_version hb.adapter_version h
  obtain ⟨hcontract, h⟩ := push_str_reads ha.normalization_contract hb.normalization_contract h
  obtain ⟨hencoding, h⟩ := push_str_reads ha.encoding hb.encoding h
  obtain ⟨hroot, h⟩ := push_flagged_str_reads ha.inclusion_root hb.inclusion_root h
  obtain ⟨hexclusions, h⟩ := push_set_reads ha.exclusion_selectors hb.exclusion_selectors h
  obtain ⟨hnotes, h⟩ := push_set_reads ha.note_selectors hb.note_selectors h
  obtain ⟨hcaptions, h⟩ := push_set_reads ha.figure_caption_selectors hb.figure_caption_selectors h
  obtain ⟨hmodes, -⟩ := push_set_reads ha.compatibility_modes hb.compatibility_modes h
  cases a
  cases b
  simp only [HtmlIngestionRecipe.mk.injEq]
  exact ⟨hparser, hversion, hadapter, hcontract, hencoding, hroot, hexclusions, hnotes, hcaptions,
    hmodes⟩

theorem PdfIngestionRecipe.canonical_bytes_inj {a b : PdfIngestionRecipe} (ha : a.FieldsFit)
    (hb : b.FieldsFit) (h : a.canonical_bytes = b.canonical_bytes) : a = b := by
  have h : a.canonical_bytes ++ [] = b.canonical_bytes ++ [] := congrArg (· ++ []) h
  simp only [PdfIngestionRecipe.canonical_bytes, List.append_assoc] at h
  -- the length of the lock is skipped
  have h := push_count_skip (List.append_cancel_left (List.append_cancel_left h))
  obtain ⟨hlock, h⟩ := PdfToolLock.canonical_bytes_reads ha.tool_lock hb.tool_lock h
  obtain ⟨hheader, h⟩ := push_f64_reads h
  obtain ⟨hfooter, h⟩ := push_f64_reads h
  obtain ⟨hsplit, h⟩ := push_flagged_reads (fun _ _ _ _ _ _ heq => push_f64_reads heq) h
  obtain ⟨hdepth, h⟩ := push_count_inj (Nat.lt_trans (UInt32.toNat_lt _) (by decide))
    (Nat.lt_trans (UInt32.toNat_lt _) (by decide)) h
  obtain ⟨hnotes, h⟩ := push_set_reads ha.note_prefixes hb.note_prefixes h
  obtain ⟨hcaptions, h⟩ := push_set_reads ha.caption_prefixes hb.caption_prefixes h
  obtain ⟨hlabel, -⟩ := push_flagged_str_reads ha.page_label_prefix hb.page_label_prefix h
  obtain ⟨lock, rules⟩ := a
  obtain ⟨lock', rules'⟩ := b
  cases rules
  cases rules'
  simp only [PdfIngestionRecipe.mk.injEq, PdfLayoutRules.mk.injEq]
  exact ⟨hlock, hheader, hfooter, hsplit, UInt32.toNat_inj.mp hdepth, hnotes, hcaptions, hlabel⟩

inductive Recipe where
  | Markdown (recipe : IngesterRecipe)
  | Html (recipe : HtmlIngestionRecipe)
  | Pdf (recipe : PdfIngestionRecipe)

namespace Recipe

def canonical_bytes : Recipe → List UInt8
  | Markdown recipe => recipe.canonical_bytes
  | Html recipe => recipe.canonical_bytes
  | Pdf recipe => recipe.canonical_bytes

/-- Every length and count of the recipe is a `u64`. -/
def FieldsFit : Recipe → Prop
  | Markdown recipe => recipe.FieldsFit
  | Html recipe => recipe.FieldsFit
  | Pdf recipe => recipe.FieldsFit

/-- The tag of the family. -/
def tag : Recipe → List UInt8
  | Markdown _ => RECIPE_DOMAIN_TAG
  | Html _ => HTML_RECIPE_DOMAIN_TAG
  | Pdf _ => PDF_RECIPE_DOMAIN_TAG

theorem canonical_bytes_tag (recipe : Recipe) :
    ∃ rest, recipe.canonical_bytes = recipe.tag ++ rest := by
  cases recipe with
  | Markdown recipe =>
    simp only [canonical_bytes, IngesterRecipe.canonical_bytes, List.append_assoc]
    exact ⟨_, rfl⟩
  | Html recipe =>
    simp only [canonical_bytes, HtmlIngestionRecipe.canonical_bytes, List.append_assoc]
    exact ⟨_, rfl⟩
  | Pdf recipe =>
    simp only [canonical_bytes, PdfIngestionRecipe.canonical_bytes, List.append_assoc]
    exact ⟨_, rfl⟩

/-- No tag starts another. -/
theorem tags_apart : [RECIPE_DOMAIN_TAG, HTML_RECIPE_DOMAIN_TAG, PDF_RECIPE_DOMAIN_TAG].Pairwise
    fun k l => ¬ k <+: l ∧ ¬ l <+: k := by
  decide +kernel

/-- **The families are disjoint.** -/
theorem tag_eq {a b : Recipe} (h : a.canonical_bytes = b.canonical_bytes) : a.tag = b.tag := by
  obtain ⟨s, hs⟩ := a.canonical_bytes_tag
  obtain ⟨t, ht⟩ := b.canonical_bytes_tag
  rw [hs, ht] at h
  by_contra hne
  have hmem : ∀ recipe : Recipe,
      recipe.tag ∈ [RECIPE_DOMAIN_TAG, HTML_RECIPE_DOMAIN_TAG, PDF_RECIPE_DOMAIN_TAG] := by
    intro recipe
    cases recipe <;> simp [tag]
  have hsymm : Std.Symm fun k l : List UInt8 => ¬ k <+: l ∧ ¬ l <+: k := ⟨fun _ _ hkl => hkl.symm⟩
  obtain ⟨hkl, hlk⟩ := tags_apart.forall (hmem a) (hmem b) hne
  exact append_ne hkl hlk s t h

/-- **Recipe identities are faithful**: two recipes, of any families, have the same bytes exactly
when they are the same recipe of one family. -/
theorem canonical_bytes_eq_iff {a b : Recipe} (ha : a.FieldsFit) (hb : b.FieldsFit) :
    a.canonical_bytes = b.canonical_bytes ↔ a = b := by
  refine ⟨fun h => ?_, congrArg canonical_bytes⟩
  have htag := tag_eq h
  have hfamilies : RECIPE_DOMAIN_TAG ≠ HTML_RECIPE_DOMAIN_TAG ∧
      RECIPE_DOMAIN_TAG ≠ PDF_RECIPE_DOMAIN_TAG ∧
      HTML_RECIPE_DOMAIN_TAG ≠ PDF_RECIPE_DOMAIN_TAG := by decide +kernel
  match a, b with
  | Markdown a, Markdown b => exact congrArg Markdown (IngesterRecipe.canonical_bytes_inj ha hb h)
  | Html a, Html b => exact congrArg Html (HtmlIngestionRecipe.canonical_bytes_inj ha hb h)
  | Pdf a, Pdf b => exact congrArg Pdf (PdfIngestionRecipe.canonical_bytes_inj ha hb h)
  | Markdown a, Html b => exact absurd htag hfamilies.1
  | Html a, Markdown b => exact absurd htag.symm hfamilies.1
  | Markdown a, Pdf b => exact absurd htag hfamilies.2.1
  | Pdf a, Markdown b => exact absurd htag.symm hfamilies.2.1
  | Html a, Pdf b => exact absurd htag hfamilies.2.2
  | Pdf a, Html b => exact absurd htag.symm hfamilies.2.2

/-- The Markdown recipe of one extension. -/
def tables_recipe : IngesterRecipe where
  parser := "pulldown-cmark"
  parser_version := "0.13.4"
  extensions := Store.ofList ["tables"]
  adapter_version := "1"
  normalization_contract := ""

/-- Without its extension it has another identity. -/
theorem canonical_bytes_eq_iff_tables :
    (Markdown tables_recipe).canonical_bytes =
        (Markdown { tables_recipe with extensions := Store.empty }).canonical_bytes ↔
      Markdown tables_recipe = Markdown { tables_recipe with extensions := Store.empty } := by
  refine canonical_bytes_eq_iff ⟨?_, ?_, ⟨?_, ?_⟩, ?_, ?_⟩ ⟨?_, ?_, ⟨?_, ?_⟩, ?_, ?_⟩ <;>
    decide +kernel

end Recipe

end Evidence.Corpus
