/-
The PDF projection conserves words and structure.

Every block of the document is projected once, in reading order (`reading`), and its lines are
split between the text of one candidate and the diagnostics of the bands.
-/
import Evidence.Lib.Lists
import Evidence.Corpus.Ingest.Pdf.Sections

set_option autoImplicit false

open Std

namespace Evidence.Corpus.Pdf

open Check Sorting

section Blocks

variable [Coordinates] (rules : PdfLayoutRules)

/-! ## Reading order -/

structure BlockSite where
  page : ℕ
  index : ℕ
  printed_label : Option String
  block : BboxBlock

/-- A line of the document, and where it stands. -/
structure LineSite where
  page : ℕ
  index : ℕ
  line : ℕ
  content : BboxLine

def LineSite.place (site : LineSite) : ℕ × ℕ × ℕ := (site.page, site.index, site.line)

/-- The blocks of a page as the extractor lists them. -/
def page_sites (entry : BboxPage × ℕ) : List BlockSite :=
  entry.1.blocks.zipIdx.map fun block =>
    ⟨entry.2, block.2, page_label rules entry.1, block.1⟩

def page_reading (entry : BboxPage × ℕ) : List BlockSite :=
  sortBy (fun a b => reading_cmp rules a.block b.block) (page_sites rules entry)

def reading (document : BboxDocument) : List BlockSite :=
  document.pages.zipIdx.flatMap (page_reading rules)

def BlockSite.lines (site : BlockSite) : List LineSite :=
  site.block.lines.zipIdx.map fun entry => ⟨site.page, site.index, entry.2, entry.1⟩

def document_lines (document : BboxDocument) : List LineSite :=
  document.pages.zipIdx.flatMap fun page =>
    page.1.blocks.zipIdx.flatMap fun block =>
      block.1.lines.zipIdx.map fun line => ⟨page.2, block.2, line.2, line.1⟩

/-- The lines of a block that are kept, and those that a band excludes. -/
def BlockSite.kept (site : BlockSite) : List LineSite :=
  site.lines.filter fun line => (excluded_band rules line.content).isNone

def BlockSite.excluded (site : BlockSite) : List LineSite :=
  site.lines.filter fun line => (excluded_band rules line.content).isSome

def project_site (state : ProjectionState) (site : BlockSite) : ProjectionState :=
  project_block rules (UInt32.ofNat site.page + 1) (UInt32.ofNat site.index) site.printed_label
    site.block state

/-- **The projection goes over the blocks in reading order.** -/
theorem project_eq (document : BboxDocument) :
    project rules document = (reading rules document).foldl (project_site rules)
      ProjectionState.new := by
  rw [project, reading, List.foldl_flatMap]
  refine congrArg (fun step => document.pages.zipIdx.foldl step ProjectionState.new) ?_
  funext state entry
  have hsorted : page_reading rules entry =
      (sortBy (fun a b => reading_cmp rules a.1 b.1) entry.1.blocks.zipIdx).map fun block =>
        ⟨entry.2, block.2, page_label rules entry.1, block.1⟩ :=
    (map_sortBy (fun _ _ => rfl) _).symm
  rw [hsorted, List.foldl_map]
  rfl

theorem kept_content (site : BlockSite) :
    (site.kept rules).map LineSite.content = retained_lines rules site.block := by
  have hlines : site.lines.map LineSite.content = site.block.lines := by
    rw [BlockSite.lines, List.map_map]
    exact List.zipIdx_map_fst 0 _
  rw [retained_lines, ← hlines, List.filter_map]
  rfl

theorem excluded_content (site : BlockSite) (page index : UInt32) :
    (excluded_lines rules page index site.block).map PdfIngestDiagnostic.detail =
      (site.excluded rules).map fun line => line_text line.content := by
  have hlines : site.lines.map LineSite.content = site.block.lines := by
    rw [BlockSite.lines, List.map_map]
    exact List.zipIdx_map_fst 0 _
  rw [excluded_lines, ← hlines, BlockSite.excluded]
  induction site.lines with
  | nil => rfl
  | cons line lines ih =>
    rw [List.map_cons, List.filterMap_cons, List.filter_cons]
    cases hband : excluded_band rules line.content with
    | none => exact ih
    | some band =>
      simp only [Option.map_some, Option.isSome_some, if_true, List.map_cons]
      rw [ih]

/-! ## Conservation -/

/-- The text that lines make up. -/
def sites_text (lines : List LineSite) : String := block_text (lines.map LineSite.content)

def excluded_details (diagnostics : List PdfIngestDiagnostic) : List String :=
  (diagnostics.filter fun diagnostic =>
    diagnostic.kind = .ExcludedByRule .Header ∨ diagnostic.kind = .ExcludedByRule .Footer).map
      PdfIngestDiagnostic.detail

/-- The blocks that keep a line, in reading order. -/
def emitting (sites : List BlockSite) : List BlockSite :=
  sites.filter fun site => !(site.kept rules).isEmpty

theorem excluded_details_site (state : ProjectionState) (site : BlockSite) :
    excluded_details (project_site rules state site).diagnostics =
      excluded_details state.diagnostics ++
        (site.excluded rules).map fun line => line_text line.content := by
  obtain ⟨notices, hnotices, hdiagnostics⟩ := project_block_diagnostics rules
    (UInt32.ofNat site.page + 1) (UInt32.ofNat site.index) site.printed_label site.block state
  have hquiet : excluded_details notices = [] := by
    rw [excluded_details, List.filter_eq_nil_iff.mpr, List.map_nil]
    intro notice hnotice hkind
    rcases of_decide_eq_true hkind with hkind | hkind
    · exact hnotices notice hnotice _ hkind
    · exact hnotices notice hnotice _ hkind
  have hall : excluded_details (excluded_lines rules (UInt32.ofNat site.page + 1)
      (UInt32.ofNat site.index) site.block) =
      (site.excluded rules).map fun line => line_text line.content := by
    rw [← excluded_content rules site (UInt32.ofNat site.page + 1) (UInt32.ofNat site.index),
      excluded_details, List.filter_eq_self.mpr]
    intro diagnostic hdiagnostic
    obtain ⟨line, -, hline⟩ := List.mem_filterMap.mp hdiagnostic
    obtain ⟨band, -, rfl⟩ := Option.map_eq_some_iff.mp hline
    cases band
    · exact decide_eq_true (.inl rfl)
    · exact decide_eq_true (.inr rfl)
  have happend : ∀ first second, excluded_details (first ++ second) =
      excluded_details first ++ excluded_details second := by
    intro first second
    rw [excluded_details, List.filter_append, List.map_append]
    rfl
  rw [project_site, hdiagnostics, happend, happend, hall, hquiet, List.append_nil]

/-- **The projection of one block**: the invariant is kept, and the lines that are kept make up
one text more. -/
theorem project_site_sound {state : ProjectionState} (h : Sound state) (site : BlockSite) :
    Sound (project_site rules state site) ∧
      (project_site rules state site).candidates.map CandidateNode.canonical_text =
        state.candidates.map CandidateNode.canonical_text ++
          (emitting rules [site]).map fun site => sites_text (site.kept rules) := by
  rw [emitting, List.filter_singleton]
  by_cases hnone : retained_lines rules site.block = []
  · have hkept : site.kept rules = [] := by
      rw [← kept_content] at hnone
      exact List.map_eq_nil_iff.mp hnone
    obtain ⟨diagnostics, hstate⟩ := project_block_silent rules hnone (UInt32.ofNat site.page + 1)
      (UInt32.ofNat site.index) site.printed_label state
    rw [project_site, hstate, hkept]
    exact ⟨h.diagnose diagnostics, (List.append_nil _).symm⟩
  · have hkept : (site.kept rules).isEmpty = false := by
      rw [← kept_content] at hnone
      rw [List.isEmpty_eq_false_iff]
      exact fun heq => hnone (by rw [heq, List.map_nil])
    obtain ⟨candidate, htext, hemits⟩ := project_block_emits rules hnone
      (UInt32.ofNat site.page + 1) (UInt32.ofNat site.index) site.printed_label state
    refine ⟨h.emits hemits, ?_⟩
    rw [project_site, hemits.candidates, List.map_append, List.map_singleton, htext, hkept,
      ← kept_content]
    rfl

/-- **The projection of blocks**, in any number. The induction is on the blocks. -/
theorem project_sites_sound (sites : List BlockSite) {state : ProjectionState} (h : Sound state) :
    Sound (sites.foldl (project_site rules) state) ∧
      (sites.foldl (project_site rules) state).candidates.map CandidateNode.canonical_text =
        state.candidates.map CandidateNode.canonical_text ++
          (emitting rules sites).map (fun site => sites_text (site.kept rules)) ∧
      excluded_details (sites.foldl (project_site rules) state).diagnostics =
        excluded_details state.diagnostics ++
          (sites.flatMap (BlockSite.excluded rules)).map fun line => line_text line.content := by
  induction sites generalizing state with
  | nil => exact ⟨h, (List.append_nil _).symm, (List.append_nil _).symm⟩
  | cons site sites ih =>
    obtain ⟨hsound, htexts⟩ := project_site_sound rules h site
    obtain ⟨hsound', htexts', hdetails⟩ := ih hsound
    refine ⟨hsound', ?_, ?_⟩
    · rw [List.foldl_cons, htexts', htexts, List.append_assoc, ← List.map_append, emitting,
        emitting, ← List.filter_append, List.singleton_append]
      rfl
    · rw [List.foldl_cons, hdetails, excluded_details_site, List.flatMap_cons, List.map_append,
        List.append_assoc]

/-- **Every line once**: the lines that the blocks keep and those that are excluded are the
lines of the document. -/
theorem lines_perm (document : BboxDocument) :
    ((emitting rules (reading rules document)).flatMap (BlockSite.kept rules) ++
      (reading rules document).flatMap (BlockSite.excluded rules)).Perm
        (document_lines document) := by
  have hkept : (emitting rules (reading rules document)).flatMap (BlockSite.kept rules) =
      (reading rules document).flatMap (BlockSite.kept rules) := by
    rw [emitting]
    generalize reading rules document = sites
    induction sites with
    | nil => rfl
    | cons site sites ih =>
      rw [List.filter_cons, List.flatMap_cons, ← ih]
      cases hsite : site.kept rules with
      | nil => rfl
      | cons line rest =>
        rw [if_pos (by rfl), List.flatMap_cons, hsite]
  have hsplit : ∀ site : BlockSite, (site.kept rules ++ site.excluded rules).Perm site.lines := by
    intro site
    refine Lists.filter_append_perm_of_not (fun line => ?_) site.lines
    cases excluded_band rules line.content <;> rfl
  have hread : (reading rules document).Perm
      (document.pages.zipIdx.flatMap (page_sites rules)) := by
    refine List.Perm.flatMap_left _ fun page _ => ?_
    exact sortBy_perm _
  have hlines : (document.pages.zipIdx.flatMap (page_sites rules)).flatMap BlockSite.lines =
      document_lines document := by
    rw [List.flatMap_assoc, document_lines]
    refine congrArg (fun f => document.pages.zipIdx.flatMap f) (funext fun page => ?_)
    rw [page_sites, List.flatMap_map]
    rfl
  rw [hkept, ← hlines]
  refine (List.flatMap_append_perm _ _ _).trans ?_
  exact (List.Perm.flatMap_left _ fun site _ => hsplit site).trans (hread.flatMap_right _)

omit [Coordinates] in
theorem document_lines_distinct (document : BboxDocument) :
    ((document_lines document).map LineSite.place).Nodup := by
  rw [List.Nodup, List.pairwise_map, document_lines, List.pairwise_flatMap]
  constructor
  · intro page _
    rw [List.pairwise_flatMap]
    constructor
    · intro block _
      rw [List.pairwise_map]
      refine (Lists.pairwise_zipIdx block.1.lines 0).imp ?_
      intro a b hlt heq
      exact Nat.ne_of_lt hlt (congrArg (fun place => place.2.2) heq)
    · refine (Lists.pairwise_zipIdx page.1.blocks 0).imp ?_
      intro a b hlt x hx y hy heq
      obtain ⟨line, -, rfl⟩ := List.mem_map.mp hx
      obtain ⟨line', -, rfl⟩ := List.mem_map.mp hy
      exact Nat.ne_of_lt hlt (congrArg (fun place => place.2.1) heq)
  · refine (Lists.pairwise_zipIdx document.pages 0).imp ?_
    intro a b hlt x hx y hy heq
    obtain ⟨block, -, hx⟩ := List.mem_flatMap.mp hx
    obtain ⟨line, -, rfl⟩ := List.mem_map.mp hx
    obtain ⟨block', -, hy⟩ := List.mem_flatMap.mp hy
    obtain ⟨line', -, rfl⟩ := List.mem_map.mp hy
    exact Nat.ne_of_lt hlt (congrArg Prod.fst heq)

instance : TransCmp (reading_cmp rules) := by
  have hvertical : TransCmp fun a b : BboxBlock =>
      Coordinates.cmp (y_min a.bbox) (y_min b.bbox) :=
    transCmp_on fun block : BboxBlock => y_min block.bbox
  have hhorizontal : TransCmp fun a b : BboxBlock =>
      Coordinates.cmp (x_min a.bbox) (x_min b.bbox) :=
    transCmp_on fun block : BboxBlock => x_min block.bbox
  rw [reading_cmp]
  infer_instance

/-- One block is read before another: it is on an earlier page, or on the same page and not
behind it in the order of the reading keys. -/
def ReadBefore (a b : BlockSite) : Prop :=
  a.page < b.page ∨ a.page = b.page ∧ (reading_cmp rules a.block b.block).isLE = true

/-- **The blocks are in reading order.** -/
theorem reading_ordered (document : BboxDocument) :
    (reading rules document).Pairwise (ReadBefore rules) := by
  have hpage : ∀ entry : BboxPage × ℕ, ∀ site ∈ page_reading rules entry, site.page = entry.2 := by
    intro entry site hsite
    obtain ⟨block, -, rfl⟩ := List.mem_map.mp (mem_sortBy.mp hsite)
    rfl
  have hcmp : TransCmp fun a b : BlockSite => reading_cmp rules a.block b.block :=
    transCmp_on BlockSite.block
  rw [reading, List.pairwise_flatMap]
  constructor
  · intro entry _
    have hsorted : (page_reading rules entry).Pairwise fun a b =>
        (reading_cmp rules a.block b.block).isLE = true := sortBy_sorted _
    refine hsorted.imp_of_mem ?_
    intro a b ha hb hab
    exact .inr ⟨(hpage entry a ha).trans (hpage entry b hb).symm, hab⟩
  · refine (Lists.pairwise_zipIdx document.pages 0).imp ?_
    intro a b hlt x hx y hy
    exact .inl (by rw [hpage a x hx, hpage b y hy]; exact hlt)

/-- The parser's bounds keep the projection small. -/
theorem reading_length_le (document : BboxDocument) :
    (reading rules document).length ≤ MAX_PAGES * MAX_BLOCKS_PER_PAGE := by
  have hpages : (reading rules document).length ≤
      document.pages.zipIdx.length * MAX_BLOCKS_PER_PAGE := by
    refine Lists.length_flatMap_le fun entry hentry => ?_
    have hpage : entry.1 ∈ document.pages := (List.mem_zipIdx hentry).2.2 ▸ List.getElem_mem _
    rw [page_reading, (sortBy_perm _).length_eq, page_sites, List.length_map, List.length_zipIdx]
    exact document.blocks_bounded _ hpage
  rw [List.length_zipIdx] at hpages
  exact hpages.trans (Nat.mul_le_mul_right _ document.pages_bounded)

end Blocks

/-! ## The claim -/

/-- **Words are conserved.** The candidates come from `source`, one block each and in reading
order, and the texts of their kept lines, in their order, are theirs; with the excluded lines,
which are diagnosed one by one, these are the lines of the document, each once. -/
structure Conserves [Coordinates] (rules : PdfLayoutRules) (document : BboxDocument)
    (projection : ProjectionState) (source : List BlockSite) (dropped : List LineSite) : Prop where
  texts : projection.candidates.map CandidateNode.canonical_text =
    source.map fun site => sites_text (site.kept rules)
  details : excluded_details projection.diagnostics =
    dropped.map fun line => line_text line.content
  once : (source.flatMap (BlockSite.kept rules) ++ dropped).Perm (document_lines document)
  distinct : ((document_lines document).map LineSite.place).Nodup
  ordered : source.Pairwise (ReadBefore rules)

/-- **The PDF projection conserves words and structure**, for every document, every set of rules
and every way to compare coordinates; and its assembly fails at a label that two candidates
of one kind share, and nowhere else. -/
theorem project_conserves [Coordinates] [Sha256] (rules : PdfLayoutRules) (document : BboxDocument)
    (source_revision_uid : String) {mint : ℕ → String} (hmint : Function.Injective mint) :
    (∃ source dropped, Conserves rules document (project rules document) source dropped) ∧
      Nested (project rules document).candidates ∧
      ∀ error, assemble mint source_revision_uid (project rules document) = .error error →
        ∃ kind label first_uid duplicate_uid,
          LabelShared (project rules document).candidates kind label ∧
          error = .DuplicateHumanId source_revision_uid kind label first_uid duplicate_uid := by
  obtain ⟨hsound, htexts, hdetails⟩ :=
    project_sites_sound rules (reading rules document) Sound.new
  rw [← project_eq] at hsound htexts hdetails
  have hsmall : (project rules document).candidates.length ≤ 2 ^ 32 := by
    have hlength := congrArg List.length htexts
    simp only [List.length_map, List.length_append] at hlength
    have hfilter : (emitting rules (reading rules document)).length ≤
        (reading rules document).length := List.length_filter_le _ _
    have hbound := reading_length_le rules document
    have hproduct : MAX_PAGES * MAX_BLOCKS_PER_PAGE ≤ 2 ^ 32 := by decide
    have hempty : ProjectionState.new.candidates.length = 0 := rfl
    omega
  refine ⟨⟨emitting rules (reading rules document),
    (reading rules document).flatMap (BlockSite.excluded rules), ?_⟩, hsound.nested hsmall, ?_⟩
  · exact ⟨htexts, hdetails, lines_perm rules document, document_lines_distinct document,
      (reading_ordered rules document).filter _⟩
  · intro error herror
    rw [assemble] at herror
    rcases bind_error_iff.mp herror with herror | ⟨nodes, -, hnodes⟩
    · exact assemble_error hmint (hsound.planted hsmall).rooted herror
    · cases hnodes

/-! ## A sample -/

section Sample

attribute [local instance] fips180 exact_coordinates

/-- A header line above 50 points, footers from 700 points on. -/
def sample_rules : PdfLayoutRules where
  header_bottom := ⟨0x4049000000000000⟩
  footer_top := ⟨0x4085E00000000000⟩
  column_split_x := none
  max_heading_depth := 2
  note_prefixes := Store.empty
  caption_prefixes := Store.empty
  page_label_prefix := none

/-- A line from 72 to 540 points, between two heights. -/
def sample_line (top bottom : UInt64) (words : List String) : BboxLine where
  bbox := #v[⟨0x4052000000000000⟩, ⟨top⟩, ⟨0x4080E00000000000⟩, ⟨bottom⟩]
  words := words.map fun text =>
    { bbox := #v[⟨0x4052000000000000⟩, ⟨top⟩, ⟨0x4080E00000000000⟩, ⟨bottom⟩], text := text }

/-- A page with a running header, a heading and a paragraph, the last of which comes first. -/
def sample_document : BboxDocument where
  pages := [{ blocks :=
    [{ bbox := (sample_line 0x4062C00000000000 0x4064000000000000 []).bbox
       lines := [sample_line 0x4062C00000000000 0x4064000000000000 ["Plain", "text."]] },
     { bbox := (sample_line 0x4034000000000000 0x405B800000000000 []).bbox
       lines := [sample_line 0x4034000000000000 0x403E000000000000 ["Draft"],
         sample_line 0x4059000000000000 0x405B800000000000 ["1.", "is", "no", "number"]] },
     { bbox := (sample_line 0x405C000000000000 0x405E000000000000 []).bbox
       lines := [sample_line 0x405C000000000000 0x405E000000000000 ["1", "Scope"]] }] }]
  pages_bounded := by decide
  blocks_bounded := by decide

example : (project sample_rules sample_document).candidates.map (fun c =>
    (c.canonical_text, c.parent_id, c.ordinal)) =
      [("1. is no number", none, 0), ("1 Scope", none, 1), ("Plain text.", some "cand-1", 0)] := by
  decide +kernel

def sample_mint (n : ℕ) : String := "uid-" ++ decimal n

theorem project_conserves_sample :
    (∃ source dropped, Conserves sample_rules sample_document
      (project sample_rules sample_document) source dropped) ∧
      Nested (project sample_rules sample_document).candidates ∧
      ∀ error, assemble sample_mint "revision" (project sample_rules sample_document) =
          .error error →
        ∃ kind label first_uid duplicate_uid,
          LabelShared (project sample_rules sample_document).candidates kind label ∧
          error = .DuplicateHumanId "revision" kind label first_uid duplicate_uid :=
  project_conserves sample_rules sample_document "revision"
    fun _ _ h => decimal_inj.mp (String.append_right_inj "uid-" |>.mp h)

end Sample

end Evidence.Corpus.Pdf
