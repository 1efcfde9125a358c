/-
`corpus/ingest/markdown.rs` -- assembling a Markdown walk, and the numbers of the siblings.

A walk over a well-nested stream ends with candidates whose parents lead to the root, and
whose ordinals are the numbers of those who stayed among all who took a position under their
parent. They are `0..n` exactly if nobody stayed behind one who gave up, and only the repeated
definition of a footnote gives up. Then the assembly fails at a label that two candidates of one
kind share, and nowhere else.
-/
import Evidence.Corpus.Ingest.Markdown.Walk
import Evidence.Corpus.Digest

set_option autoImplicit false

namespace Evidence.Corpus.Markdown

open Check Sorting Tickets

/-! ## Assembly -/

/-- The numeric sequence of a provisional id; malformed ids sort last. -/
def provisional_seq (provisional_id : String) : UInt64 :=
  (( strip_prefix "cand-" provisional_id).bind fun seq => parse_u64 seq.toList).getD
    (UInt64.ofNat (2 ^ 64 - 1))

def document_order (candidates : List CandidateNode) : List CandidateNode :=
  sortBy (compareOn fun candidate : CandidateNode => provisional_seq candidate.provisional_id)
    candidates

/-- The derived order of the kinds: variant, then payload. -/
def IngestDiagnosticKind.rank : IngestDiagnosticKind → ℕ
  | DuplicateAnchor _ => 0
  | MalformedExplicitId _ => 1
  | UnsupportedRawHtml => 2
  | LossyConstruct _ => 3

def IngestDiagnosticKind.payload : IngestDiagnosticKind → String
  | DuplicateAnchor anchor => anchor
  | MalformedExplicitId raw => raw
  | UnsupportedRawHtml => ""
  | LossyConstruct construct => construct

/-- Diagnostics by byte range, kind and detail. -/
def diagnostic_cmp : IngestDiagnostic → IngestDiagnostic → Ordering :=
  compareLex (compareOn fun diagnostic => diagnostic.byte_range.1)
    (compareLex (compareOn fun diagnostic => diagnostic.byte_range.2)
      (compareLex (compareOn fun diagnostic => diagnostic.kind.rank)
        (compareLex (compareOn fun diagnostic => diagnostic.kind.payload)
          (compareOn IngestDiagnostic.detail))))

structure MarkdownIngestion where
  nodes : List SourceNode
  diagnostics : List IngestDiagnostic

section

variable [Sha256]

/-- Assemble the parse outcome. -/
def assemble (mint : ℕ → String) (s : Setup) (adapter : Adapter) :
    Except IngestError MarkdownIngestion := do
  let nodes ← (Corpus.assemble mint s.source_revision_uid MARKDOWN_MEDIA_TYPE
    (document_order adapter.candidates)).mapError .CandidateGraph
  .ok { nodes := nodes, diagnostics := sortBy diagnostic_cmp adapter.diagnostics }

variable [UnicodeTables] [StrDebug]

def ingest_markdown (mint : ℕ → String) (s : Setup) (text : String)
    (events : List (Event × ByteRange)) : Except IngestError MarkdownIngestion := do
  let adapter ← walk s text events .new
  assemble mint s adapter

end

/-! ## The candidates of a whole walk -/

section Numbering

variable {text : String} {given : List (Option String × Bool)} {a : Adapter}

theorem Stacked.slots_nil (h : Stacked text [] a) : a.frames = [] ∧
    a.slots = a.candidates.map candidate_slot ∧
    a.names = a.candidates.map CandidateNode.provisional_id := by
  have hframes : a.frames = [] := List.map_eq_nil_iff.mp h.frames
  refine ⟨hframes, ?_, ?_⟩
  · rw [Adapter.slots, hframes, List.filterMap_nil, List.append_nil]
  · rw [Adapter.names, hframes, List.map_nil, List.append_nil]

/-- The position of a candidate on the way down: a paragraph lies below everything else. -/
noncomputable def depth (a : Adapter) (c : CandidateNode) : ℕ :=
  if c.kind = .Paragraph then a.next_provisional
  else Function.invFun provisional_id c.provisional_id

theorem Grown.parented (h : Grown given a) (hstacked : Stacked text [] a) :
    Parented (document_order a.candidates) := by
  obtain ⟨-, hslots, hnames⟩ := hstacked.slots_nil
  have hperm : (document_order a.candidates).Perm a.candidates := sortBy_perm a.candidates
  have hnumber (n : ℕ) : Function.invFun provisional_id (provisional_id n) = n :=
    Function.leftInverse_invFun (fun _ _ heq => provisional_id_inj.mp heq) n
  refine ⟨?_, depth a, ?_⟩
  · rw [(hperm.map CandidateNode.provisional_id).nodup_iff, ← hnames]
    exact h.named.distinct
  · intro candidate hcandidate id hid
    have hslot : candidate_slot candidate ∈ a.slots := by
      rw [hslots]
      exact List.mem_map_of_mem (hperm.mem_iff.mp hcandidate)
    obtain ⟨holder, hholder, hname, hmay, hage⟩ := h.below _ hslot id hid
    obtain ⟨k, hk, hold⟩ := h.slot_older hholder
    rw [hslots] at hholder
    obtain ⟨parent, hparent, rfl⟩ := List.mem_map.mp hholder
    have hmay : parent.kind.may_parent candidate.kind = true := hmay
    have hold : parent.provisional_id = provisional_id k := hold
    have hupper : depth a parent = k := by
      have hkind : parent.kind ≠ .Paragraph := by
        intro hkind
        rw [hkind] at hmay
        cases hmay
      rw [depth, if_neg hkind, hold, hnumber]
    refine ⟨parent, hperm.mem_iff.mpr hparent, hname, hmay, ?_⟩
    rw [hupper, depth]
    by_cases hkind : candidate.kind = .Paragraph
    · rw [if_pos hkind]
      exact hk
    · rcases hage with hparagraph | ⟨m, n, hm, hn, hlt⟩
      · exact absurd hparagraph hkind
      · have hn : candidate.provisional_id = provisional_id n := hn
        have hmk : m = k := provisional_id_inj.mp (hm.symm.trans (hname.symm.trans hold))
        rw [if_neg hkind, hn, hnumber, ← hmk]
        exact hlt

/-- **The siblings are numbered `0..n` exactly if no number was given up before the last one
that stayed.** -/
theorem Grown.numbered_iff (h : Grown given a) (hstacked : Stacked text [] a)
    (parent : Option String) :
    (((candidates_under (document_order a.candidates) parent).map fun c => c.ordinal.toNat).Perm
      (List.range (candidates_under (document_order a.candidates) parent).length)) ↔
      Gapless (2 ^ 32) (under parent given) := by
  obtain ⟨-, hslots, -⟩ := hstacked.slots_nil
  have hperm : (candidates_under (document_order a.candidates) parent).Perm
      (candidates_under a.candidates parent) := (sortBy_perm a.candidates).filter _
  have hnumbers := h.numbered parent
  rw [hslots, List.filter_map, List.map_map] at hnumbers
  have hordinals : ((candidates_under a.candidates parent).map fun c => c.ordinal.toNat).Perm
      ((kept (under parent given)).map (· % 2 ^ 32)) := by
    have htoNat := hnumbers.map UInt32.toNat
    rw [List.map_map, List.map_map] at htoNat
    refine htoNat.trans (List.Perm.of_eq (List.map_congr_left fun n _ => ?_))
    exact UInt32.toNat_ofNat'
  have hlength : (candidates_under (document_order a.candidates) parent).length =
      (kept (under parent given)).length := by
    have hlength := hordinals.length_eq
    rw [List.length_map, List.length_map] at hlength
    rw [hperm.length_eq, hlength]
  rw [Gapless, hlength]
  have hall := (hperm.map fun c => c.ordinal.toNat).trans hordinals
  exact ⟨hall.symm.trans, hall.trans⟩

/-- **What a whole walk yields is a forest exactly if the numbers of the siblings have no gaps.** -/
theorem Grown.rooted_iff (h : Grown given a) (hstacked : Stacked text [] a) :
    Rooted MARKDOWN_MEDIA_TYPE (document_order a.candidates) ↔
      ∀ parent, Gapless (2 ^ 32) (under parent given) := by
  constructor
  · intro hrooted parent
    exact (h.numbered_iff hstacked parent).mp (hrooted.numbered parent)
  · intro hgapless
    refine ⟨h.parented hstacked, fun parent => (h.numbered_iff hstacked parent).mpr (hgapless parent),
      ?_⟩
    intro candidate hcandidate
    rw [h.located candidate ((sortBy_perm a.candidates).mem_iff.mp hcandidate)]
    decide +kernel

end Numbering

/-! ## The claim -/

/-- **A well-nested stream yields a forest exactly if no sibling follows a repeated footnote.** For
every well-nested stream of events with aligned offsets the walk ends. Its candidates in document
order form a forest whose siblings are numbered from zero on, and the assembly fails at
a label that two candidates of one kind share and nowhere else, if and only if under no parent
somebody stayed behind one who gave up its position. Up to `2 ^ 32` siblings the numbers are not
counted round. -/
theorem markdown_forest_iff [UnicodeTables] [StrDebug] [Sha256] (s : Setup) (text : String)
    (events : List (Event × ByteRange)) {mint : ℕ → String} (hmint : Function.Injective mint)
    (hnested : WellNested events) (haligned : ∀ entry ∈ events, Aligned text entry.2) :
    ((∃ a, walk s text events .new = .ok a ∧
        Rooted MARKDOWN_MEDIA_TYPE (document_order a.candidates) ∧
        ∀ error, ingest_markdown mint s text events = .error error →
          ∃ kind label first_uid duplicate_uid,
            LabelShared (document_order a.candidates) kind label ∧
            error = .CandidateGraph (.DuplicateHumanId s.source_revision_uid kind label first_uid
              duplicate_uid)) ↔
      ∀ parent, Gapless (2 ^ 32) (under parent (claims s text .new events))) ∧
    ∀ parent, (under parent (claims s text .new events)).length ≤ 2 ^ 32 →
      (Gapless (2 ^ 32) (under parent (claims s text .new events)) ↔
        Seamless (under parent (claims s text .new events))) := by
  refine ⟨?_, fun parent hfits => gapless_iff hfits⟩
  obtain ⟨a, hwalk, hgrown, hstacked⟩ :=
    Grown.new.run s (Stacked.new text) hnested haligned
  rw [List.nil_append] at hgrown
  rw [← hgrown.rooted_iff hstacked]
  constructor
  · rintro ⟨b, hb, hrooted, -⟩
    rw [hwalk, Except.ok.injEq] at hb
    rw [hb]
    exact hrooted
  · intro hrooted
    refine ⟨a, hwalk, hrooted, fun error herror => ?_⟩
    rw [ingest_markdown, hwalk] at herror
    have herror : assemble mint s a = .error error := herror
    rw [assemble] at herror
    rcases bind_error_iff.mp herror with herror | ⟨nodes, -, hnodes⟩
    · obtain ⟨inner, hinner, rfl⟩ := mapError_error_iff.mp herror
      obtain ⟨kind, label, first_uid, duplicate_uid, hshared, rfl⟩ :=
        assemble_error hmint hrooted hinner
      exact ⟨kind, label, first_uid, duplicate_uid, hshared, rfl⟩
    · cases hnodes

/-- Where nobody gives up a position, there is no gap. -/
theorem seamless_of_kept {given : List (Option String × Bool)} (hkept : ∀ entry ∈ given, entry.2)
    (parent : Option String) : Seamless (under parent given) := by
  rw [Seamless, under, List.pairwise_map]
  refine List.pairwise_of_forall_mem_list fun left hleft right _ hgone => ?_
  rw [hkept left (List.mem_of_mem_filter hleft)] at hgone
  cases hgone

/-! ## A repeated footnote -/

/-- The metadata of a small file. -/
def note_setup : Setup where
  source_revision_uid := "revision"
  path := ⟨"notes.md", by decide +kernel⟩
  git_blob := none

/-- A footnote defined twice, and a paragraph. -/
def repeated_text : String := "[^a]: x\n\n[^a]: y\n\nz\n"

def repeated_events : List (Event × ByteRange) :=
  [(.Start (.FootnoteDefinition "a"), 0, 8), (.Start .Paragraph, 6, 8), (.Text "x", 6, 7),
    (.End .Paragraph, 6, 8), (.End .FootnoteDefinition, 0, 8),
    (.Start (.FootnoteDefinition "a"), 9, 17), (.Start .Paragraph, 15, 17), (.Text "y", 15, 16),
    (.End .Paragraph, 15, 17), (.End .FootnoteDefinition, 9, 17),
    (.Start .Paragraph, 18, 20), (.Text "z", 18, 19), (.End .Paragraph, 18, 20)]

attribute [local instance] ascii_tables plain_debug fips180_eval

/-- The repeated definition leaves a gap behind it, and the assembly fails. -/
theorem repeated_footnote_leaves_gap :
    WellNested repeated_events ∧ (∀ entry ∈ repeated_events, Aligned repeated_text entry.2) ∧
      ingest_markdown decimal note_setup repeated_text repeated_events =
        .error (.CandidateGraph (.NonContiguousOrdinals "revision" none 1 2 "1")) := by
  refine ⟨rfl, ?_, ?_⟩
  · unfold Aligned
    decide +kernel
  · have hfails : (ingest_markdown decimal note_setup repeated_text repeated_events).map
        (fun _ => ()) = .error (.CandidateGraph
          (.NonContiguousOrdinals "revision" none 1 2 "1")) := by
      decide +kernel
    exact error_of_map hfails

/-- A heading, a footnote and a paragraph. -/
def noted_text : String := "# T\n\n[^a]: x\n\nz\n"

def noted_events : List (Event × ByteRange) :=
  [(.Start (.Heading .H1), 0, 4), (.Text "T", 2, 3), (.End (.Heading .H1), 0, 4),
    (.Start (.FootnoteDefinition "a"), 5, 13), (.Start .Paragraph, 11, 13), (.Text "x", 11, 12),
    (.End .Paragraph, 11, 13), (.End .FootnoteDefinition, 5, 13),
    (.Start .Paragraph, 14, 16), (.Text "z", 14, 15), (.End .Paragraph, 14, 16)]

/-- A definition that is not repeated leaves no gap. -/
theorem markdown_forest_noted : ∃ a, walk note_setup noted_text noted_events .new = .ok a ∧
    Rooted MARKDOWN_MEDIA_TYPE (document_order a.candidates) := by
  have haligned : ∀ entry ∈ noted_events, Aligned noted_text entry.2 := by
    unfold Aligned
    decide +kernel
  have hkept : ∀ entry ∈ claims note_setup noted_text .new noted_events, entry.2 := by
    decide +kernel
  have hfew (parent : Option String) :
      (under parent (claims note_setup noted_text .new noted_events)).length ≤ 2 ^ 32 := by
    have hlength : (claims note_setup noted_text .new noted_events).length = 3 := by
      decide +kernel
    rw [under, List.length_map]
    exact (List.length_filter_le _ _).trans (hlength.le.trans (by omega))
  obtain ⟨hforest, hgapless⟩ := markdown_forest_iff note_setup noted_text noted_events
    (fun _ _ hmn => decimal_inj.mp hmn) rfl haligned
  obtain ⟨a, hwalk, hrooted, -⟩ := hforest.mpr fun parent =>
    (hgapless parent (hfew parent)).mpr (seamless_of_kept hkept parent)
  exact ⟨a, hwalk, hrooted⟩

end Evidence.Corpus.Markdown
