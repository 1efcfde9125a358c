/-
The nodes of an HTML ingestion form a forest.

An open note frame has its identity, its parent and its ordinal, but no candidate yet: both
are a `Slot`, and the invariant `Grown` is about the slots. Every slot has a number of its own, the
next one when it was reserved; its parent is a candidate with a smaller number; and the
slots under a parent carry the ordinals that its counter has given out. When the walk is over
no frame is open, so that the slots are the candidates.
-/
import Evidence.Corpus.Ingest.Assemble
import Evidence.Corpus.Ingest.Html.Moves

set_option autoImplicit false

namespace Evidence.Corpus.Html

open Check Relation Sorting Std

/-! ## Assembly -/

def HTML_MEDIA_TYPE : String := "text/html"

/-- The numeric sequence of a provisional id; malformed ids sort last. -/
def provisional_seq (provisional_id : String) : UInt64 :=
  (( strip_prefix "cand-" provisional_id).bind fun seq => parse_u64 seq.toList).getD
    (UInt64.ofNat (2 ^ 64 - 1))

def document_order (candidates : List Candidate) : List CandidateNode :=
  sortBy (compareOn fun candidate : CandidateNode => provisional_seq candidate.provisional_id)
    (candidates.map Candidate.toCandidateNode)

/-- The derived order of the kinds: variant, then payload. -/
def HtmlIngestDiagnosticKind.rank : HtmlIngestDiagnosticKind → ℕ
  | ExcludedByRecipe _ => 0
  | DroppedByClosedRule _ => 1
  | UnsupportedElement _ => 2
  | DuplicateAnchor _ => 3
  | DanglingInternalLink _ => 4

def HtmlIngestDiagnosticKind.payload : HtmlIngestDiagnosticKind → String
  | ExcludedByRecipe selector => selector
  | DroppedByClosedRule tag => tag
  | UnsupportedElement tag => tag
  | DuplicateAnchor anchor => anchor
  | DanglingInternalLink fragment => fragment

/-- Diagnostics by path, kind and detail. -/
def diagnostic_cmp : HtmlIngestDiagnostic → HtmlIngestDiagnostic → Ordering :=
  compareLex (compareOn HtmlIngestDiagnostic.dom_path)
    (compareLex (compareOn fun diagnostic => diagnostic.kind.rank)
      (compareLex (compareOn fun diagnostic => diagnostic.kind.payload)
        (compareOn HtmlIngestDiagnostic.detail)))

structure HtmlIngestion where
  nodes : List SourceNode
  diagnostics : List HtmlIngestDiagnostic

/-- Assemble the walk outcome. -/
def assemble [Sha256] (mint : ℕ → String) (s : Setup) (adapter : Adapter) :
    Except HtmlIngestError HtmlIngestion := do
  let nodes ← (Corpus.assemble mint s.input.source_revision_uid HTML_MEDIA_TYPE
    (document_order adapter.candidates)).mapError .CandidateGraph
  .ok { nodes := nodes, diagnostics := sortBy diagnostic_cmp adapter.diagnostics }

theorem provisional_seq_id {n : ℕ} (hn : n < 2 ^ 64) :
    provisional_seq (provisional_id n) = UInt64.ofNat n := by
  have hstrip : strip_prefix "cand-" (provisional_id n) = some (decimal n) :=
    strip_prefix_append "cand-" (decimal n)
  rw [provisional_seq, hstrip, Option.bind_some, parse_u64_decimal hn, Option.getD_some]

/-! ## Slots -/

/-- What a candidate, and a note frame that is still open, has of a node's place. -/
structure Slot where
  id : String
  parent : Option String
  kind : SourceNodeKind
  ordinal : UInt32

def Candidate.slot (candidate : Candidate) : Slot :=
  ⟨candidate.provisional_id, candidate.parent_id, candidate.kind, candidate.ordinal⟩

def AbsorbFrame.slot (frame : AbsorbFrame) : Slot :=
  ⟨frame.provisional, frame.parent, .Note, UInt32.ofNat frame.ordinal⟩

/-- The slots of a state. -/
def Adapter.slots (a : Adapter) : List Slot :=
  a.candidates.map Candidate.slot ++ a.absorbers.map AbsorbFrame.slot

/-- A candidate that may be the parent of a kind, with a number below `n`. -/
def Adapter.Above (a : Adapter) (n : ℕ) (id : String) (kind : SourceNodeKind) : Prop :=
  ∃ k < n, id = provisional_id k ∧
    ∃ parent ∈ a.candidates, parent.provisional_id = id ∧ parent.kind.may_parent kind = true

/-- **What every state of a walk keeps.** -/
structure Grown (a : Adapter) : Prop where
  ids : (a.slots.map Slot.id).Perm ((List.range a.next_provisional).map provisional_id)
  numbered : ∀ parent, ((a.slots.filter fun slot => slot.parent == parent).map Slot.ordinal).Perm
    ((List.range (a.ordinals parent)).map UInt32.ofNat)
  below : ∀ slot ∈ a.slots, ∀ n, slot.id = provisional_id n → ∀ id, slot.parent = some id →
    a.Above n id slot.kind
  opened : ∀ entry ∈ a.sections, ∃ k, entry.provisional = provisional_id k ∧ a.Has k .Section
  located : ∀ candidate ∈ a.candidates,
    candidate.locator.expected_media_type = HTML_MEDIA_TYPE
  room : a.candidates.length ≤ MAX_NODES

theorem Grown.new : Grown .new where
  ids := .refl _
  numbered := fun _ => .refl _
  below := by
    intro slot hslot
    cases hslot
  opened := by
    intro entry hentry
    cases hentry
  located := by
    intro candidate hcandidate
    cases hcandidate
  room := Nat.zero_le _

section Moves

variable {s : Setup} {base : ℕ} {a b : Adapter}

/-- **One slot more**, with the next number and the next ordinal of its parent. -/
theorem Grown.reserve (h : Grown a) {slot : Slot} (hslots : b.slots.Perm (slot :: a.slots))
    (hid : slot.id = provisional_id a.next_provisional)
    (hordinal : slot.ordinal = UInt32.ofNat (a.ordinals slot.parent))
    (hnext : b.next_provisional = a.next_provisional + 1)
    (hordinals : b.ordinals =
      Function.update a.ordinals slot.parent (a.ordinals slot.parent + 1))
    (hkept : a.candidates ⊆ b.candidates)
    (hparent : ∀ id, slot.parent = some id → a.Above a.next_provisional id slot.kind)
    (hopened : ∀ entry ∈ b.sections, ∃ k, entry.provisional = provisional_id k ∧ b.Has k .Section)
    (hlocated : ∀ candidate ∈ b.candidates,
      candidate.locator.expected_media_type = HTML_MEDIA_TYPE)
    (hroom : b.candidates.length ≤ MAX_NODES) : Grown b where
  ids := by
    rw [hnext, List.range_succ, List.map_append, List.map_singleton, ← hid]
    refine (hslots.map _).trans ?_
    rw [List.map_cons]
    exact (h.ids.cons _).trans (List.perm_append_singleton _ _).symm
  numbered := by
    intro parent
    refine ((hslots.filter _).map _).trans ?_
    rw [hordinals, List.filter_cons]
    by_cases hsame : slot.parent = parent
    · rw [if_pos (beq_iff_eq.mpr hsame), ← hsame, Function.update_self, List.range_succ,
        List.map_append, List.map_singleton, List.map_cons, hordinal]
      exact ((h.numbered slot.parent).cons _).trans (List.perm_append_singleton _ _).symm
    · rw [if_neg fun heq => hsame (beq_iff_eq.mp heq),
        Function.update_of_ne fun heq => hsame heq.symm]
      exact h.numbered parent
  below := by
    have hlater : ∀ {n : ℕ} {id : String} {kind : SourceNodeKind}, a.Above n id kind →
        b.Above n id kind := by
      rintro n id kind ⟨k, hk, hid, parent, hmem, hparent⟩
      exact ⟨k, hk, hid, parent, hkept hmem, hparent⟩
    intro other hother n hn id hid'
    rcases List.mem_cons.mp (hslots.mem_iff.mp hother) with rfl | hother
    · rw [hid, provisional_id_inj] at hn
      exact hlater (hn ▸ hparent id hid')
    · exact hlater (h.below other hother n hn id hid')
  opened := hopened
  located := hlocated
  room := hroom

/-- **An emission** under a parent that may have the node. -/
theorem Grown.emitted (h : Grown a) {parent : Option String} {path : List UInt32}
    {content : EmitContent} (hroom : a.candidates.length < MAX_NODES)
    (hparent : ∀ id, parent = some id → a.Above a.next_provisional id content.kind) :
    Grown (a.emitted s parent path content) := by
  have hslots : (a.emitted s parent path content).slots.Perm
      ((s.candidate (provisional_id a.next_provisional) parent (a.ordinals parent) path
        content).slot :: a.slots) := by
    rw [Adapter.slots, Adapter.slots, Adapter.emitted, List.map_append, List.map_singleton,
      List.append_assoc]
    exact List.perm_middle
  refine h.reserve hslots rfl rfl rfl rfl (List.subset_append_left _ _) hparent ?_ ?_ ?_
  · intro entry hentry
    obtain ⟨k, hid, hlt, c, hc, hcid, hkind⟩ := h.opened entry hentry
    exact ⟨k, hid, hlt.trans (Nat.lt_succ_self _), c, List.mem_append_left _ hc, hcid, hkind⟩
  · intro candidate hcandidate
    rcases List.mem_append.mp hcandidate with hcandidate | hcandidate
    · exact h.located candidate hcandidate
    · rw [List.mem_singleton.mp hcandidate]
      rfl
  · rw [Adapter.emitted, List.length_append, List.length_singleton]
    exact hroom

/-- The innermost section may have any child. -/
theorem Grown.section_above (h : Grown a) (kind : SourceNodeKind) {id : String}
    (hid : a.section_parent = some id) : a.Above a.next_provisional id kind := by
  obtain ⟨entry, hentry, rfl⟩ := Option.map_eq_some_iff.mp hid
  obtain ⟨k, hk, hlt, c, hc, hcid, hkind⟩ := h.opened entry (List.mem_of_head? hentry)
  exact ⟨k, hlt, hk, c, hc, hcid.trans hk.symm, by rw [hkind]; rfl⟩

/-- A table has rows, and a row has cells. -/
theorem Adapter.Has.above {k : ℕ} {kind child : SourceNodeKind} (h : a.Has k kind)
    (hlegal : kind.may_parent child = true) : ∀ id, some (provisional_id k) = some id →
      a.Above a.next_provisional id child := by
  intro id hid
  obtain ⟨hlt, c, hc, hcid, hkind⟩ := h
  rw [Option.some.injEq] at hid
  exact ⟨k, hlt, hid.symm, c, hc, hcid.trans hid, by rw [hkind]; exact hlegal⟩

/-- **A move keeps the invariant.** -/
theorem Grown.move (h : Grown a) (hmove : Move s base a b) : Grown b := by
  cases hmove with
  | quiet hquiet =>
    have hslots : b.slots = a.slots := by
      rw [Adapter.slots, hquiet.candidates, hquiet.absorbers, ← Adapter.slots]
    have habove : ∀ {n : ℕ} {id : String} {kind : SourceNodeKind}, a.Above n id kind →
        b.Above n id kind := by
      intro n id kind habove
      rw [Adapter.Above, hquiet.candidates]
      exact habove
    refine ⟨?_, ?_, ?_, ?_, ?_, ?_⟩
    · rw [hslots, hquiet.next_provisional]
      exact h.ids
    · rw [hslots, hquiet.ordinals]
      exact h.numbered
    · rw [hslots]
      exact fun slot hslot n hn id hid => habove (h.below slot hslot n hn id hid)
    · rw [hquiet.sections]
      intro entry hentry
      obtain ⟨k, hid, hlt, hhas⟩ := h.opened entry hentry
      exact ⟨k, hid, hquiet.next_provisional ▸ hlt, hquiet.candidates ▸ hhas⟩
    · rw [hquiet.candidates]
      exact h.located
    · rw [hquiet.candidates]
      exact h.room
  | absorb text habsorbers =>
    -- the text of a frame is no part of its slot
    have hslots : ∀ (frame : AbsorbFrame) (rest : List AbsorbFrame),
        a.absorbers = frame :: rest →
        ({ a with absorbers := { frame with text := text } :: rest } : Adapter).slots =
          a.slots := by
      intro frame rest hframe
      rw [Adapter.slots, Adapter.slots, hframe]
      rfl
    exact ⟨hslots _ _ habsorbers ▸ h.ids, hslots _ _ habsorbers ▸ h.numbered,
      hslots _ _ habsorbers ▸ h.below, h.opened, h.located, h.room⟩
  | close_sections level =>
    exact ⟨h.ids, h.numbered, h.below,
      fun entry hentry => h.opened entry ((List.dropWhile_sublist _).mem hentry), h.located, h.room⟩
  | block path content hroom hkind hpath =>
    exact h.emitted hroom fun id hid => h.section_above content.kind hid
  | heading level path content hroom hkind hpath =>
    have hemitted : Grown (a.emitted s a.section_parent path content) :=
      h.emitted hroom fun id hid => h.section_above content.kind hid
    refine ⟨hemitted.ids, hemitted.numbered, hemitted.below, ?_, hemitted.located, hemitted.room⟩
    intro entry hentry
    rcases List.mem_cons.mp hentry with rfl | hentry
    · refine ⟨a.next_provisional, rfl, Nat.lt_succ_self _, _,
        List.mem_append_right _ List.mem_cons_self, rfl, hkind⟩
    · exact hemitted.opened entry hentry
  | row table path content hroom hbase htable hkind hpath =>
    exact h.emitted hroom (htable.above (by rw [hkind]; rfl))
  | cell row path content hroom hbase hrow hkind hpath =>
    exact h.emitted hroom (hrow.above (by rw [hkind]; rfl))
  | open_note path =>
    have hslots : (open_note path a).slots.Perm
        (⟨provisional_id a.next_provisional, a.section_parent, .Note,
          UInt32.ofNat (a.ordinals a.section_parent)⟩ :: a.slots) := List.perm_middle
    refine h.reserve hslots rfl rfl rfl rfl (List.Subset.refl _)
      (fun id hid => h.section_above .Note hid) ?_ h.located h.room
    intro entry hentry
    obtain ⟨k, hid, hlt, hhas⟩ := h.opened entry hentry
    exact ⟨k, hid, hlt.trans (Nat.lt_succ_self _), hhas⟩
  | @close_note frame rest text hroom habsorbers =>
    -- the slot of the frame becomes the slot of its note
    have hslots : ({ a with absorbers := rest, candidates := a.candidates ++ [s.note frame text] } :
        Adapter).slots = a.slots := by
      rw [Adapter.slots, Adapter.slots, habsorbers, List.map_append, List.append_assoc]
      rfl
    have hkept : ∀ {n : ℕ} {id : String} {kind : SourceNodeKind}, a.Above n id kind →
        ({ a with absorbers := rest, candidates := a.candidates ++ [s.note frame text] } :
          Adapter).Above n id kind := by
      rintro n id kind ⟨k, hk, hid, parent, hmem, hparent⟩
      exact ⟨k, hk, hid, parent, List.mem_append_left _ hmem, hparent⟩
    refine ⟨hslots ▸ h.ids, hslots ▸ h.numbered, ?_, ?_, ?_, ?_⟩
    · rw [hslots]
      exact fun slot hslot n hn id hid => hkept (h.below slot hslot n hn id hid)
    · intro entry hentry
      obtain ⟨k, hid, hlt, c, hc, hcid, hkind⟩ := h.opened entry hentry
      exact ⟨k, hid, hlt, c, List.mem_append_left _ hc, hcid, hkind⟩
    · intro candidate hcandidate
      rcases List.mem_append.mp hcandidate with hcandidate | hcandidate
      · exact h.located candidate hcandidate
      · rw [List.mem_singleton.mp hcandidate]
        rfl
    · rw [List.length_append, List.length_singleton]
      exact hroom

theorem Grown.moves (h : Grown a) (hmoves : Moves s base a b) : Grown b := by
  induction hmoves with
  | refl => exact h
  | tail _ hmove ih => exact ih.move hmove

/-- **The candidates of a walk that is over are planted**, in document order. -/
theorem Grown.planted (h : Grown a) (hclosed : a.absorbers = []) :
    Planted HTML_MEDIA_TYPE (document_order a.candidates) := by
  have hslots : a.slots = a.candidates.map Candidate.slot := by
    rw [Adapter.slots, hclosed, List.map_nil, List.append_nil]
  have hperm : (document_order a.candidates).Perm (a.candidates.map Candidate.toCandidateNode) :=
    sortBy_perm _
  have hids : ((document_order a.candidates).map CandidateNode.provisional_id).Perm
      ((List.range a.next_provisional).map provisional_id) := by
    refine (hperm.map _).trans ?_
    have hgrown := h.ids
    rw [hslots, List.map_map] at hgrown
    rw [List.map_map]
    exact hgrown
  have hcount : a.next_provisional = a.candidates.length := by
    have hlength := hids.length_eq
    rw [List.length_map, hperm.length_eq, List.length_map, List.length_map, List.length_range]
      at hlength
    exact hlength.symm
  have hsmall : a.next_provisional ≤ MAX_NODES := hcount ▸ h.room
  have hseq : ∀ n < a.next_provisional, provisional_seq (provisional_id n) = UInt64.ofNat n := by
    intro n hn
    exact provisional_seq_id (hn.trans_le (hsmall.trans (by decide)))
  have hnumber : ∀ c ∈ document_order a.candidates, ∃ n < a.next_provisional,
      c.provisional_id = provisional_id n := by
    intro c hc
    have hmem := hids.mem_iff.mp (List.mem_map_of_mem hc)
    obtain ⟨n, hn, hid⟩ := List.mem_map.mp hmem
    exact ⟨n, List.mem_range.mp hn, hid.symm⟩
  have hsorted : (document_order a.candidates).Pairwise fun c d =>
      ∀ m < a.next_provisional, ∀ n < a.next_provisional, c.provisional_id = provisional_id m →
        d.provisional_id = provisional_id n → m ≤ n := by
    have hle : (document_order a.candidates).Pairwise fun c d =>
        (compareOn (fun candidate : CandidateNode => provisional_seq candidate.provisional_id) c
          d).isLE = true := sortBy_sorted _
    refine hle.imp ?_
    intro c d hcd m hm n hn hc hd
    rw [compareOn, hc, hd, hseq m hm, hseq n hn, isLE_compare, UInt64.le_iff_toNat_le,
      UInt64.toNat_ofNat_of_lt' (hm.trans_le (hsmall.trans (by decide))),
      UInt64.toNat_ofNat_of_lt' (hn.trans_le (hsmall.trans (by decide)))] at hcd
    exact hcd
  refine ⟨?_, ?_, ?_, ?_⟩
  · refine hids.nodup_iff.mpr (List.nodup_range.map fun m n hmn => ?_)
    exact provisional_id_inj.mp hmn
  · intro before candidate after hsplit id hparent
    have hmem : candidate ∈ document_order a.candidates := by
      rw [hsplit]
      exact List.mem_append_right _ List.mem_cons_self
    obtain ⟨n, hn, hid⟩ := hnumber candidate hmem
    obtain ⟨own, hown, rfl⟩ := List.mem_map.mp (hperm.mem_iff.mp hmem)
    have hslot : own.slot ∈ a.slots := by
      rw [hslots]
      exact List.mem_map_of_mem hown
    obtain ⟨k, hk, rfl, parent, hcandidate, hpid, hkind⟩ := h.below own.slot hslot n hid id hparent
    refine ⟨parent.toCandidateNode, ?_, hpid, hkind⟩
    -- the parent's number is smaller, so that it stands neither here nor behind
    have hplace : parent.toCandidateNode ∈ before ++ own.toCandidateNode :: after := by
      rw [← hsplit]
      exact hperm.mem_iff.mpr (List.mem_map_of_mem hcandidate)
    rcases List.mem_append.mp hplace with hbefore | hrest
    · exact hbefore
    · rcases List.mem_cons.mp hrest with heq | hafter
      · have hsame : provisional_id k = provisional_id n := by
          rw [← hid, ← heq]
          exact hpid.symm
        rw [provisional_id_inj] at hsame
        omega
      · rw [hsplit, List.pairwise_append] at hsorted
        have hle := (List.pairwise_cons.mp hsorted.2.1).1 _ hafter n hn k (hk.trans hn) hid hpid
        omega
  · intro parent
    have hunder : ((candidates_under (document_order a.candidates) parent).map
        CandidateNode.ordinal).Perm ((List.range (a.ordinals parent)).map UInt32.ofNat) := by
      refine ((hperm.filter _).map _).trans ?_
      have hgrown := h.numbered parent
      rw [hslots, List.filter_map, List.map_map] at hgrown
      rw [List.filter_map, List.map_map]
      exact hgrown
    have hlength : (candidates_under (document_order a.candidates) parent).length =
        a.ordinals parent := by
      have hlength := hunder.length_eq
      rwa [List.length_map, List.length_map, List.length_range] at hlength
    have hfits : a.ordinals parent ≤ 2 ^ 32 := by
      rw [← hlength]
      refine (List.length_filter_le _ _).trans ?_
      rw [hperm.length_eq, List.length_map]
      exact h.room.trans (by decide)
    have htoNat : (fun c : CandidateNode => c.ordinal.toNat) =
        UInt32.toNat ∘ CandidateNode.ordinal := rfl
    rw [hlength, htoNat, ← List.map_map]
    refine (hunder.map _).trans (List.Perm.of_eq ?_)
    rw [List.map_map]
    refine (List.map_congr_left fun n hn => ?_).trans (List.map_id _)
    exact UInt32.toNat_ofNat_of_lt' ((List.mem_range.mp hn).trans_le hfits)
  · intro candidate hcandidate
    obtain ⟨own, hown, rfl⟩ := List.mem_map.mp (hperm.mem_iff.mp hcandidate)
    rw [show own.toCandidateNode.locator.expected_media_type = HTML_MEDIA_TYPE from
      h.located own hown]
    exact (by decide +kernel : eq_ignore_ascii_case "text/html" "text/html" = true)

end Moves

/-! ## The claim -/

/-- **An HTML walk yields a forest.** For every tree, every recipe and every set of selectors, if
the walk ends, then its candidates in document order are a forest, parents first, and its
assembly fails at a label that two candidates of one kind share, and nowhere else. -/
theorem walk_forest [UnicodeTables] [StrDebug] [Sha256] (s : Setup) (nodes : List Dom)
    (root_path : List UInt32) {a : Adapter} {mint : ℕ → String} (hmint : Function.Injective mint)
    (hwalk : walk_children s nodes root_path 0 .empty .new = .ok a) :
    Planted HTML_MEDIA_TYPE (document_order a.candidates) ∧
      ∀ error, assemble mint s a = .error error → ∃ kind label first_uid duplicate_uid,
        LabelShared (document_order a.candidates) kind label ∧
        error = .CandidateGraph (.DuplicateHumanId s.input.source_revision_uid kind label first_uid
          duplicate_uid) := by
  have hwalked := (walks s nodes).children root_path 0 .empty .new a 0 (Nat.zero_le _) hwalk
  have hclosed : a.absorbers = [] := List.map_eq_nil_iff.mp hwalked.frames
  have hplanted := (Grown.new.moves hwalked.moves).planted hclosed
  refine ⟨hplanted, ?_⟩
  intro error herror
  rw [assemble] at herror
  rcases bind_error_iff.mp herror with herror | ⟨nodes, -, hnodes⟩
  · obtain ⟨inner, hinner, rfl⟩ := mapError_error_iff.mp herror
    obtain ⟨kind, label, first_uid, duplicate_uid, hshared, rfl⟩ :=
      assemble_error hmint hplanted.rooted hinner
    exact ⟨kind, label, first_uid, duplicate_uid, hshared, rfl⟩
  · cases hnodes

/-! ## A sample -/

/-- A heading, a note with a heading in it, and a table. -/
def sample_nodes : List Dom :=
  [.tag 0 "h1" [.Text 1 "Scope"],
    .tag 2 "blockquote" [.tag 3 "p" [.Text 4 "note"], .tag 5 "h2" [.Text 6 "Inner"]],
    .tag 7 "table" [.tag 8 "tr" [.tag 9 "td" [.Text 10 "cell"]]]]

attribute [local instance] ascii_tables plain_debug fips180

theorem walk_forest_sample : ∃ a,
    walk_children .plain sample_nodes [] 0 .empty .new = .ok a ∧
      Planted HTML_MEDIA_TYPE (document_order a.candidates) ∧
      ∀ error, assemble decimal .plain a = .error error →
        ∃ kind label first_uid duplicate_uid,
          LabelShared (document_order a.candidates) kind label ∧
          error = .CandidateGraph (.DuplicateHumanId "revision" kind label first_uid
            duplicate_uid) := by
  have hends : ((walk_children .plain sample_nodes [] 0 .empty .new).toOption.map fun a =>
      a.candidates.length) = some 6 := by
    decide +kernel
  have hmint : Function.Injective decimal := fun _ _ hmn => decimal_inj.mp hmn
  obtain ⟨a, hwalk, -⟩ := ok_of_view hends
  exact ⟨a, hwalk, walk_forest .plain sample_nodes [] hmint hwalk⟩

end Evidence.Corpus.Html
