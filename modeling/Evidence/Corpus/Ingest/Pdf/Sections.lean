/-
The invariant of the PDF projection.

A block emits one candidate or none (`project_block_emits`, `project_block_silent`), and what an
emission does is said once (`Emits`). The stack of open sections finds, for every bound on the
depth, the last section within the bound (`Sound.opened`), which is the nearest open one
(`nearest_of_last`), so that the parent of a candidate can be read off the candidates before it.
-/
import Evidence.Lines
import Evidence.Corpus.Ingest.Pdf.Project

set_option autoImplicit false

namespace Evidence.Corpus.Pdf

/-! ## Sections -/

def section_depth (candidate : CandidateNode) : Option ℕ :=
  if candidate.kind = .Section then candidate.label.bind numbering_depth else none

/-- A section of some depth is open behind the candidates since: none of them is a section of
that depth or a smaller one. -/
def StaysOpen (depth : ℕ) (since : List CandidateNode) : Prop :=
  ∀ candidate ∈ since, ∀ d, section_depth candidate = some d → depth < d

/-- **The nearest open section** among earlier candidates whose depth fits, by its id; none, when
no earlier section fits. -/
def NearestOpen (before : List CandidateNode) (fits : ℕ → Prop) : Option String → Prop
  | none => ∀ candidate ∈ before, ∀ d, section_depth candidate = some d → ¬ fits d
  | some id => ∃ outer opened inner depth, before = outer ++ opened :: inner ∧
      opened.provisional_id = id ∧ section_depth opened = some depth ∧ fits depth ∧
      StaysOpen depth inner ∧
      ∀ candidate ∈ inner, ∀ d, section_depth candidate = some d → ¬ fits d

/-- The last section whose depth fits. -/
def last_section (candidates : List CandidateNode) (fits : ℕ → Bool) : Option (ℕ × String) :=
  candidates.reverse.findSome? fun candidate =>
    ((section_depth candidate).filter fits).map fun depth => (depth, candidate.provisional_id)

theorem last_section_snoc (candidates : List CandidateNode) (candidate : CandidateNode)
    (fits : ℕ → Bool) :
    last_section (candidates ++ [candidate]) fits =
      (((section_depth candidate).filter fits).map fun depth =>
        (depth, candidate.provisional_id)).or (last_section candidates fits) := by
  rw [last_section, List.reverse_append, List.reverse_singleton, List.singleton_append,
    List.findSome?_cons, ← last_section]
  cases (section_depth candidate).filter fits <;> rfl

/-- A bound on the depth: with a section, the sections above it fit. -/
def Bounds (fits : ℕ → Bool) : Prop := ∀ d e, d ≤ e → fits e = true → fits d = true

/-- **The last section within a bound is the nearest open one.** The sections after it are
out of bounds, and so deeper. -/
theorem nearest_of_last {candidates : List CandidateNode} {fits : ℕ → Bool} (hbound : Bounds fits) :
    NearestOpen candidates (fun d => fits d = true)
      ((last_section candidates fits).map Prod.snd) := by
  induction candidates using List.reverseRecOn with
  | nil =>
    intro candidate hcandidate
    cases hcandidate
  | append_singleton candidates candidate ih =>
    rw [last_section_snoc]
    cases hdepth : (section_depth candidate).filter fits with
    | some depth =>
      obtain ⟨hsection, hfits⟩ := Option.filter_eq_some_iff.mp hdepth
      refine ⟨candidates, candidate, [], depth, rfl, rfl, hsection, hfits, ?_, ?_⟩
      · intro c hc
        cases hc
      · intro c hc
        cases hc
    | none =>
      have hout : ∀ d, section_depth candidate = some d → ¬ fits d = true := by
        intro d hd hfits
        rw [hd, Option.filter_some_pos hfits] at hdepth
        cases hdepth
      rw [Option.map_none, Option.none_or]
      cases hlast : last_section candidates fits with
      | none =>
        rw [hlast] at ih
        intro c hc d hd
        rcases List.mem_append.mp hc with hc | hc
        · exact ih c hc d hd
        · rw [List.mem_singleton] at hc
          exact hout d (hc ▸ hd)
      | some found =>
        rw [hlast] at ih
        obtain ⟨outer, opened, inner, depth, hsplit, hid, hsection, hfits, hopen, hinner⟩ := ih
        have hinner' : ∀ c ∈ inner ++ [candidate], ∀ d, section_depth c = some d →
            ¬ fits d = true := by
          intro c hc d hd
          rcases List.mem_append.mp hc with hc | hc
          · exact hinner c hc d hd
          · rw [List.mem_singleton] at hc
            exact hout d (hc ▸ hd)
        refine ⟨outer, opened, inner ++ [candidate], depth, ?_, hid, hsection, hfits, ?_, hinner'⟩
        · rw [hsplit, List.append_assoc, List.cons_append]
        · intro c hc d hd
          by_contra hle
          exact hinner' c hc d hd (hbound d depth (Nat.le_of_not_lt hle) hfits)

/-! ## One emission -/

/-- **What an emission does**: one candidate more, numbered by its parent's counter. A section
closes the open ones of its depth and deeper, hangs under what is left and is open; anything else
hangs under the innermost open section. -/
structure Emits (state : ProjectionState) (candidate : CandidateNode) (state' : ProjectionState) :
    Prop where
  candidates : state'.candidates = state.candidates ++ [candidate]
  id : candidate.provisional_id = provisional_id state.candidates.length
  ordinal : candidate.ordinal = state.ordinals (candidate.parent_id.getD "")
  ordinals : state'.ordinals =
    Function.update state.ordinals (candidate.parent_id.getD "") (candidate.ordinal + 1)
  locator : ∃ page label bbox, candidate.locator = .Pdf page label bbox
  opened : (candidate.kind ≠ .Section ∧ state'.sections = state.sections ∧
      candidate.parent_id = state.sections.head?.map Prod.snd) ∨
    ∃ depth, candidate.kind = .Section ∧ section_depth candidate = some depth ∧
      state'.sections = (depth, candidate.provisional_id) ::
        state.sections.dropWhile (fun opened => depth ≤ opened.1) ∧
      candidate.parent_id =
        (state.sections.dropWhile fun opened => depth ≤ opened.1).head?.map Prod.snd

theorem Emits.of_diagnose {state state' : ProjectionState} {candidate : CandidateNode}
    {diagnostics : List PdfIngestDiagnostic}
    (h : Emits (state.diagnose diagnostics) candidate state') : Emits state candidate state' :=
  ⟨h.candidates, h.id, h.ordinal, h.ordinals, h.locator, h.opened⟩

theorem ProjectionState.diagnose_diagnose (state : ProjectionState)
    (first second : List PdfIngestDiagnostic) :
    (state.diagnose first).diagnose second = state.diagnose (first ++ second) := by
  rw [diagnose, diagnose, diagnose, List.append_assoc]

theorem emits_leaf (state : ProjectionState) {kind : SourceNodeKind} (hkind : kind ≠ .Section)
    (label : Option String) (text : String) (page : UInt32) (printed_label : Option String)
    (bbox : Bbox) :
    ∃ candidate, candidate.canonical_text = text ∧ Emits state candidate
      (emit state.current_section kind label text (.Pdf page printed_label bbox) state).2 :=
  ⟨_, rfl, ⟨rfl, rfl, rfl, rfl, ⟨_, _, _, rfl⟩, .inl ⟨hkind, rfl, rfl⟩⟩⟩

/-! ## The invariant -/

/-- **What every state of a projection keeps.** -/
structure Sound (state : ProjectionState) : Prop where
  ids : state.candidates.map CandidateNode.provisional_id =
    (List.range state.candidates.length).map provisional_id
  located : ∀ candidate ∈ state.candidates, ∃ page label bbox,
    candidate.locator = .Pdf page label bbox
  /-- The siblings are numbered in the order of their emission. -/
  numbered : ∀ parent, ((candidates_under state.candidates parent).map CandidateNode.ordinal) =
    (List.range (candidates_under state.candidates parent).length).map UInt32.ofNat
  counted : ∀ parent, parent ≠ some "" → state.ordinals (parent.getD "") =
    UInt32.ofNat (candidates_under state.candidates parent).length
  named : ∀ opened ∈ state.sections, opened.2 ≠ ""
  /-- The stack finds the last section within a bound. -/
  opened : ∀ fits, Bounds fits →
    (state.sections.find? fun opened => fits opened.1) = last_section state.candidates fits
  hung : ∀ before candidate after, state.candidates = before ++ candidate :: after →
    (candidate.kind ≠ .Section ∧
        candidate.parent_id = (last_section before fun _ => true).map Prod.snd) ∨
      ∃ depth, candidate.kind = .Section ∧ section_depth candidate = some depth ∧
        candidate.parent_id = (last_section before fun d => d < depth).map Prod.snd

theorem Sound.new : Sound ProjectionState.new where
  ids := rfl
  located := by
    intro candidate hcandidate
    cases hcandidate
  numbered := fun _ => rfl
  counted := fun _ _ => rfl
  named := by
    intro opened hopened
    cases hopened
  opened := fun _ _ => rfl
  hung := by
    intro before candidate after h
    exact absurd h.symm (List.append_ne_nil_of_right_ne_nil _ (List.cons_ne_nil _ _))

/-- The first section in a stack without the sections that are too deep. -/
theorem head?_dropWhile_eq_find? {α : Type*} (p : α → Bool) (l : List α) :
    (l.dropWhile p).head? = l.find? fun a => !p a := by
  induction l with
  | nil => rfl
  | cons a l ih =>
    rw [List.dropWhile_cons, List.find?_cons]
    cases hp : p a with
    | true => simpa using ih
    | false => rfl

theorem find?_dropWhile {sections : List (ℕ × String)} {depth : ℕ} {fits : ℕ → Bool}
    (hbound : Bounds fits) (hout : fits depth = false) :
    ((sections.dropWhile fun opened => depth ≤ opened.1).find? fun opened => fits opened.1) =
      sections.find? fun opened => fits opened.1 := by
  induction sections with
  | nil => rfl
  | cons opened sections ih =>
    rw [List.dropWhile_cons]
    by_cases hle : depth ≤ opened.1
    · have hnot : fits opened.1 = false := by
        by_contra hfits
        rw [Bool.not_eq_false] at hfits
        rw [hbound depth opened.1 hle hfits] at hout
        cases hout
      rw [if_pos (decide_eq_true hle), ih, List.find?_cons_of_neg (by rw [hnot]; decide)]
    · rw [if_neg fun h => hle (of_decide_eq_true h)]

theorem candidates_under_snoc (candidates : List CandidateNode) (candidate : CandidateNode)
    (parent : Option String) :
    candidates_under (candidates ++ [candidate]) parent =
      if candidate.parent_id = parent then candidates_under candidates parent ++ [candidate]
      else candidates_under candidates parent := by
  rw [candidates_under, List.filter_append, ← candidates_under, List.filter_cons, List.filter_nil]
  by_cases hparent : candidate.parent_id = parent
  · rw [if_pos (beq_iff_eq.mpr hparent), if_pos hparent]
  · rw [if_neg fun h => hparent (beq_iff_eq.mp h), if_neg hparent, List.append_nil]

/-- The ids are told apart from each other, and from the key of the root set. -/
theorem provisional_id_inj {m n : ℕ} (h : provisional_id m = provisional_id n) : m = n :=
  decimal_inj.mp (String.append_right_inj "cand-" |>.mp h)

theorem provisional_id_ne_empty (n : ℕ) : provisional_id n ≠ "" := by
  intro h
  have hlength := congrArg String.length h
  rw [provisional_id, String.length_append] at hlength
  have hcand : "cand-".length = 5 := by decide
  rw [hcand] at hlength
  have hempty : "".length = 0 := by decide
  omega

/-- Parents are told apart by the keys of their counters. -/
theorem eq_of_getD_eq {p q : Option String} (hp : p ≠ some "") (hq : q ≠ some "")
    (h : p.getD "" = q.getD "") : p = q := by
  cases p with
  | none =>
    cases q with
    | none => rfl
    | some id => exact absurd (congrArg some h.symm) hq
  | some id =>
    cases q with
    | none => exact absurd (congrArg some h) hp
    | some id' => exact congrArg some h

section Emission

variable {state state' : ProjectionState} {candidate : CandidateNode}

/-- What the sections are after an emission: those of before, some of them closed, and the new
one if there is one. -/
theorem Emits.sections_sub (hemits : Emits state candidate state') {opened : ℕ × String}
    (hopened : opened ∈ state'.sections) :
    opened ∈ state.sections ∨ opened.2 = candidate.provisional_id := by
  rcases hemits.opened with ⟨-, hsections, -⟩ | ⟨depth, -, -, hsections, -⟩
  · exact .inl (hsections ▸ hopened)
  · rw [hsections] at hopened
    rcases List.mem_cons.mp hopened with rfl | hopened
    · exact .inr rfl
    · exact .inl ((List.dropWhile_sublist _).mem hopened)

theorem Emits.parent_opened (hemits : Emits state candidate state') {id : String}
    (hparent : candidate.parent_id = some id) : ∃ opened ∈ state.sections, opened.2 = id := by
  rcases hemits.opened with ⟨-, -, hhead⟩ | ⟨depth, -, -, -, hhead⟩
  · rw [hparent] at hhead
    obtain ⟨opened, hopened, hid⟩ := Option.map_eq_some_iff.mp hhead.symm
    exact ⟨opened, List.mem_of_head? hopened, hid⟩
  · rw [hparent] at hhead
    obtain ⟨opened, hopened, hid⟩ := Option.map_eq_some_iff.mp hhead.symm
    exact ⟨opened, (List.dropWhile_sublist _).mem (List.mem_of_head? hopened), hid⟩

theorem Sound.opened_emits (h : Sound state) (hemits : Emits state candidate state')
    {fits : ℕ → Bool} (hbound : Bounds fits) :
    (state'.sections.find? fun opened => fits opened.1) = last_section state'.candidates fits := by
  rw [hemits.candidates, last_section_snoc]
  rcases hemits.opened with ⟨hkind, hsections, -⟩ | ⟨depth, -, hdepth, hsections, -⟩
  · rw [hsections, section_depth, if_neg hkind, Option.filter_none, Option.map_none, Option.none_or]
    exact h.opened fits hbound
  · rw [hsections, hdepth, List.find?_cons]
    cases hfits : fits depth with
    | true =>
      rw [Option.filter_some_pos hfits]
      rfl
    | false =>
      rw [Option.filter_some_neg hfits, Option.map_none, Option.none_or,
        find?_dropWhile hbound hfits]
      exact h.opened fits hbound

theorem Sound.hung_emits (h : Sound state) (hemits : Emits state candidate state') :
    (candidate.kind ≠ .Section ∧
        candidate.parent_id = (last_section state.candidates fun _ => true).map Prod.snd) ∨
      ∃ depth, candidate.kind = .Section ∧ section_depth candidate = some depth ∧
        candidate.parent_id = (last_section state.candidates fun d => d < depth).map Prod.snd := by
  rcases hemits.opened with ⟨hkind, -, hparent⟩ | ⟨depth, hkind, hdepth, -, hparent⟩
  · refine .inl ⟨hkind, ?_⟩
    have hall : Bounds fun _ => true := fun _ _ _ _ => rfl
    have hhead : (state.sections.find? fun _ => true) = state.sections.head? := by
      cases state.sections <;> rfl
    rw [hparent, ← hhead, h.opened _ hall]
  · refine .inr ⟨depth, hkind, hdepth, ?_⟩
    have hbelow : Bounds fun d => d < depth := by
      intro d e hle hlt
      exact decide_eq_true (Nat.lt_of_le_of_lt hle (of_decide_eq_true hlt))
    rw [hparent, head?_dropWhile_eq_find?, ← h.opened _ hbelow]
    refine congrArg _ (congrFun (congrArg _ (funext fun opened => ?_)) _)
    rw [← decide_not]
    exact decide_eq_decide.mpr Nat.not_le

/-- **An emission keeps the invariant.** -/
theorem Sound.emits (h : Sound state) (hemits : Emits state candidate state') : Sound state' := by
  have hparent : candidate.parent_id ≠ some "" := by
    intro hempty
    obtain ⟨opened, hopened, hid⟩ := hemits.parent_opened hempty
    exact h.named opened hopened hid
  have hordinal : candidate.ordinal =
      UInt32.ofNat (candidates_under state.candidates candidate.parent_id).length := by
    rw [hemits.ordinal, h.counted _ hparent]
  refine ⟨?_, ?_, ?_, ?_, ?_, ?_, ?_⟩
  · rw [hemits.candidates, List.map_append, h.ids, List.length_append, List.length_singleton,
      List.range_succ, List.map_append, List.map_singleton, List.map_singleton, hemits.id]
  · intro c hc
    rw [hemits.candidates, List.mem_append, List.mem_singleton] at hc
    rcases hc with hc | rfl
    · exact h.located c hc
    · exact hemits.locator
  · intro parent
    rw [hemits.candidates, candidates_under_snoc]
    by_cases hsame : candidate.parent_id = parent
    · rw [if_pos hsame, List.map_append, h.numbered, List.length_append, List.length_singleton,
        List.range_succ, List.map_append, List.map_singleton, List.map_singleton, hordinal, hsame]
    · rw [if_neg hsame, h.numbered]
  · intro parent hne
    rw [hemits.candidates, candidates_under_snoc, hemits.ordinals]
    by_cases hsame : candidate.parent_id = parent
    · rw [if_pos hsame, ← hsame, Function.update_self, List.length_append, List.length_singleton,
        hordinal, UInt32.ofNat_add]
      rfl
    · have hkey : parent.getD "" ≠ candidate.parent_id.getD "" := fun heq =>
        hsame (eq_of_getD_eq hne hparent heq).symm
      rw [if_neg hsame, Function.update_of_ne hkey, h.counted _ hne]
  · intro opened hopened
    rcases hemits.sections_sub hopened with hopened | hid
    · exact h.named opened hopened
    · rw [hid, hemits.id]
      exact provisional_id_ne_empty _
  · exact fun fits hbound => h.opened_emits hemits hbound
  · intro before c after hsplit
    rw [hemits.candidates] at hsplit
    rcases List.eq_nil_or_concat after with rfl | ⟨init, last, rfl⟩
    · obtain ⟨rfl, hc⟩ := List.append_inj' hsplit rfl
      obtain rfl := List.singleton_inj.mp hc
      exact h.hung_emits hemits
    · rw [List.concat_eq_append, ← List.cons_append, ← List.append_assoc] at hsplit
      exact h.hung before c init (List.append_inj' hsplit rfl).1

/-- Diagnostics change nothing the invariant is about. -/
theorem Sound.diagnose (h : Sound state) (diagnostics : List PdfIngestDiagnostic) :
    Sound (state.diagnose diagnostics) :=
  ⟨h.ids, h.located, h.numbered, h.counted, h.named, h.opened, h.hung⟩

end Emission

section Blocks

variable [Coordinates] (rules : PdfLayoutRules)

/-- The lines of a block that no band excludes. -/
def retained_lines (block : BboxBlock) : List BboxLine :=
  block.lines.filter fun line => (excluded_band rules line).isNone

/-- A block whose lines are all excluded emits nothing. -/
theorem project_block_silent {block : BboxBlock} (hnone : retained_lines rules block = [])
    (page index : UInt32) (printed_label : Option String) (state : ProjectionState) :
    ∃ diagnostics, project_block rules page index printed_label block state =
      state.diagnose diagnostics := by
  rw [retained_lines] at hnone
  simp only [project_block, hnone]
  split
  · exact ⟨_, ProjectionState.diagnose_diagnose _ _ _⟩
  · exact ⟨_, rfl⟩

/-- **A block with a line left emits one candidate**, with the text of the lines left. -/
theorem project_block_emits {block : BboxBlock} (hsome : retained_lines rules block ≠ [])
    (page index : UInt32) (printed_label : Option String) (state : ProjectionState) :
    ∃ candidate, candidate.canonical_text = block_text (retained_lines rules block) ∧
      Emits state candidate (project_block rules page index printed_label block state) := by
  rw [project_block]
  rw [retained_lines] at hsome ⊢
  cases hretained : block.lines.filter fun line => (excluded_band rules line).isNone with
  | nil => exact absurd hretained hsome
  | cons line rest =>
    dsimp only
    -- the excluded lines are diagnosed first, and that changes nothing an emission reads
    have hleaf : ∀ (diagnostics : List PdfIngestDiagnostic) (kind : SourceNodeKind),
        kind ≠ .Section → ∃ candidate : CandidateNode,
          candidate.canonical_text = block_text (line :: rest) ∧ Emits state candidate
            (emit (state.diagnose diagnostics).current_section kind none (block_text (line :: rest))
              (.Pdf page printed_label block.bbox) (state.diagnose diagnostics)).2 := by
      intro diagnostics kind hkind
      obtain ⟨candidate, htext, hemits⟩ := emits_leaf (state.diagnose diagnostics) hkind none
        (block_text (line :: rest)) page printed_label block.bbox
      exact ⟨candidate, htext, hemits.of_diagnose⟩
    split
    · exact hleaf _ _ (by decide)
    · split
      · exact hleaf _ _ (by decide)
      · split
        · next depth hdepth =>
          refine ⟨_, ?_, ⟨rfl, rfl, rfl, rfl, ⟨_, _, _, rfl⟩, .inr ⟨depth, rfl, ?_, rfl, rfl⟩⟩⟩
          · rfl
          · rw [section_depth, if_pos rfl, Option.bind_some]
            split at hdepth
            · exact (Option.filter_eq_some_iff.mp hdepth).1
            · cases hdepth
        · split
          · rw [ProjectionState.diagnose_diagnose]
            exact hleaf _ _ (by decide)
          · exact hleaf _ _ (by decide)

theorem project_block_diagnostics (page index : UInt32) (printed_label : Option String)
    (block : BboxBlock) (state : ProjectionState) :
    ∃ notices : List PdfIngestDiagnostic, (∀ notice ∈ notices, ∀ band,
        notice.kind ≠ .ExcludedByRule band) ∧
      (project_block rules page index printed_label block state).diagnostics =
        state.diagnostics ++ excluded_lines rules page index block ++ notices := by
  rw [project_block]
  cases hretained : block.lines.filter fun line => (excluded_band rules line).isNone with
  | nil =>
    dsimp only
    split
    · refine ⟨[_], ?_, rfl⟩
      intro notice hnotice band
      rw [List.mem_singleton.mp hnotice]
      exact PdfIngestDiagnosticKind.noConfusion
    · exact ⟨[], fun notice hnotice => absurd hnotice List.not_mem_nil, (List.append_nil _).symm⟩
  | cons line rest =>
    have hquiet : ∃ notices : List PdfIngestDiagnostic, (∀ notice ∈ notices, ∀ band,
        notice.kind ≠ .ExcludedByRule band) ∧
        (state.diagnose (excluded_lines rules page index block)).diagnostics =
          state.diagnostics ++ excluded_lines rules page index block ++ notices :=
      ⟨[], fun notice hnotice => absurd hnotice List.not_mem_nil, (List.append_nil _).symm⟩
    dsimp only
    split
    · exact hquiet
    · split
      · exact hquiet
      · split
        · exact hquiet
        · split
          · refine ⟨[_], ?_, rfl⟩
            intro notice hnotice band
            rw [List.mem_singleton.mp hnotice]
            exact PdfIngestDiagnosticKind.noConfusion
          · exact hquiet

end Blocks

/-! ## Nesting -/

/-- **Structure is conserved.** A section hangs under the nearest earlier open section of smaller
depth, everything else under the nearest open section, and siblings are numbered from zero on in
the order of their emission. -/
structure Nested (candidates : List CandidateNode) : Prop where
  sections : ∀ before candidate after, candidates = before ++ candidate :: after →
    candidate.kind = .Section → ∃ depth, section_depth candidate = some depth ∧
      NearestOpen before (fun d => d < depth) candidate.parent_id
  leaves : ∀ before candidate after, candidates = before ++ candidate :: after →
    candidate.kind ≠ .Section → NearestOpen before (fun _ => True) candidate.parent_id
  numbered : ∀ parent, ((candidates_under candidates parent).map fun c => c.ordinal.toNat) =
    List.range (candidates_under candidates parent).length

/-- The invariant, read off the candidates. -/
theorem Sound.nested {state : ProjectionState} (h : Sound state)
    (hsmall : state.candidates.length ≤ 2 ^ 32) : Nested state.candidates where
  sections := by
    intro before candidate after hsplit hkind
    rcases h.hung before candidate after hsplit with ⟨hne, -⟩ | ⟨depth, -, hdepth, hparent⟩
    · exact absurd hkind hne
    · refine ⟨depth, hdepth, ?_⟩
      have hbelow : Bounds fun d => d < depth := by
        intro d e hle hlt
        exact decide_eq_true (Nat.lt_of_le_of_lt hle (of_decide_eq_true hlt))
      have hnearest := (nearest_of_last hbelow : NearestOpen before _ _)
      simp only [decide_eq_true_eq] at hnearest
      rw [hparent]
      exact hnearest
  leaves := by
    intro before candidate after hsplit hkind
    rcases h.hung before candidate after hsplit with ⟨-, hparent⟩ | ⟨depth, hsection, -⟩
    · have hall : Bounds fun _ => true := fun _ _ _ _ => rfl
      have hnearest := (nearest_of_last hall : NearestOpen before _ _)
      simp only at hnearest
      rw [hparent]
      exact hnearest
    · exact absurd hsection hkind
  numbered := by
    intro parent
    have hle : (candidates_under state.candidates parent).length ≤ 2 ^ 32 :=
      (List.length_filter_le _ _).trans hsmall
    have htoNat : (fun c : CandidateNode => c.ordinal.toNat) =
        UInt32.toNat ∘ CandidateNode.ordinal := rfl
    rw [htoNat, ← List.map_map, h.numbered, List.map_map]
    refine (List.map_congr_left fun n hn => ?_).trans (List.map_id _)
    exact UInt32.toNat_ofNat_of_lt' ((List.mem_range.mp hn).trans_le hle)

theorem NearestOpen.mem {before : List CandidateNode} {fits : ℕ → Prop} {id : String}
    (h : NearestOpen before fits (some id)) :
    ∃ parent ∈ before, parent.provisional_id = id ∧ parent.kind = .Section := by
  obtain ⟨outer, opened, inner, depth, hbefore, hid, hdepth, -⟩ := h
  refine ⟨opened, ?_, hid, ?_⟩
  · rw [hbefore]
    exact List.mem_append_right _ List.mem_cons_self
  · by_contra hkind
    rw [section_depth, if_neg hkind] at hdepth
    cases hdepth

/-- **A projection is planted.** -/
theorem Sound.planted {state : ProjectionState} (h : Sound state)
    (hsmall : state.candidates.length ≤ 2 ^ 32) : Planted PDF_MEDIA_TYPE state.candidates where
  distinct := by
    rw [h.ids]
    exact List.nodup_range.map fun _ _ => provisional_id_inj
  below := by
    intro before candidate after hsplit id hparent
    have hmem : ∃ parent ∈ before, parent.provisional_id = id ∧ parent.kind = .Section := by
      by_cases hkind : candidate.kind = .Section
      · obtain ⟨depth, -, hnearest⟩ :=
          (h.nested hsmall).sections before candidate after hsplit hkind
        rw [hparent] at hnearest
        exact hnearest.mem
      · have hnearest := (h.nested hsmall).leaves before candidate after hsplit hkind
        rw [hparent] at hnearest
        exact hnearest.mem
    obtain ⟨parent, hbefore, hid, hsection⟩ := hmem
    refine ⟨parent, hbefore, hid, ?_⟩
    rw [hsection]
    rfl
  numbered := fun parent => List.Perm.of_eq ((h.nested hsmall).numbered parent)
  medium := by
    intro candidate hcandidate
    obtain ⟨page, label, bbox, hlocator⟩ := h.located candidate hcandidate
    rw [hlocator]
    exact (by decide +kernel : eq_ignore_ascii_case "application/pdf" "application/pdf" = true)

end Evidence.Corpus.Pdf
