/-
What the walk **accounts for**: the texts it takes and the elements it announces.

Between two states of the adapter, what the nodes and the open notes hold of a text grows by
what was collected of it, and what is lost on the way are runs of text that are blank
(`Accounts`). Each loop of the walk accounts for what its context takes and announces: the
statements follow the loops one by one, and are put together along the tree.
-/
import Evidence.Corpus.Ingest.Html.Descent
import Evidence.Corpus.Ingest.Html.Moves

set_option autoImplicit false

namespace Evidence.Corpus.Html

open Check

/-! ## States -/

/-- How often the candidates show a text. -/
def Adapter.shown (a : Adapter) (id : ℕ) : ℕ :=
  (a.candidates.map fun c => c.sources.count id).sum

/-- How often the candidates and the open notes hold a text. -/
def Adapter.held (a : Adapter) (id : ℕ) : ℕ :=
  a.shown id + (a.absorbers.map fun frame => frame.text.sources.count id).sum

def HtmlIngestDiagnosticKind.announces_loss : HtmlIngestDiagnosticKind → Bool
  | .ExcludedByRecipe _ | .DroppedByClosedRule _ | .UnsupportedElement _ => true
  | .DuplicateAnchor _ | .DanglingInternalLink _ => false

/-- An element is announced in a diagnostic. -/
def Adapter.announced (a : Adapter) (id : ℕ) : Prop :=
  ∃ d ∈ a.diagnostics, d.kind.announces_loss = true ∧ d.element = id

/-- A buffer that holds a text is not blank. -/
def Raw.Sound (id : ℕ) (raw : Raw) : Prop := id ∈ raw.sources → is_blank raw.text = false

/-- The texts of an id are not blank. -/
def Live (id : ℕ) (nodes : List Dom) : Prop :=
  ∀ t ∈ texts nodes, t.id = id → is_blank t.text = false

/-- **From one state to another**, `n` takings of a text and the announcement of an element are
accounted for; what was dropped of the text was blank. -/
structure Accounts (live : Prop) (t e : ℕ) (a b : Adapter) (n : ℕ) (announced : Prop) : Prop where
  held : ∃ dropped, a.held t + n = b.held t + dropped ∧ (live → dropped = 0)
  announced_iff : b.announced e ↔ a.announced e ∨ announced

section Accounts

variable {live : Prop} {t e : ℕ} {a b c : Adapter} {m n : ℕ} {p q : Prop}

namespace Accounts

theorem refl (a : Adapter) : Accounts live t e a a 0 False :=
  ⟨⟨0, rfl, fun _ => rfl⟩, (or_iff_left id).symm⟩

theorem trans (h : Accounts live t e a b m p) (h' : Accounts live t e b c n q) :
    Accounts live t e a c (m + n) (p ∨ q) := by
  obtain ⟨dropped, hheld, hlive⟩ := h.held
  obtain ⟨dropped', hheld', hlive'⟩ := h'.held
  refine ⟨⟨dropped + dropped', by omega, fun hl => by rw [hlive hl, hlive' hl]⟩, ?_⟩
  rw [h'.announced_iff, h.announced_iff, or_assoc]

theorem congr (h : Accounts live t e a b m p) (hn : m = n) (hp : p ↔ q) :
    Accounts live t e a b n q := by
  rw [← hn]
  exact ⟨h.held, h.announced_iff.trans (or_congr_right hp)⟩

/-- A step that accounts for nothing comes first. -/
theorem after (h : Accounts live t e a b 0 False) (h' : Accounts live t e b c n q) :
    Accounts live t e a c n q :=
  (h.trans h').congr (Nat.zero_add n) (or_iff_right id)

/-- A step that accounts for nothing comes last. -/
theorem before (h : Accounts live t e a b n q) (h' : Accounts live t e b c 0 False) :
    Accounts live t e a c n q :=
  (h.trans h').congr (Nat.add_zero n) (or_iff_left id)

/-- States that hold the same, with the same diagnostics. -/
theorem same (hcandidates : b.candidates = a.candidates) (habsorbers : b.absorbers = a.absorbers)
    (hdiagnostics : b.diagnostics = a.diagnostics) : Accounts live t e a b 0 False := by
  refine ⟨⟨0, ?_, fun _ => rfl⟩, ?_⟩
  · rw [Adapter.held, Adapter.held, Adapter.shown, Adapter.shown, hcandidates, habsorbers]
  · rw [Adapter.announced, Adapter.announced, hdiagnostics, or_false]

theorem diagnose (kind : HtmlIngestDiagnosticKind) (path : List UInt32) (detail : String)
    (el : Element) : Accounts live t e a (a.diagnose kind path detail el) 0
      (el.id = e ∧ kind.announces_loss = true) := by
  refine ⟨⟨0, rfl, fun _ => rfl⟩, ?_⟩
  simp only [Adapter.announced, Adapter.diagnose, List.mem_append, List.mem_singleton, or_and_right,
    exists_or, exists_eq_left]
  exact or_congr_right and_comm

/-- A dropped element is announced if it carries content. -/
theorem dropped (el : Element) (children : List Dom) (path : List UInt32) :
    Accounts live t e a (diagnose_dropped el children path a) 0
      (el.id = e ∧ carries_content children = true) := by
  rw [diagnose_dropped]
  by_cases hcontent : carries_content children = true
  · rw [if_pos hcontent]
    exact (diagnose _ _ _ _).congr rfl (and_congr_right fun _ => iff_of_true rfl hcontent)
  · rw [if_neg hcontent]
    exact (refl a).congr rfl (iff_of_false id fun h => hcontent h.2)

theorem table_child (el : Element) (children : List Dom) (path : List UInt32) :
    Accounts live t e a (diagnose_table_child el children path a) 0
      (el.id = e ∧ Setup.foreign_announces el children = true) := by
  rw [diagnose_table_child, Setup.foreign_announces]
  by_cases hname : is_dropped el.name = true
  · rw [if_pos hname, if_pos hname]
    exact dropped _ _ _
  · rw [if_neg hname, if_neg hname]
    exact diagnose _ _ _ _

theorem record_link (el : Element) (path : List UInt32) :
    Accounts live t e a (a.record_link el path) 0 False := by
  have hquiet := record_link_quiet (a := a) el path
  refine same hquiet.candidates hquiet.absorbers ?_
  rw [Adapter.record_link]
  split
  · rfl
  · split
    · rfl
    · rfl

/-- **An emission shows the texts it was collected from.** -/
theorem emitted (s : Setup) (parent : Option String) (path : List UInt32)
    (content : EmitContent) :
    Accounts live t e a (a.emitted s parent path content) (content.sources.count t) False := by
  refine ⟨⟨0, ?_, fun _ => rfl⟩, (or_iff_left id).symm⟩
  rw [Adapter.held, Adapter.held, Adapter.shown, Adapter.shown, Adapter.emitted, List.map_append,
    List.sum_append, List.map_singleton, List.sum_singleton]
  rw [show (s.candidate (provisional_id a.next_provisional) parent (a.ordinals parent) path
    content).sources = content.sources from rfl]
  dsimp only
  omega

end Accounts

/-! ## Buffers -/

theorem Raw.sound_empty : Raw.empty.Sound t := fun h => absurd h List.not_mem_nil

/-- What is pushed onto a sound buffer keeps it sound. -/
theorem Raw.Sound.append {raw : Raw} {text : String} (h : raw.Sound t) (hmem : t ∈ raw.sources) :
    is_blank (raw.text ++ text) = false := by
  rw [← Bool.not_eq_true]
  intro hblank
  have hkept := h hmem
  rw [(is_blank_append hblank).1] at hkept
  cases hkept

theorem Raw.Sound.push_text {raw : Raw} (h : raw.Sound t) {n : ℕ} {text : String}
    (htext : n = t → is_blank text = false) : (raw.push_text n text).Sound t := by
  intro hmem
  rw [Raw.push_text, List.mem_append, List.mem_singleton] at hmem
  rcases hmem with hmem | hmem
  · exact h.append hmem
  · rw [Raw.push_text, ← Bool.not_eq_true]
    intro hblank
    have htrue := (is_blank_append hblank).2
    rw [htext hmem.symm] at htrue
    cases htrue

theorem Raw.Sound.push_newline {raw : Raw} (h : raw.Sound t) : raw.push_newline.Sound t :=
  fun hmem => h.append hmem

theorem Raw.Sound.break_line {raw : Raw} (h : raw.Sound t) : raw.break_line.Sound t := by
  rw [Raw.break_line]
  split
  · exact h
  · exact h.push_newline

theorem Raw.sources_break_line (raw : Raw) : raw.break_line.sources = raw.sources := by
  rw [Raw.break_line]
  split
  · rfl
  · rfl

/-! ## Trees -/

theorem Live.element {el : Element} {children rest : List Dom}
    (h : Live t (.Element el children :: rest)) : Live t children ∧ Live t rest := by
  rw [Live, texts, texts_of] at h
  refine ⟨fun site hsite => ?_, fun site hsite => h site (List.mem_append_right _ hsite)⟩
  exact h (site.under el) (List.mem_append_left _ (List.mem_map_of_mem hsite))

theorem Live.text {n : ℕ} {text : String} {rest : List Dom} (h : Live t (.Text n text :: rest)) :
    (n = t → is_blank text = false) ∧ Live t rest := by
  rw [Live, texts, texts_of] at h
  exact ⟨h ⟨[], n, text⟩ (List.mem_append_left _ (List.mem_singleton.mpr rfl)),
    fun site hsite => h site (List.mem_append_right _ hsite)⟩

theorem Live.other {rest : List Dom} (h : Live t (.Other :: rest)) : Live t rest := h

/-! ## Collecting -/

/-- **Collecting accounts for what its context takes**: the buffer grows by it. -/
theorem collect_text_accounts (s : Setup) (fold_blocks : Bool) (nodes : List Dom) :
    ∀ (path : List UInt32) (index : UInt32) (state : Adapter × Raw), (live → Live t nodes) →
      (live → state.2.Sound t) →
      Accounts live t e state.1 (collect_text fold_blocks nodes path index state).1 0
          (s.Announced (.Inline fold_blocks) nodes e) ∧
        (collect_text fold_blocks nodes path index state).2.sources.count t =
          state.2.sources.count t + s.taken (.Inline fold_blocks) nodes t ∧
        (live → (collect_text fold_blocks nodes path index state).2.Sound t) := by
  induction nodes using Dom.children_induction with
  | nil =>
    intro path index state _ hsound
    exact ⟨(Accounts.refl _).congr rfl (iff_of_false id Setup.not_announced_nil), rfl, hsound⟩
  | text n text rest ih =>
    intro path index state hlive hsound
    rw [collect_text, collect_node]
    obtain ⟨haccounts, hcount, hsound'⟩ := ih path (next_index (.Text n text) index)
      (state.1, state.2.push_text n text) (fun h => (hlive h).text.2)
      (fun h => (hsound h).push_text (hlive h).text.1)
    refine ⟨haccounts, ?_, hsound'⟩
    rw [hcount, Setup.taken_text, Raw.push_text, List.count_append, List.count_singleton]
    simp only [Context.takes, and_true, beq_iff_eq]
    omega
  | other rest ih =>
    intro path index state hlive hsound
    rw [collect_text, collect_node]
    exact ih path (next_index .Other index) state hlive hsound
  | element el children rest ihc ihr =>
    intro path index state hlive hsound
    rw [collect_text, collect_node]
    -- what one element accounts for, and the rest after it
    have hrest (next : Adapter × Raw) (n : ℕ) (p : Prop)
        (hnext : Accounts live t e state.1 next.1 0 p)
        (hcount : next.2.sources.count t = state.2.sources.count t + n)
        (hsound' : live → next.2.Sound t)
        (hn : ((Setup.folded fold_blocks el).map fun d => s.taken d children t).sum = n)
        (hp : ((el.id = e ∧ Setup.fold_announces fold_blocks el children = true) ∨
          ∃ d ∈ Setup.folded fold_blocks el, s.Announced d children e) ↔ p) :
        Accounts live t e state.1
            (collect_text fold_blocks rest path (next_index (.Element el children) index) next).1 0
            (s.Announced (.Inline fold_blocks) (.Element el children :: rest) e) ∧
          (collect_text fold_blocks rest path (next_index (.Element el children) index)
              next).2.sources.count t =
            state.2.sources.count t +
              s.taken (.Inline fold_blocks) (.Element el children :: rest) t ∧
          (live → (collect_text fold_blocks rest path
            (next_index (.Element el children) index) next).2.Sound t) := by
      obtain ⟨haccounts, hcounts, hsounds⟩ :=
        ihr path (next_index (.Element el children) index) next (fun h => (hlive h).element.2)
          hsound'
      refine ⟨(hnext.trans haccounts).congr rfl ?_, ?_, hsounds⟩
      · rw [Setup.announced_element]
        exact or_congr_left hp.symm
      · rw [hcounts, hcount, Setup.taken_element, ← hn]
        rw [show s.enter (.Inline fold_blocks) el = Setup.folded fold_blocks el from rfl]
        omega
    have hchildren := ihc (path ++ [index]) 0
    have hlive' : live → Live t children := fun h => (hlive h).element.1
    obtain ⟨state, out⟩ := state
    cases hkind : inline_kind fold_blocks el.name with
    | Dropped =>
      refine hrest _ 0 _ (Accounts.dropped el children (path ++ [index])) rfl hsound ?_ ?_
      · simp only [Setup.folded, hkind, List.map_nil, List.sum_nil]
      · simp only [Setup.folded, Setup.fold_announces, hkind, List.not_mem_nil, false_and,
          exists_false, or_false]
    | Break =>
      refine hrest _ 0 _ (Accounts.refl _) rfl (fun h => (hsound h).push_newline) ?_ ?_
      · simp only [Setup.folded, hkind, List.map_nil, List.sum_nil]
      · simp only [Setup.folded, Setup.fold_announces, hkind, List.not_mem_nil, false_and,
          exists_false, or_false, Bool.false_eq_true, and_false]
    | Link =>
      obtain ⟨haccounts, hcount, hsound'⟩ :=
        hchildren (state.record_link el (path ++ [index]), out) hlive' hsound
      refine hrest _ _ _ ((Accounts.record_link el (path ++ [index])).after haccounts) hcount
        hsound' ?_ ?_
      · simp only [Setup.folded, hkind, List.map_cons, List.map_nil, List.sum_singleton]
      · simp only [Setup.folded, Setup.fold_announces, hkind, List.mem_singleton,
          exists_eq_left, Bool.false_eq_true, and_false, false_or]
    | Block =>
      refine hrest _ 0 _ (Accounts.refl _) rfl hsound ?_ ?_
      · simp only [Setup.folded, hkind, List.map_nil, List.sum_nil]
      · simp only [Setup.folded, Setup.fold_announces, hkind, List.not_mem_nil, false_and,
          exists_false, or_false, Bool.false_eq_true, and_false]
    | Paragraph =>
      obtain ⟨haccounts, hcount, hsound'⟩ :=
        hchildren (state, out.break_line) hlive' fun h => (hsound h).break_line
      rw [Raw.sources_break_line] at hcount
      refine hrest _ _ _ haccounts hcount hsound' ?_ ?_
      · simp only [Setup.folded, hkind, List.map_cons, List.map_nil, List.sum_singleton]
      · simp only [Setup.folded, Setup.fold_announces, hkind, List.mem_singleton,
          exists_eq_left, Bool.false_eq_true, and_false, false_or]
    | Transparent =>
      obtain ⟨haccounts, hcount, hsound'⟩ := hchildren (state, out) hlive' hsound
      refine hrest _ _ _ haccounts hcount hsound' ?_ ?_
      · simp only [Setup.folded, hkind, List.map_cons, List.map_nil, List.sum_singleton]
      · simp only [Setup.folded, Setup.fold_announces, hkind, List.mem_singleton,
          exists_eq_left, Bool.false_eq_true, and_false, false_or]
    | Unsupported =>
      obtain ⟨haccounts, hcount, hsound'⟩ := hchildren (state.diagnose _ _ _ el, out) hlive' hsound
      refine hrest _ _ _ ((Accounts.diagnose _ _ _ el).trans haccounts) hcount hsound' ?_ ?_
      · simp only [Setup.folded, hkind, List.map_cons, List.map_nil, List.sum_singleton]
      · simp only [Setup.folded, Setup.fold_announces, hkind, List.mem_singleton,
          exists_eq_left, HtmlIngestDiagnosticKind.announces_loss]


/-- Collecting into an empty buffer. -/
theorem collect_accounts (s : Setup) (fold_blocks : Bool) {nodes : List Dom} (path : List UInt32)
    (a : Adapter) (hlive : live → Live t nodes) :
    Accounts live t e a (collect fold_blocks nodes path a).1 0
        (s.Announced (.Inline fold_blocks) nodes e) ∧
      (collect fold_blocks nodes path a).2.sources.count t =
        s.taken (.Inline fold_blocks) nodes t ∧
      (live → (collect fold_blocks nodes path a).2.Sound t) := by
  obtain ⟨haccounts, hcount, hsound⟩ :=
    collect_text_accounts s fold_blocks nodes path 0 (a, Raw.empty) hlive fun _ => Raw.sound_empty
  refine ⟨haccounts, ?_, hsound⟩
  rw [collect, hcount, Raw.empty, List.count_nil, Nat.zero_add]

/-- **A step that accounts for what was collected** accounts, with the collecting, for what the
context takes and announces. -/
theorem collect_then (s : Setup) (fold_blocks : Bool) {nodes : List Dom} (path : List UInt32)
    (hlive : live → Live t nodes)
    (hstep : (live → (collect fold_blocks nodes path a).2.Sound t) →
      Accounts live t e (collect fold_blocks nodes path a).1 b
        ((collect fold_blocks nodes path a).2.sources.count t) False) :
    Accounts live t e a b (s.taken (.Inline fold_blocks) nodes t)
      (s.Announced (.Inline fold_blocks) nodes e) := by
  obtain ⟨haccounts, hcount, hsound⟩ := collect_accounts (e := e) s fold_blocks path a hlive
  refine (haccounts.trans (hstep hsound)).congr ?_ (or_false _).to_iff
  rw [Nat.zero_add, hcount]

/-! ## Emissions -/

variable [UnicodeTables] [StrDebug] {s : Setup}

omit [UnicodeTables] [StrDebug] in
theorem emit_accounts {parent : Option String} {path : List UInt32} {content : EmitContent}
    {out : String × Adapter} (h : emit s parent path content a = .ok out) :
    Accounts live t e a out.2 (content.sources.count t) False := by
  obtain ⟨-, rfl⟩ := emit_ok h
  exact .emitted s parent path content

omit [UnicodeTables] [StrDebug] in
theorem emit_leaf_accounts {kind : SourceNodeKind} {label : Option String} {text : String}
    {sources : List ℕ} {path : List UInt32}
    (h : emit_leaf s kind label text sources path a = .ok b) :
    Accounts live t e a b (sources.count t) False := by
  obtain ⟨out, hemit, hout⟩ := bind_ok_iff.mp h
  cases hout
  exact emit_accounts hemit

omit [StrDebug] in
/-- **Only a blank text is dropped**; another is absorbed or emitted. -/
theorem absorb_or_emit_accounts {raw : Raw} {path : List UInt32} (hsound : live → raw.Sound t)
    (h : absorb_or_emit s raw path a = .ok b) :
    Accounts live t e a b (raw.sources.count t) False := by
  rw [absorb_or_emit] at h
  by_cases hblank : is_blank raw.text = true
  · rw [if_pos hblank] at h
    cases h
    refine ⟨⟨raw.sources.count t, rfl, fun hl => ?_⟩, (or_iff_left id).symm⟩
    rw [List.count_eq_zero]
    intro hmem
    have hkept := hsound hl hmem
    rw [hblank] at hkept
    cases hkept
  · rw [if_neg hblank] at h
    cases habs : a.absorbers with
    | nil =>
      simp only [habs] at h
      exact emit_leaf_accounts h
    | cons absorber rest =>
      simp only [habs] at h
      cases h
      refine ⟨⟨0, ?_, fun _ => rfl⟩, (or_iff_left id).symm⟩
      rw [Adapter.held, Adapter.held, Adapter.shown, Adapter.shown, habs, List.map_cons,
        List.map_cons, List.sum_cons, List.sum_cons, Raw.push_line, List.count_append]
      dsimp only
      omega

omit [StrDebug] in
theorem paragraph_accounts {children : List Dom} {path : List UInt32}
    (hlive : live → Live t children) (h : paragraph s children path a = .ok b) :
    Accounts live t e a b (s.taken (.Inline false) children t)
      (s.Announced (.Inline false) children e) :=
  collect_then s false path hlive fun hsound => absorb_or_emit_accounts hsound h

omit [StrDebug] in
theorem code_block_accounts {children : List Dom} {path : List UInt32}
    (hlive : live → Live t children) (h : code_block s children path a = .ok b) :
    Accounts live t e a b (s.taken (.Inline false) children t)
      (s.Announced (.Inline false) children e) :=
  collect_then s false path hlive fun _ => emit_leaf_accounts h

omit [StrDebug] in
theorem figure_caption_accounts {children : List Dom} {path : List UInt32}
    (hlive : live → Live t children) (h : figure_caption s children path a = .ok b) :
    Accounts live t e a b (s.taken (.Inline true) children t)
      (s.Announced (.Inline true) children e) :=
  collect_then s true path hlive fun _ => emit_leaf_accounts h

omit [StrDebug] in
theorem list_item_node_accounts {children : List Dom} {path : List UInt32}
    (hlive : live → Live t children) (h : list_item_node s children path a = .ok b) :
    Accounts live t e a b (s.taken (.Inline false) children t)
      (s.Announced (.Inline false) children e) :=
  collect_then s false path hlive fun _ => emit_leaf_accounts h

omit [StrDebug] in
theorem definition_node_accounts {is_term : Bool} {children : List Dom} {path : List UInt32}
    (hlive : live → Live t children) (h : definition_node s is_term children path a = .ok b) :
    Accounts live t e a b (s.taken (.Inline false) children t)
      (s.Announced (.Inline false) children e) :=
  collect_then s false path hlive fun _ => emit_leaf_accounts h

theorem heading_fragment_accounts (el : Element) (label_text : String) (path : List UInt32)
    (a : Adapter) : Accounts live t e a (heading_fragment el label_text path a).2 0 False := by
  rw [heading_fragment]
  split
  · split
    · refine (Accounts.diagnose _ _ _ _).congr rfl (iff_of_false ?_ id)
      rintro ⟨-, hkind⟩
      cases hkind
    · exact .same rfl rfl rfl
  · exact .same rfl rfl rfl

theorem heading_accounts {el : Element} {level : ℕ} {children : List Dom} {path : List UInt32}
    (hlive : live → Live t children) (h : heading s el level children path a = .ok b) :
    Accounts live t e a b (s.taken (.Inline false) children t)
      (s.Announced (.Inline false) children e) := by
  have hclose : Accounts live t e a (a.close_sections level) 0 False := .same rfl rfl rfl
  refine hclose.after (collect_then s false path hlive fun _ => ?_)
  rw [heading] at h
  generalize collect false children path (a.close_sections level) = collected at h
  dsimp only at h
  have hfragment : Accounts live t e collected.1 _ 0 False :=
    heading_fragment_accounts el (normalize_prose collected.2.text) path collected.1
  generalize heading_fragment el (normalize_prose collected.2.text) path collected.1 = found
    at h hfragment
  obtain ⟨out, hemit, hout⟩ := bind_ok_iff.mp h
  cases hout
  exact (hfragment.after (emit_accounts hemit)).before (.same rfl rfl rfl)

/-! ## Notes -/

omit [UnicodeTables] [StrDebug] in
theorem open_note_accounts (path : List UInt32) (a : Adapter) :
    Accounts live t e a (open_note path a) 0 False := by
  refine ⟨⟨0, ?_, fun _ => rfl⟩, (or_iff_left id).symm⟩
  rw [Adapter.held, Adapter.held, Adapter.shown, Adapter.shown]
  simp only [open_note, Adapter.provisional, Adapter.next_ordinal, List.map_cons, List.sum_cons,
    Raw.empty, List.count_nil, Nat.zero_add]

omit [StrDebug] in
/-- **A note shows what its frame holds.** -/
theorem close_note_accounts (h : close_note s a = .ok b) : Accounts live t e a b 0 False := by
  rw [close_note] at h
  cases habs : a.absorbers with
  | nil =>
    simp only [habs] at h
    cases h
    exact .refl a
  | cons frame rest =>
    simp only [habs, emit_closed_note, Adapter.push_candidate] at h
    split at h
    · cases h
    · split at h
      · cases h
      · cases h
        refine ⟨⟨0, ?_, fun _ => rfl⟩, (or_iff_left id).symm⟩
        rw [Adapter.held, Adapter.held, Adapter.shown, Adapter.shown, habs]
        simp only [List.map_append, List.map_cons, List.map_nil, List.sum_append, List.sum_cons,
          List.sum_nil, Setup.candidate]
        omega

/-! ## Tables -/

omit [UnicodeTables] [StrDebug] in
theorem table_node_accounts {path : List UInt32} {out : String × Adapter}
    (h : table_node s path a = .ok out) : Accounts live t e a out.2 0 False :=
  emit_accounts h

omit [UnicodeTables] [StrDebug] in
theorem row_node_accounts {table : String} {row_path : List UInt32} {is_header : Bool}
    {out : String × Adapter} (h : row_node s table row_path is_header a = .ok out) :
    Accounts live t e a out.2 0 False := by
  have hcount : Accounts live t e a
      (if is_header then { a with header_rows := a.header_rows + 1 } else a) 0 False := by
    split
    · exact .same rfl rfl rfl
    · exact .refl a
  exact hcount.after (emit_accounts h)

omit [UnicodeTables] [StrDebug] in
theorem emit_cell_accounts {row text : String} {sources : List ℕ} {path : List UInt32}
    (h : emit_cell s row text sources path a = .ok b) :
    Accounts live t e a b (sources.count t) False := by
  obtain ⟨out, hemit, hout⟩ := bind_ok_iff.mp h
  cases hout
  exact emit_accounts hemit

omit [UnicodeTables] [StrDebug] in
theorem emit_blank_cells_accounts {row : String} {path : List UInt32} {n : ℕ}
    (h : emit_blank_cells s row path n a = .ok b) : Accounts live t e a b 0 False := by
  induction n generalizing a with
  | zero =>
    cases h
    exact .refl _
  | succ n ih =>
    rw [emit_blank_cells] at h
    obtain ⟨c, hcell, hrest⟩ := bind_ok_iff.mp h
    exact (emit_cell_accounts hcell).after (ih hrest)

omit [UnicodeTables] [StrDebug] in
/-- A loop over covered columns that emits one empty cell for each accounts for nothing. -/
theorem placeholders_accounts {σ : Type} (s : Setup) (row : String) (path : List UInt32)
    {step : σ × Adapter → ℕ × ℕ → Except HtmlIngestError (σ × Adapter)}
    (hstep : ∀ state entry out, step state entry = .ok out →
      emit_cell s row "" [] path state.2 = .ok out.2)
    {entries : List (ℕ × ℕ)} {state out : σ × Adapter}
    (h : entries.foldlM step state = .ok out) : Accounts live t e state.2 out.2 0 False := by
  induction entries generalizing state with
  | nil =>
    cases h
    exact .refl _
  | cons entry entries ih =>
    rw [List.foldlM_cons] at h
    obtain ⟨next, hnext, hrest⟩ := bind_ok_iff.mp h
    exact (emit_cell_accounts (hstep _ _ _ hnext)).after (ih hrest)

omit [UnicodeTables] [StrDebug] in
theorem pass_columns_accounts {row_id : String} {row_path : List UInt32} {row : RowState}
    {out : RowState × Adapter} (h : pass_columns s row_id row_path row a = .ok out) :
    Accounts live t e a out.2 0 False := by
  refine placeholders_accounts s row_id row_path ?_ h
  intro state entry next hnext
  obtain ⟨c, hcell, hout⟩ := bind_ok_iff.mp hnext
  cases hout
  exact hcell

omit [UnicodeTables] [StrDebug] in
theorem finish_row_accounts {row_id : String} {row_path : List UInt32} {row : RowState}
    {out : Covered × Adapter} (h : finish_row s row_id row_path row a = .ok out) :
    Accounts live t e a out.2 0 False := by
  obtain ⟨left, hleft, hout⟩ := bind_ok_iff.mp h
  cases hout
  refine (placeholders_accounts s row_id row_path ?_ hleft :)
  intro state entry next hnext
  obtain ⟨c, hcell, hout⟩ := bind_ok_iff.mp hnext
  cases hout
  exact hcell

omit [StrDebug] in
theorem cell_nodes_accounts {row_id : String} {row_path : List UInt32} {el : Element}
    {children : List Dom} {cell_path : List UInt32} {row : RowState} {out : RowState × Adapter}
    (hlive : live → Live t children)
    (h : cell_nodes s row_id row_path el children cell_path row a = .ok out) :
    Accounts live t e a out.2 (s.taken (.Inline false) children t)
      (s.Announced (.Inline false) children e) := by
  obtain ⟨passed, hpass, h⟩ := bind_ok_iff.mp h
  refine (pass_columns_accounts hpass).after (collect_then s false cell_path hlive fun _ => ?_)
  obtain ⟨origin, horigin, h⟩ := bind_ok_iff.mp h
  obtain ⟨blank, hblank, hout⟩ := bind_ok_iff.mp h
  cases hout
  exact (emit_cell_accounts horigin).before (emit_blank_cells_accounts hblank)

omit [UnicodeTables] [StrDebug] in
theorem collect_group_accounts (s : Setup) (is_header : Bool) (nodes : List Dom)
    (path : List UInt32) :
    ∀ (index : UInt32) (a : Adapter),
      Accounts live t e a (collect_group is_header nodes path index a).1 0
        (s.Announced .GroupListing nodes e) := by
  induction nodes using Dom.children_induction with
  | nil =>
    intro index a
    exact (Accounts.refl a).congr rfl (iff_of_false id Setup.not_announced_nil)
  | text n text rest ih => exact fun index a => ih index a
  | other rest ih => exact fun index a => ih index a
  | element el children rest _ ih =>
    intro index a
    rw [collect_group]
    have hlisted : s.Announced .GroupListing (.Element el children :: rest) e ↔
        (el.id = e ∧ s.announces .GroupListing el children = true) ∨
          s.Announced .GroupListing rest e := by
      rw [Setup.announced_element]
      simp only [Setup.enter, List.not_mem_nil, false_and, exists_false, or_false]
    by_cases hname : el.name = "tr"
    · rw [if_pos hname]
      refine (ih _ _).congr rfl (hlisted.trans (or_iff_right ?_)).symm
      simp only [Setup.announces, if_pos hname, Bool.false_eq_true, and_false, not_false_eq_true]
    · rw [if_neg hname]
      refine ((Accounts.table_child el children _).trans (ih _ _)).congr rfl ?_
      rw [hlisted]
      simp only [Setup.announces, if_neg hname]

omit [UnicodeTables] [StrDebug] in
theorem collect_rows_accounts (s : Setup) (nodes : List Dom) (path : List UInt32) :
    ∀ (index : UInt32) (a : Adapter), Accounts live t e a (collect_rows nodes path index a).1 0
      (s.Announced .Listing nodes e) := by
  induction nodes using Dom.children_induction with
  | nil =>
    intro index a
    exact (Accounts.refl a).congr rfl (iff_of_false id Setup.not_announced_nil)
  | text n text rest ih => exact fun index a => ih index a
  | other rest ih => exact fun index a => ih index a
  | element el children rest _ ih =>
    intro index a
    rw [collect_rows]
    cases hkind : row_group el.name with
    | Group is_header =>
      refine ((collect_group_accounts s is_header children _ 0 a).trans (ih _ _)).congr rfl ?_
      rw [Setup.announced_element]
      simp only [Setup.announces, Setup.enter, hkind, List.mem_singleton, exists_eq_left,
        Bool.false_eq_true, and_false, false_or]
    | Row =>
      refine (ih _ _).congr rfl ?_
      rw [Setup.announced_element]
      simp only [Setup.announces, Setup.enter, hkind, List.not_mem_nil, false_and, exists_false,
        Bool.false_eq_true, and_false, or_false, false_or]
    | Foreign =>
      refine ((Accounts.table_child el children _).trans (ih _ _)).congr rfl ?_
      rw [Setup.announced_element]
      simp only [Setup.announces, Setup.enter, hkind, List.not_mem_nil, false_and, exists_false,
        or_false]

omit [UnicodeTables] [StrDebug] in
/-- The listings of a table take no texts. -/
theorem Setup.taken_listing (nodes : List Dom) :
    s.taken .GroupListing nodes t = 0 ∧ s.taken .Listing nodes t = 0 := by
  induction nodes using Dom.children_induction with
  | nil => exact ⟨rfl, rfl⟩
  | text n text rest ih =>
    simp only [Setup.taken_text, ih, Context.takes, Bool.false_eq_true, and_false, if_false,
      and_self]
  | other rest ih => exact ih
  | element el children rest ihc ihr =>
    rw [Setup.taken_element, Setup.taken_element, ihr.1, ihr.2]
    refine ⟨rfl, ?_⟩
    simp only [Setup.enter]
    cases row_group el.name with
    | Group is_header => simp only [List.map_cons, List.map_nil, List.sum_singleton, ihc]
    | Row => rfl
    | Foreign => rfl

/-! ## Elements -/

namespace Accounts

variable {el : Element} {children : List Dom} {d d' : Context}

omit [UnicodeTables] [StrDebug] in
/-- An element none of whose children are brought anywhere. -/
theorem pruned {p : Prop} (h : Accounts live t e a b 0 (el.id = e ∧ p)) :
    Accounts live t e a b (([] : List Context).map fun d => s.taken d children t).sum
      ((el.id = e ∧ p) ∨ ∃ d ∈ ([] : List Context), s.Announced d children e) := by
  refine h.congr rfl (or_iff_left ?_).symm
  rintro ⟨d, hd, -⟩
  exact List.not_mem_nil hd

omit [UnicodeTables] [StrDebug] in
theorem passed_over (a : Adapter) :
    Accounts live t e a a (([] : List Context).map fun d => s.taken d children t).sum
      ((el.id = e ∧ False) ∨ ∃ d ∈ ([] : List Context), s.Announced d children e) :=
  pruned ((refl a).congr rfl (and_false _).to_iff.symm)

omit [UnicodeTables] [StrDebug] in
/-- An element whose children are brought into one context. -/
theorem through (h : Accounts live t e a b (s.taken d children t) (s.Announced d children e)) :
    Accounts live t e a b ([d].map fun d => s.taken d children t).sum
      ((el.id = e ∧ false = true) ∨ ∃ d' ∈ [d], s.Announced d' children e) := by
  refine h.congr ?_ ?_
  · rw [List.map_singleton, List.sum_singleton]
  · simp only [List.mem_singleton, exists_eq_left, Bool.false_eq_true, and_false, false_or]

omit [UnicodeTables] [StrDebug] in
/-- An element whose children are brought into two contexts. -/
theorem through_both
    (h : Accounts live t e a b (s.taken d children t + s.taken d' children t)
      (s.Announced d children e ∨ s.Announced d' children e)) :
    Accounts live t e a b ([d, d'].map fun d => s.taken d children t).sum
      ((el.id = e ∧ false = true) ∨ ∃ c ∈ [d, d'], s.Announced c children e) := by
  refine h.congr ?_ ?_
  · rw [List.map_cons, List.map_singleton, List.sum_cons, List.sum_singleton]
  · simp only [List.mem_cons, List.not_mem_nil, or_false, exists_eq_or_imp, exists_eq_left,
      Bool.false_eq_true, and_false, false_or]

end Accounts

/-! ## The walk -/

structure Accounted (s : Setup) (live : Prop) (t e : ℕ) (nodes : List Dom) : Prop where
  children : ∀ path index stray a b, (live → stray.Sound t) →
    walk_children s nodes path index stray a = .ok b →
    Accounts live t e a b (stray.sources.count t + s.taken .Block nodes t)
      (s.Announced .Block nodes e)
  nested : ∀ path index a b, walk_nested_blocks s nodes path index a = .ok b →
    Accounts live t e a b (s.taken .Nested nodes t) (s.Announced .Nested nodes e)
  rows : ∀ table path index pending a out,
    table_rows s table nodes path index pending a = .ok out →
    Accounts live t e a out.2 (s.taken .Rows nodes t) (s.Announced .Rows nodes e)
  group : ∀ table is_header path index pending a out,
    group_rows s table is_header nodes path index pending a = .ok out →
    Accounts live t e a out.2 (s.taken .GroupRows nodes t) (s.Announced .GroupRows nodes e)
  cells : ∀ row_id row_path index row a out,
    row_cells s row_id row_path nodes index row a = .ok out →
    Accounts live t e a out.2 (s.taken .Cells nodes t) (s.Announced .Cells nodes e)

namespace Accounted

variable {children : List Dom}

theorem block {path : List UInt32} (haccounted : Accounted s live t e children)
    (h : walk_children s children path 0 .empty a = .ok b) :
    Accounts live t e a b (s.taken .Block children t) (s.Announced .Block children e) :=
  (haccounted.children _ _ _ _ _ (fun _ => Raw.sound_empty) h).congr (Nat.zero_add _) Iff.rfl

/-- **One element accounts for what it dispatches to.** -/
theorem element {el : Element} {path : List UInt32} (haccounted : Accounted s live t e children)
    (hlive : live → Live t children) (h : walk_element s (.Element el children) path a = .ok b) :
    Accounts live t e a b ((s.dispatched el).map fun d => s.taken d children t).sum
      ((el.id = e ∧ s.dispatch_announces el children = true) ∨
        ∃ d ∈ s.dispatched el, s.Announced d children e) := by
  rw [walk_element] at h
  rw [Setup.dispatched, Setup.dispatch_announces]
  cases hkind : s.block_kind el with
  | Excluded selector =>
    simp only [hkind] at h
    cases h
    exact (Accounts.diagnose _ _ _ el).pruned
  | Dropped =>
    simp only [hkind] at h
    cases h
    exact (Accounts.dropped el children path).pruned
  | Heading level =>
    simp only [hkind] at h
    exact (heading_accounts hlive h).through
  | Paragraph =>
    simp only [hkind] at h
    exact (paragraph_accounts hlive h).through
  | Transparent =>
    simp only [hkind] at h
    exact (haccounted.block h).through
  | ListItem =>
    simp only [hkind] at h
    obtain ⟨c, hitem, hnested⟩ := bind_ok_iff.mp h
    have hnode : Accounts live t e a c _ _ := list_item_node_accounts hlive hitem
    exact (hnode.trans (haccounted.nested _ _ _ _ hnested)).through_both
  | Definition is_term =>
    simp only [hkind] at h
    obtain ⟨c, hitem, hnested⟩ := bind_ok_iff.mp h
    have hnode : Accounts live t e a c _ _ := definition_node_accounts hlive hitem
    exact (hnode.trans (haccounted.nested _ _ _ _ hnested)).through_both
  | Table =>
    simp only [hkind] at h
    obtain ⟨⟨table, c⟩, htable, h⟩ := bind_ok_iff.mp h
    obtain ⟨rows, hrows, hout⟩ := bind_ok_iff.mp h
    rw [← Except.ok.inj hout]
    have hnode : Accounts live t e a c 0 False := table_node_accounts htable
    have hlisted := hnode.after (collect_rows_accounts s children path 0 c)
    have hrows := hlisted.trans (haccounted.rows _ _ _ _ _ _ hrows)
    rw [← (Setup.taken_listing children).2] at hrows
    exact hrows.through_both
  | CodeBlock =>
    simp only [hkind] at h
    exact (code_block_accounts hlive h).through
  | Note =>
    simp only [hkind] at h
    obtain ⟨c, hwalk, hclose⟩ := bind_ok_iff.mp h
    have hopen : Accounts live t e a (open_note path a) 0 False := open_note_accounts path a
    exact ((hopen.after (haccounted.block hwalk)).before (close_note_accounts hclose)).through
  | FigureCaption =>
    simp only [hkind] at h
    exact (figure_caption_accounts hlive h).through
  | SkippedSubtree =>
    simp only [hkind] at h
    cases h
    exact (Accounts.diagnose _ _ _ el).pruned
  | Unsupported =>
    simp only [hkind] at h
    refine ((Accounts.diagnose _ _ _ el).trans (haccounted.block h)).congr ?_ ?_
    · simp only [List.map_cons, List.map_nil, List.sum_singleton, Nat.zero_add]
    · simp only [HtmlIngestDiagnosticKind.announces_loss, List.mem_singleton, exists_eq_left]

theorem table_row {el : Element} {table : String} {is_header : Bool} {path : List UInt32}
    {pending : Covered} {out : Covered × Adapter} (haccounted : Accounted s live t e children)
    (h : table_row s table is_header (.Element el children) path pending a = .ok out) :
    Accounts live t e a out.2 (s.taken .Cells children t) (s.Announced .Cells children e) := by
  rw [Html.table_row] at h
  obtain ⟨⟨row_id, c⟩, hrow, hcells⟩ := bind_ok_iff.mp h
  have hnode : Accounts live t e a c 0 False := row_node_accounts hrow
  exact hnode.after (haccounted.cells _ _ _ _ _ _ hcells)

theorem row_cell {el : Element} {row_id : String} {row_path cell_path : List UInt32}
    {row : RowState} {out : RowState × Adapter} (haccounted : Accounted s live t e children)
    (hlive : live → Live t children)
    (h : row_cell s row_id row_path (.Element el children) cell_path row a = .ok out) :
    Accounts live t e a out.2 (s.taken (.Inline false) children t + s.taken .Nested children t)
      (s.Announced (.Inline false) children e ∨ s.Announced .Nested children e) := by
  rw [Html.row_cell] at h
  obtain ⟨cell, hcell, h⟩ := bind_ok_iff.mp h
  obtain ⟨c, hnested, hout⟩ := bind_ok_iff.mp h
  cases hout
  exact (cell_nodes_accounts hlive hcell).trans (haccounted.nested _ _ _ _ hnested)

end Accounted

omit [UnicodeTables] [StrDebug] in
theorem Accounts.element_then {ctx : Context} {el : Element} {children rest : List Dom}
    {contexts : List Context} {p : Prop} (henter : s.enter ctx el = contexts)
    (hannounces : s.announces ctx el children = true ↔ p)
    (hfirst : Accounts live t e a b ((contexts.map fun d => s.taken d children t).sum)
      ((el.id = e ∧ p) ∨ ∃ d ∈ contexts, s.Announced d children e))
    (hrest : Accounts live t e b c (s.taken ctx rest t) (s.Announced ctx rest e)) :
    Accounts live t e a c (s.taken ctx (.Element el children :: rest) t)
      (s.Announced ctx (.Element el children :: rest) e) := by
  refine (hfirst.trans hrest).congr ?_ ?_
  · rw [Setup.taken_element, henter]
  · rw [Setup.announced_element, henter, hannounces]

/-- **The walk accounts for what its context takes and announces.** -/
theorem accounted (s : Setup) (nodes : List Dom) (hlive : live → Live t nodes) :
    Accounted s live t e nodes := by
  induction nodes using Dom.children_induction with
  | nil =>
    refine ⟨?_, ?_, ?_, ?_, ?_⟩
    · intro path index stray a b hsound h
      exact (absorb_or_emit_accounts hsound h).congr rfl (iff_of_false id Setup.not_announced_nil)
    · intro path index a b h
      cases h
      exact (Accounts.refl a).congr rfl (iff_of_false id Setup.not_announced_nil)
    · intro table path index pending a out h
      cases h
      exact (Accounts.refl a).congr rfl (iff_of_false id Setup.not_announced_nil)
    · intro table is_header path index pending a out h
      cases h
      exact (Accounts.refl a).congr rfl (iff_of_false id Setup.not_announced_nil)
    · intro row_id row_path index row a out h
      exact (finish_row_accounts h).congr rfl (iff_of_false id Setup.not_announced_nil)
  | text n text rest ih =>
    have ih := ih fun h => (hlive h).text.2
    have hpassed (ctx : Context) (hctx : ctx.takes = false) :
        s.taken ctx rest t = s.taken ctx (.Text n text :: rest) t := by
      rw [Setup.taken_text, hctx, if_neg (by rintro ⟨-, h⟩; cases h), Nat.zero_add]
    refine ⟨?_, ?_, ?_, ?_, ?_⟩
    · intro path index stray a b hsound h
      have hpushed := ih.children _ _ _ _ _
        (fun hl => (hsound hl).push_text (hlive hl).text.1) h
      refine hpushed.congr ?_ Iff.rfl
      rw [Setup.taken_text, Raw.push_text, List.count_append, List.count_singleton]
      simp only [Context.takes, and_true, beq_iff_eq]
      omega
    · exact fun path index a b h => (ih.nested _ _ _ _ h).congr (hpassed _ rfl) Iff.rfl
    · exact fun _ _ _ _ _ _ h => (ih.rows _ _ _ _ _ _ h).congr (hpassed _ rfl) Iff.rfl
    · exact fun _ _ _ _ _ _ _ h => (ih.group _ _ _ _ _ _ _ h).congr (hpassed _ rfl) Iff.rfl
    · exact fun _ _ _ _ _ _ h => (ih.cells _ _ _ _ _ _ h).congr (hpassed _ rfl) Iff.rfl
  | other rest ih =>
    have ih := ih hlive
    exact ⟨ih.children, ih.nested, ih.rows, ih.group, ih.cells⟩
  | element el children rest ihc ihr =>
    have hlive' : live → Live t children := fun h => (hlive h).element.1
    have ihc := ihc hlive'
    have ihr := ihr fun h => (hlive h).element.2
    refine ⟨?_, ?_, ?_, ?_, ?_⟩
    · intro path index stray a b hsound h
      rw [walk_children] at h
      by_cases hinline : is_inline el.name = true
      · rw [if_pos hinline] at h
        obtain ⟨hcollected, hcount, hsound'⟩ :=
          collect_text_accounts (e := e) s true children (path ++ [index]) 0 (a, stray) hlive'
            hsound
        have hrest := ihr.children _ _ _ _ _ hsound' h
        refine (hcollected.trans hrest).congr ?_ ?_
        · rw [hcount, Setup.taken_element, Setup.enter, if_pos hinline, List.map_singleton,
            List.sum_singleton]
          dsimp only
          omega
        · rw [Setup.announced_element, Setup.enter, if_pos hinline, Setup.announces, hinline]
          simp only [List.mem_singleton, exists_eq_left, Bool.not_true, Bool.false_and,
            Bool.false_eq_true, and_false, false_or]
      · rw [if_neg hinline] at h
        obtain ⟨c, hflush, h⟩ := bind_ok_iff.mp h
        obtain ⟨d, helement, hrest⟩ := bind_ok_iff.mp h
        have hflushed : Accounts live t e a c _ False := absorb_or_emit_accounts hsound hflush
        have hrest := ihr.children _ _ _ _ _ (fun _ => Raw.sound_empty) hrest
        have hwalked := (ihc.element hlive' helement).trans hrest
        refine (hflushed.trans hwalked).congr ?_ ?_
        · rw [Setup.taken_element, Setup.enter, if_neg hinline, Raw.empty, List.count_nil,
            Nat.zero_add]
        · rw [Setup.announced_element, Setup.enter, if_neg hinline, Setup.announces,
            Bool.eq_false_of_not_eq_true hinline, Bool.not_false, Bool.true_and, false_or]
    · intro path index a b h
      rw [walk_nested_blocks_element] at h
      obtain ⟨c, hblock, hrest⟩ := bind_ok_iff.mp h
      have hrest := ihr.nested _ _ _ _ hrest
      by_cases hnested : s.is_nested_block el = true
      · rw [if_pos hnested] at hblock
        refine .element_then ?_ ?_ (ihc.element hlive' hblock) hrest
        · rw [Setup.enter, if_pos hnested]
        · simp only [Setup.announces, hnested, Bool.true_and]
      · rw [if_neg hnested] at hblock
        cases hblock
        refine .element_then ?_ ?_ (.passed_over a) hrest
        · rw [Setup.enter, if_neg hnested]
        · simp only [Setup.announces, hnested, Bool.false_and, Bool.false_eq_true]
    · intro table path index pending a out h
      rw [table_rows_element] at h
      obtain ⟨⟨pending', c⟩, hgroup, hrest⟩ := bind_ok_iff.mp h
      have hrest := ihr.rows _ _ _ _ _ _ hrest
      cases hkind : row_group el.name with
      | Group is_header =>
        simp only [hkind] at hgroup
        refine .element_then ?_ Iff.rfl (ihc.group _ _ _ _ _ _ _ hgroup).through hrest
        simp only [Setup.enter, hkind]
      | Row =>
        simp only [hkind] at hgroup
        refine .element_then ?_ Iff.rfl (ihc.table_row hgroup).through hrest
        simp only [Setup.enter, hkind]
      | Foreign =>
        simp only [hkind] at hgroup
        cases hgroup
        refine .element_then ?_ (iff_of_false Bool.false_ne_true id) (.passed_over a) hrest
        simp only [Setup.enter, hkind]
    · intro table is_header path index pending a out h
      rw [group_rows_element] at h
      obtain ⟨⟨pending', c⟩, hrow, hrest⟩ := bind_ok_iff.mp h
      have hrest := ihr.group _ _ _ _ _ _ _ hrest
      by_cases hname : el.name = "tr"
      · rw [if_pos hname] at hrow
        refine .element_then ?_ Iff.rfl (ihc.table_row hrow).through hrest
        rw [Setup.enter, if_pos hname]
      · rw [if_neg hname] at hrow
        cases hrow
        refine .element_then ?_ (iff_of_false Bool.false_ne_true id) (.passed_over a) hrest
        rw [Setup.enter, if_neg hname]
    · intro row_id row_path index row a out h
      rw [row_cells] at h
      by_cases hcell : is_cell el = true
      · rw [if_pos hcell] at h
        obtain ⟨⟨row', c⟩, hcell', hrest⟩ := bind_ok_iff.mp h
        have hrest := ihr.cells _ _ _ _ _ _ hrest
        refine .element_then ?_ Iff.rfl (ihc.row_cell hlive' hcell').through_both hrest
        rw [Setup.enter, if_pos hcell]
      · rw [if_neg hcell] at h
        have hrest := ihr.cells _ _ _ _ _ _ h
        refine .element_then ?_ (iff_of_false Bool.false_ne_true id) (.passed_over a) hrest
        rw [Setup.enter, if_neg hcell]

/-- **A run accounts for the texts it takes**: the candidates show them, or they were blank. And
it announces what stands where its loops announce. -/
theorem run_accounts {nodes : List Dom} {root_path : List UInt32} (hlive : live → Live t nodes)
    (hwalk : walk_children s nodes root_path 0 .empty .new = .ok a) :
    (∃ dropped, s.taken .Block nodes t = a.shown t + dropped ∧ (live → dropped = 0)) ∧
      (a.announced e ↔ s.Announced .Block nodes e) := by
  have haccounts := (accounted (e := e) s nodes hlive).block hwalk
  have hwalked := (walks s nodes).children root_path 0 .empty .new a 0 (Nat.zero_le _) hwalk
  have hclosed : a.absorbers = [] := List.map_eq_nil_iff.mp hwalked.frames
  obtain ⟨dropped, hheld, hdropped⟩ := haccounts.held
  constructor
  · refine ⟨dropped, ?_, hdropped⟩
    rw [Adapter.held, Adapter.held, hclosed, List.map_nil, List.sum_nil, Nat.add_zero] at hheld
    rw [← hheld, Adapter.shown, Adapter.new, List.map_nil, List.map_nil, List.sum_nil]
    omega
  · rw [haccounts.announced_iff]
    refine or_iff_right ?_
    rintro ⟨d, hd, -⟩
    exact List.not_mem_nil hd

end Accounts

end Evidence.Corpus.Html
