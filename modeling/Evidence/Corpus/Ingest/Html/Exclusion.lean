/-
`corpus/ingest/html/` -- what becomes of the texts under an **excluded** element.

The recipe's exclusion selectors are to prune the subtrees that match. Only
`walk_element` looks at them: a loop that collects text goes through an excluded
element as through any other, and so do the rows and cells of a table. A text
under an excluded element is therefore hidden exactly if every way down to it ends above it
(`excluded_text_hidden_iff`).

A node shows a text if its own text was collected from it. Its heading path shows what the headings
above it show.
-/
import Evidence.Corpus.Ingest.HeadingPath
import Evidence.Corpus.Ingest.Html.Accounts

set_option autoImplicit false

namespace Evidence.Corpus

namespace Html

/-! ## Excluded texts -/

/-- A text under an element that matches an exclusion selector. -/
def Setup.Excluded (s : Setup) (t : TextSite) : Prop :=
  ∃ el ∈ t.chain, (s.matches_exclusion el).isSome = true

/-- A text reaches a node: its canonical text, label and fragment, which were collected from the
text; or its heading path, in which stands the title of a section that was. -/
def Adapter.Reaches (a : Adapter) (id : ℕ) (c : Candidate) : Prop :=
  id ∈ c.sources ∨ ∃ heading ∈ a.candidates, heading.kind = .Section ∧ id ∈ heading.sources ∧
    ∃ title ∈ c.locator.heading_path, heading.label = some title

/-- No node is reached exactly if no candidate was collected from the text. -/
theorem Adapter.not_reaches_iff (a : Adapter) (id : ℕ) :
    (∀ c ∈ a.candidates, ¬ a.Reaches id c) ↔ a.shown id = 0 := by
  rw [Adapter.shown, List.sum_eq_zero_iff_forall_eq_nat]
  constructor
  · intro h n hn
    obtain ⟨c, hc, rfl⟩ := List.mem_map.mp hn
    exact List.count_eq_zero.mpr fun hid => h c hc (.inl hid)
  · rintro h c hc (hid | ⟨heading, hheading, -, hid, -⟩)
    · exact List.count_eq_zero.mp (h _ (List.mem_map_of_mem hc)) hid
    · exact List.count_eq_zero.mp (h _ (List.mem_map_of_mem hheading)) hid

/-- Where texts have ids of their own, the other texts say nothing about one. -/
theorem live_of_mem {nodes : List Dom} {t : TextSite}
    (hids : ((texts nodes).map TextSite.id).Nodup) (ht : t ∈ texts nodes)
    (htext : is_blank t.text = false) : Live t.id nodes := by
  intro u hu hid
  rw [List.inj_on_of_nodup_map hids hu ht hid]
  exact htext

/-- **A text under an excluded element is hidden exactly if it is never taken.** The condition is
one on the elements above the text: on every way that the loops go down, one of them ends the
way. A blank text that is never taken is hidden as well. -/
theorem excluded_text_hidden_iff [UnicodeTables] [StrDebug] (s : Setup) (nodes : List Dom)
    (root_path : List UInt32) {a : Adapter} (hids : ((texts nodes).map TextSite.id).Nodup)
    (hwalk : walk_children s nodes root_path 0 .empty .new = .ok a) :
    ∀ t ∈ texts nodes, s.Excluded t →
      (is_blank t.text = false →
        ((∀ c ∈ a.candidates, ¬ a.Reaches t.id c) ↔ s.takings .Block t.chain = 0)) ∧
      (s.takings .Block t.chain = 0 → ∀ c ∈ a.candidates, ¬ a.Reaches t.id c) := by
  intro t ht _
  have htaken := Setup.taken_of_mem (s := s) (c := .Block) hids ht
  have haccounts (live : Prop) (hlive : live → Live t.id nodes) :=
    (run_accounts (e := 0) hlive hwalk).1
  constructor
  · intro htext
    obtain ⟨dropped, hshown, hdropped⟩ := haccounts True fun _ => live_of_mem hids ht htext
    rw [Adapter.not_reaches_iff, ← htaken, hshown, hdropped trivial, Nat.add_zero]
  · intro hnone
    obtain ⟨dropped, hshown, -⟩ := haccounts False False.elim
    rw [Adapter.not_reaches_iff]
    omega

/-! ## A leak -/

/-- An excluded note in the running text of a paragraph. -/
def leak_nodes : List Dom :=
  [.tag 0 "p" [.Text 1 "keep ", .Element ⟨2, "span", [("class", "draft")]⟩ [.Text 3 "secret"]]]

/-- A recipe that excludes `.draft`. -/
def draft_setup : Setup where
  input := ⟨"revision", "https://standard.example/", none⟩
  exclusions := [(".draft", fun el => el.attr "class" == some "draft")]
  notes := []
  figures := []

/-- The excluded text. -/
def leak_text : TextSite where
  chain := [⟨0, "p", []⟩, ⟨2, "span", [("class", "draft")]⟩]
  id := 3
  text := "secret"

attribute [local instance] ascii_tables plain_debug

/-- The paragraph's node shows the excluded text. -/
theorem excluded_text_leaks :
    leak_text ∈ texts leak_nodes ∧ draft_setup.Excluded leak_text ∧
      ∃ a, walk_children draft_setup leak_nodes [] 0 .empty .new = .ok a ∧
        ∃ c ∈ a.candidates, a.Reaches leak_text.id c ∧ c.canonical_text = "keep secret" := by
  refine ⟨?_, ⟨⟨2, "span", [("class", "draft")]⟩, ?_, by decide +kernel⟩, ?_⟩
  · simp [leak_text, leak_nodes, texts, texts_of, Dom.tag, TextSite.under]
  · simp [leak_text]
  · have hshown : ((walk_children draft_setup leak_nodes [] 0 .empty .new).toOption.map fun a =>
        a.candidates.map fun c => (c.canonical_text, c.sources)) =
        some [("keep secret", [1, 3])] := by
      decide +kernel
    obtain ⟨a, hwalk, hcandidates⟩ := Check.ok_of_view hshown
    have hmem : ("keep secret", [1, 3]) ∈
        a.candidates.map fun c => (c.canonical_text, c.sources) := by
      rw [hcandidates]
      exact List.mem_singleton.mpr rfl
    obtain ⟨c, hc, hshows⟩ := List.mem_map.mp hmem
    obtain ⟨htext, hsources⟩ := Prod.mk.inj hshows
    refine ⟨a, hwalk, c, hc, .inl ?_, htext⟩
    rw [hsources]
    decide

/-- A paragraph, and an excluded block. -/
def pruned_nodes : List Dom :=
  [.tag 0 "p" [.Text 1 "keep"], .Element ⟨2, "div", [("class", "draft")]⟩ [.Text 3 "secret"]]

/-- An excluded block is hidden. -/
theorem excluded_text_hidden_pruned : ∃ a,
    walk_children draft_setup pruned_nodes [] 0 .empty .new = .ok a ∧
      ∀ c ∈ a.candidates, ¬ a.Reaches 3 c := by
  have hends : ((walk_children draft_setup pruned_nodes [] 0 .empty .new).toOption.map fun a =>
      a.candidates.length) = some 1 := by
    decide +kernel
  obtain ⟨a, hwalk, -⟩ := Check.ok_of_view hends
  have hids : ((texts pruned_nodes).map TextSite.id).Nodup := by decide +kernel
  have hmem : (⟨[⟨2, "div", [("class", "draft")]⟩], 3, "secret"⟩ : TextSite) ∈
      texts pruned_nodes := by
    simp [pruned_nodes, texts, texts_of, Dom.tag, TextSite.under]
  have hexcluded : draft_setup.Excluded ⟨[⟨2, "div", [("class", "draft")]⟩], 3, "secret"⟩ :=
    ⟨_, List.mem_singleton.mpr rfl, by decide +kernel⟩
  have hhidden := excluded_text_hidden_iff draft_setup pruned_nodes [] hids hwalk _ hmem hexcluded
  exact ⟨a, hwalk, (hhidden.1 (by decide +kernel)).mpr (by decide +kernel)⟩

end Html

end Evidence.Corpus
