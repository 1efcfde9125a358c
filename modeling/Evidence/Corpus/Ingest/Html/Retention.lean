/-
`corpus/ingest/html/` -- what becomes of the texts that the recipe **retains**.

Dropping a text silently is forbidden, and so a text that is not blank and lies under no excluded
element should be shown by one node, once, or lie under an element that a diagnostic announces
as lost, or as not represented. The loops that collect and those that walk divide the
children of an element between them, and not always without rest: a list in a heading is
left to a walk that does not come, and a paragraph that a note selector matches is collected
into its list item and walked besides. What becomes of a text is again a matter of the elements
above it (`text_shown_once_iff`).
-/
import Evidence.Corpus.Ingest.Html.Exclusion

set_option autoImplicit false

namespace Evidence.Corpus.Html

/-! ## Announcements above a text -/

/-- An element above the text is announced where it stands. -/
def Setup.AnnouncedAbove (s : Setup) (nodes : List Dom) (t : TextSite) : Prop :=
  ∃ site ∈ elements nodes, site.el ∈ t.chain ∧
    ∃ d ∈ s.reached .Block site.chain, s.announces d site.el site.children = true

theorem chain_elements {nodes : List Dom} :
    ∀ t ∈ texts nodes, ∀ el ∈ t.chain, ∃ site ∈ elements nodes, site.el = el := by
  induction nodes using Dom.children_induction with
  | nil => exact fun t ht => absurd ht List.not_mem_nil
  | text id text rest ih =>
    intro t ht el hel
    rw [texts, texts_of, List.singleton_append, List.mem_cons] at ht
    rcases ht with rfl | ht
    · exact absurd hel List.not_mem_nil
    · exact ih t ht el hel
  | other rest ih => exact ih
  | element outer children rest ihc ihr =>
    intro t ht el hel
    rw [texts, texts_of, List.mem_append] at ht
    rw [elements, elements_of, List.cons_append]
    rcases ht with ht | ht
    · obtain ⟨inner, hinner, rfl⟩ := List.mem_map.mp ht
      rcases List.mem_cons.mp hel with rfl | hel
      · exact ⟨_, List.mem_cons_self, rfl⟩
      · obtain ⟨site, hsite, hid⟩ := ihc inner hinner el hel
        refine ⟨site.under outer, List.mem_cons_of_mem _ (List.mem_append_left _ ?_), hid⟩
        exact List.mem_map_of_mem hsite
    · obtain ⟨site, hsite, hid⟩ := ihr t ht el hel
      exact ⟨site, List.mem_cons_of_mem _ (List.mem_append_right _ hsite), hid⟩

theorem Setup.announced_above_iff (s : Setup) {nodes : List Dom} {t : TextSite}
    (hids : ((elements nodes).map fun site => site.el.id).Nodup) (ht : t ∈ texts nodes) :
    s.AnnouncedAbove nodes t ↔ ∃ el ∈ t.chain, s.Announced .Block nodes el.id := by
  constructor
  · rintro ⟨site, hsite, hchain, hannounced⟩
    exact ⟨site.el, hchain, site, hsite, rfl, hannounced⟩
  · rintro ⟨el, hel, site, hsite, hid, hannounced⟩
    obtain ⟨own, hown, rfl⟩ := chain_elements t ht el hel
    rw [List.inj_on_of_nodup_map hids hsite hown hid] at hannounced hsite
    exact ⟨own, hsite, hel, hannounced⟩

/-! ## Retained texts -/

/-- **A retained text is shown exactly once, or is announced,** exactly if it is taken exactly
once, or an element above it is announced where it stands. Both conditions on the right are on
the elements above the text. -/
theorem text_shown_once_iff [UnicodeTables] [StrDebug] (s : Setup) (nodes : List Dom)
    (root_path : List UInt32) {a : Adapter} (htexts : ((texts nodes).map TextSite.id).Nodup)
    (helements : ((elements nodes).map fun site => site.el.id).Nodup)
    (hwalk : walk_children s nodes root_path 0 .empty .new = .ok a) :
    ∀ t ∈ texts nodes, ¬ s.Excluded t → is_blank t.text = false →
      ((a.shown t.id = 1 ∨ ∃ el ∈ t.chain, a.announced el.id) ↔
        s.takings .Block t.chain = 1 ∨ s.AnnouncedAbove nodes t) := by
  intro t ht _ htext
  have haccounts (e : ℕ) :=
    run_accounts (e := e) (fun _ : True => live_of_mem htexts ht htext) hwalk
  obtain ⟨dropped, hshown, hdropped⟩ := (haccounts 0).1
  rw [Setup.taken_of_mem htexts ht, hdropped trivial, Nat.add_zero] at hshown
  rw [Setup.announced_above_iff s helements ht, hshown]
  refine or_congr_right (exists_congr fun el => and_congr_right fun _ => ?_)
  exact (haccounts el.id).2

/-! ## A loss, and a duplicate -/

/-- A list in a heading. -/
def lost_nodes : List Dom :=
  [.tag 0 "h2" [.Text 1 "Scope", .tag 2 "ul" [.tag 3 "li" [.Text 4 "lost"]]]]

/-- A paragraph that is a note, in a list item. -/
def repeated_nodes : List Dom :=
  [.tag 0 "ul" [.tag 1 "li" [.Element ⟨2, "p", [("class", "note")]⟩ [.Text 3 "twice"]]]]

/-- A recipe whose notes are `p.note`. -/
def note_setup : Setup where
  input := ⟨"revision", "https://standard.example/", none⟩
  exclusions := []
  notes := [fun el => el.name == "p" && el.attr "class" == some "note"]
  figures := []

attribute [local instance] ascii_tables plain_debug

/-- **The list's text is lost, the paragraph's is shown twice,** and no diagnostic says so. -/
theorem retained_text_lost_or_repeated :
    (⟨[⟨0, "h2", []⟩, ⟨2, "ul", []⟩, ⟨3, "li", []⟩], 4, "lost"⟩ : TextSite) ∈ texts lost_nodes ∧
      (∃ a, walk_children .plain lost_nodes [] 0 .empty .new = .ok a ∧ a.shown 4 = 0 ∧
        a.diagnostics = []) ∧
      ∃ a, walk_children note_setup repeated_nodes [] 0 .empty .new = .ok a ∧ a.shown 3 = 2 ∧
        a.diagnostics = [] := by
  refine ⟨?_, ?_, ?_⟩
  · simp [lost_nodes, texts, texts_of, Dom.tag, TextSite.under]
  · have hlost : ((walk_children .plain lost_nodes [] 0 .empty .new).toOption.map fun a =>
        (a.shown 4, a.diagnostics)) = some (0, []) := by
      decide +kernel
    obtain ⟨a, hwalk, hview⟩ := Check.ok_of_view hlost
    exact ⟨a, hwalk, Prod.mk.inj hview⟩
  · have hrepeated : ((walk_children note_setup repeated_nodes [] 0 .empty .new).toOption.map
        fun a => (a.shown 3, a.diagnostics)) = some (2, []) := by
      decide +kernel
    obtain ⟨a, hwalk, hview⟩ := Check.ok_of_view hrepeated
    exact ⟨a, hwalk, Prod.mk.inj hview⟩

/-- The heading's own text is shown once. -/
theorem text_shown_once_heading : ∃ a,
    walk_children .plain lost_nodes [] 0 .empty .new = .ok a ∧
      (a.shown 1 = 1 ∨ ∃ el ∈ [(⟨0, "h2", []⟩ : Element)], a.announced el.id) := by
  have hends : ((walk_children .plain lost_nodes [] 0 .empty .new).toOption.map fun a =>
      a.candidates.length) = some 1 := by
    decide +kernel
  obtain ⟨a, hwalk, -⟩ := Check.ok_of_view hends
  have htexts : ((texts lost_nodes).map TextSite.id).Nodup := by decide +kernel
  have helements : ((elements lost_nodes).map fun site => site.el.id).Nodup := by decide +kernel
  have hmem : (⟨[⟨0, "h2", []⟩], 1, "Scope"⟩ : TextSite) ∈ texts lost_nodes := by
    simp [lost_nodes, texts, texts_of, Dom.tag, TextSite.under]
  have hkept : ¬ Setup.plain.Excluded ⟨[⟨0, "h2", []⟩], 1, "Scope"⟩ := by
    rintro ⟨el, -, hexcluded⟩
    cases hexcluded
  refine ⟨a, hwalk, ?_⟩
  refine (text_shown_once_iff .plain lost_nodes [] htexts helements hwalk _ hmem hkept
    (by decide +kernel)).mpr ?_
  exact .inl (by decide +kernel)

end Evidence.Corpus.Html
