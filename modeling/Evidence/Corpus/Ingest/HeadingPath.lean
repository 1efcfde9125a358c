/-
The heading path of a node, against the sections above the node in its graph.

An adapter writes into each node's locator the labels of the sections that are open when it emits
the node; the node's parent may have been decided earlier. `HeadingPathsMatch` compares the two: a
node's path is to be what the labels of its section ancestors say, followed by its own label if it
is a section.

An adapter's run gives each node a **home**: the path of its parent when the node was placed under
it. `headingPathsMatch_iff` reduces the comparison to that of each path with the home, for
both adapters.
-/
import Evidence.Corpus.SourceGraph.Identity

set_option autoImplicit false

namespace Evidence.Corpus

/-! ## Paths -/

def SourceLocator.heading_path : SourceLocator → List String
  | .Markdown _ _ _ heading_path _ => heading_path
  | .Html _ _ _ heading_path _ => heading_path
  | .Pdf .. => []

def CandidateNode.heading_path (c : CandidateNode) : List String := c.locator.heading_path

/-- What a node adds to the labels above it: its own label, if it is a labelled section. -/
def CandidateNode.section_label (c : CandidateNode) : List String :=
  if c.kind = .Section then c.label.toList else []

inductive SectionLabels (nodes : List CandidateNode) : Option String → List String → Prop
  | root : SectionLabels nodes none []
  | under {p : CandidateNode} {labels : List String} (hp : p ∈ nodes)
      (h : SectionLabels nodes p.parent_id labels) :
      SectionLabels nodes (some p.provisional_id) (labels ++ p.section_label)

/-- **The heading paths match the graph**: each is the labels of the section ancestors, outermost
first, followed by the node's own label if it is a labelled section. -/
def HeadingPathsMatch (nodes : List CandidateNode) : Prop :=
  ∀ c ∈ nodes, ∃ labels, SectionLabels nodes c.parent_id labels ∧
    c.heading_path = labels ++ c.section_label

/-! ## Homes -/

/-- The first of two ids was given out earlier. -/
def Earlier (name : ℕ → String) (id id' : String) : Prop :=
  ∃ k n, id = name k ∧ id' = name n ∧ k < n

inductive Lies (name : ℕ → String) (nodes : List CandidateNode) (home : String → List String)
    (c : CandidateNode) : Prop
  | at_root (hparent : c.parent_id = none) (hhome : home c.provisional_id = [])
  | in_section (p : CandidateNode) (hp : p ∈ nodes) (hparent : c.parent_id = some p.provisional_id)
      (hkind : p.kind = .Section) (hhome : home c.provisional_id = p.heading_path)
      (hearlier : c.kind = .Paragraph ∨ Earlier name p.provisional_id c.provisional_id)
  | in_block (p : CandidateNode) (hp : p ∈ nodes) (hparent : c.parent_id = some p.provisional_id)
      (hkind : p.kind ≠ .Section ∧ p.kind ≠ .Paragraph)
      (hhome : home c.provisional_id = home p.provisional_id)
      (hearlier : Earlier name p.provisional_id c.provisional_id)

/-- The node's path is its home's, followed by its own label. -/
def AtHome (home : String → List String) (c : CandidateNode) : Prop :=
  c.heading_path = home c.provisional_id ++ c.section_label

variable {name : ℕ → String} {nodes : List CandidateNode} {home : String → List String}

theorem eq_of_provisional_id (hids : (nodes.map CandidateNode.provisional_id).Nodup)
    {c d : CandidateNode} (hc : c ∈ nodes) (hd : d ∈ nodes)
    (h : c.provisional_id = d.provisional_id) : c = d :=
  List.inj_on_of_nodup_map hids hc hd h

theorem SectionLabels.parent (hids : (nodes.map CandidateNode.provisional_id).Nodup)
    {p : CandidateNode} (hp : p ∈ nodes) {labels : List String}
    (h : SectionLabels nodes (some p.provisional_id) labels) :
    ∃ above, SectionLabels nodes p.parent_id above ∧ labels = above ++ p.section_label := by
  generalize hid : some p.provisional_id = id at h
  cases h with
  | root => cases hid
  | @under q above hq h =>
    rw [eq_of_provisional_id hids hp hq (Option.some.inj hid)]
    exact ⟨above, h, rfl⟩

/-- Nothing is above the root. -/
theorem SectionLabels.of_root {labels : List String} (h : SectionLabels nodes none labels) :
    labels = [] := by
  generalize hid : (none : Option String) = id at h
  cases h with
  | root => rfl
  | under => cases hid

theorem SectionLabels.unique (hids : (nodes.map CandidateNode.provisional_id).Nodup)
    {id : Option String} {labels labels' : List String} (h : SectionLabels nodes id labels)
    (h' : SectionLabels nodes id labels') : labels = labels' := by
  induction h generalizing labels' with
  | root =>
    cases h' with
    | root => rfl
  | under hp _ ih =>
    obtain ⟨above, habove, rfl⟩ := h'.parent hids hp
    rw [ih habove]

theorem CandidateNode.section_label_eq_nil {c : CandidateNode} (h : c.kind ≠ .Section) :
    c.section_label = [] := if_neg h

theorem labels_of_atHome (hname : Function.Injective name)
    (hlies : ∀ c ∈ nodes, Lies name nodes home c) (hhome : ∀ c ∈ nodes, AtHome home c) :
    ∀ n, ∀ c ∈ nodes, c.kind ≠ .Paragraph → c.provisional_id = name n →
      SectionLabels nodes c.parent_id (home c.provisional_id) := by
  intro n
  induction n using Nat.strong_induction_on with
  | _ n ih =>
    intro c hc hkind hid
    -- the number of an earlier node
    have hbelow : ∀ p : CandidateNode, Earlier name p.provisional_id c.provisional_id →
        ∃ k < n, p.provisional_id = name k := by
      rintro p ⟨k, m, hk, hm, hlt⟩
      exact ⟨k, (hname (hm.symm.trans hid)) ▸ hlt, hk⟩
    cases hlies c hc with
    | at_root hparent hroot =>
      rw [hparent, hroot]
      exact .root
    | in_section p hp hparent hsection hpath hearlier =>
      obtain ⟨k, hk, hp_id⟩ := hbelow p (hearlier.resolve_left hkind)
      have habove := ih k hk p hp (by rw [hsection]; decide) hp_id
      rw [hparent, hpath, hhome p hp]
      exact .under hp habove
    | in_block p hp hparent hblock hpath hearlier =>
      obtain ⟨k, hk, hp_id⟩ := hbelow p hearlier
      have habove := ih k hk p hp hblock.2 hp_id
      have hunder := SectionLabels.under hp habove
      rw [p.section_label_eq_nil hblock.1, List.append_nil] at hunder
      rw [hparent, hpath]
      exact hunder

theorem HeadingPathsMatch.labels_eq (h : HeadingPathsMatch nodes)
    (hids : (nodes.map CandidateNode.provisional_id).Nodup) {p : CandidateNode} (hp : p ∈ nodes)
    {labels : List String} (hlabels : SectionLabels nodes (some p.provisional_id) labels) :
    labels = p.heading_path := by
  obtain ⟨above, habove, rfl⟩ := hlabels.parent hids hp
  obtain ⟨above', habove', hp_path⟩ := h p hp
  rw [hp_path, habove.unique hids habove']

theorem atHome_of_match (hname : Function.Injective name)
    (hids : (nodes.map CandidateNode.provisional_id).Nodup)
    (hlies : ∀ c ∈ nodes, Lies name nodes home c) (hmatch : HeadingPathsMatch nodes) :
    ∀ n, ∀ c ∈ nodes, c.provisional_id = name n → AtHome home c := by
  intro n
  induction n using Nat.strong_induction_on with
  | _ n ih =>
    intro c hc hid
    obtain ⟨labels, hlabels, hpath⟩ := hmatch c hc
    have hparent_path : ∀ p ∈ nodes, c.parent_id = some p.provisional_id →
        labels = p.heading_path := fun p hp hparent => hmatch.labels_eq hids hp (hparent ▸ hlabels)
    rw [AtHome, hpath]
    congr 1
    cases hlies c hc with
    | at_root hparent hroot =>
      rw [hparent] at hlabels
      rw [hroot, hlabels.of_root]
    | in_section p hp hparent _ hhome _ => rw [hhome, hparent_path p hp hparent]
    | in_block p hp hparent hblock hhome hearlier =>
      obtain ⟨k, m, hk, hm, hlt⟩ := hearlier
      have hathome := ih k ((hname (hm.symm.trans hid)) ▸ hlt) p hp hk
      rw [AtHome, p.section_label_eq_nil hblock.1, List.append_nil] at hathome
      rw [hhome, hparent_path p hp hparent, hathome]

/-- **The paths match the graph exactly if each is that of the node's home.** -/
theorem headingPathsMatch_iff (hname : Function.Injective name)
    (hids : (nodes.map CandidateNode.provisional_id).Nodup)
    (hnamed : ∀ c ∈ nodes, ∃ n, c.provisional_id = name n)
    (hlies : ∀ c ∈ nodes, Lies name nodes home c) :
    HeadingPathsMatch nodes ↔ ∀ c ∈ nodes, AtHome home c := by
  constructor
  · intro hmatch c hc
    obtain ⟨n, hn⟩ := hnamed c hc
    exact atHome_of_match hname hids hlies hmatch n c hc hn
  · intro hhome c hc
    refine ⟨home c.provisional_id, ?_, hhome c hc⟩
    have hlabels : ∀ d ∈ nodes, d.kind ≠ .Paragraph →
        SectionLabels nodes d.parent_id (home d.provisional_id) := by
      intro d hd hkind
      obtain ⟨n, hn⟩ := hnamed d hd
      exact labels_of_atHome hname hlies hhome n d hd hkind hn
    by_cases hkind : c.kind = .Paragraph
    · cases hlies c hc with
      | at_root hparent hroot =>
        rw [hparent, hroot]
        exact .root
      | in_section p hp hparent hsection hpath _ =>
        have hunder := SectionLabels.under hp (hlabels p hp (by rw [hsection]; decide))
        rw [hparent, hpath, hhome p hp]
        exact hunder
      | in_block p hp hparent hblock hpath _ =>
        have hunder := SectionLabels.under hp (hlabels p hp hblock.2)
        rw [p.section_label_eq_nil hblock.1, List.append_nil] at hunder
        rw [hparent, hpath]
        exact hunder
    · exact hlabels c hc hkind

/-! ## Parents -/

/-- The node's path is its parent's, followed by its own label. -/
def Follows (nodes : List CandidateNode) (c : CandidateNode) : Prop :=
  (c.parent_id = none → c.heading_path = c.section_label) ∧
    ∀ p ∈ nodes, c.parent_id = some p.provisional_id →
      c.heading_path = p.heading_path ++ c.section_label

/-- **Where parents are older, the paths match the graph exactly if each follows its
parent's.** -/
theorem headingPathsMatch_iff_follows (hname : Function.Injective name)
    (hids : (nodes.map CandidateNode.provisional_id).Nodup)
    (holder : ∀ c ∈ nodes, ∃ n, c.provisional_id = name n ∧ (c.parent_id = none ∨
      ∃ p ∈ nodes, c.parent_id = some p.provisional_id ∧
        Earlier name p.provisional_id c.provisional_id)) :
    HeadingPathsMatch nodes ↔ ∀ c ∈ nodes, Follows nodes c := by
  constructor
  · intro hmatch c hc
    obtain ⟨labels, hlabels, hpath⟩ := hmatch c hc
    refine ⟨fun hroot => ?_, fun p hp hparent => ?_⟩
    · rw [hroot] at hlabels
      rw [hpath, hlabels.of_root, List.nil_append]
    · rw [hparent] at hlabels
      rw [hpath, hmatch.labels_eq hids hp hlabels]
  · intro hfollows
    have hnumbered : ∀ n, ∀ c ∈ nodes, c.provisional_id = name n →
        ∃ labels, SectionLabels nodes c.parent_id labels ∧
          c.heading_path = labels ++ c.section_label := by
      intro n
      induction n using Nat.strong_induction_on with
      | _ n ih =>
        intro c hc hid
        obtain ⟨-, -, hroot | ⟨p, hp, hparent, k, m, hk, hm, hlt⟩⟩ := holder c hc
        · rw [hroot]
          exact ⟨[], .root, (hfollows c hc).1 hroot⟩
        · obtain ⟨above, habove, hp_path⟩ := ih k ((hname (hm.symm.trans hid)) ▸ hlt) p hp hk
          rw [hparent, (hfollows c hc).2 p hp hparent, hp_path]
          exact ⟨above ++ p.section_label, .under hp habove, rfl⟩
    intro c hc
    obtain ⟨n, hn, -⟩ := holder c hc
    exact hnumbered n c hc hn

end Evidence.Corpus
