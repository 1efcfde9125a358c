/-
The heading paths of both adapters, against the sections above their nodes.

A node's heading path is to be the labels of its section ancestors. In Markdown it is read off the
open section when the node's block ends, and the parent when the block starts, so that a heading
inside the block parts the two. In HTML only rows and cells come apart from their tables, when a
cell before them has a heading in it. `heading_paths_match_iff` says when this does not happen.
-/
import Evidence.Corpus.Ingest.Html.HeadingTrail
import Evidence.Corpus.Ingest.Markdown.HeadingTrail

set_option autoImplicit false

namespace Evidence.Corpus

open Check

/-- **The heading paths match the graph exactly along steady walks**: in Markdown, where a block
that leaves a node ends under the path at which it was put, and in HTML, where every row and every
cell is emitted under the path of its table. -/
theorem heading_paths_match_iff [UnicodeTables] [StrDebug] :
    (∀ (s : Markdown.Setup) (text : String) (events : List (Markdown.Event × Markdown.ByteRange))
        (b : Markdown.Adapter), Markdown.WellNested events →
      Markdown.walk s text events .new = .ok b →
      (HeadingPathsMatch b.candidates ↔ Markdown.SteadyFrom s text [] .new events)) ∧
    ∀ (s : Html.Setup) (nodes : List Html.Dom) (root_path : List UInt32) (b : Html.Adapter),
      Html.walk_children s nodes root_path 0 .empty .new = .ok b →
      (HeadingPathsMatch (b.candidates.map Html.Candidate.toCandidateNode) ↔
        Html.SteadyChildren s nodes root_path 0 .empty .new) :=
  ⟨fun _ _ _ _ hnested hwalk => Markdown.headingPathsMatch_walk_iff hnested hwalk,
    fun s nodes root_path _ hwalk => Html.headingPathsMatch_walk_iff s nodes root_path hwalk⟩

/-! ## A heading in a quote, and in a cell -/

/-- A file. -/
def trail_setup : Markdown.Setup where
  source_revision_uid := "revision"
  path := ⟨"trail.md", by decide +kernel⟩
  git_blob := none

/-- A heading in a block quote. -/
def quoted_text : String := "> # A\n"

def quoted_events : List (Markdown.Event × Markdown.ByteRange) :=
  [(.Start .BlockQuote, 0, 6), (.Start (.Heading .H1), 2, 6), (.Text "A", 4, 5),
    (.End (.Heading .H1), 2, 6), (.End .BlockQuote, 0, 6)]

/-- A heading in a cell, and a cell behind it. -/
def headed_nodes : List Html.Dom :=
  [.tag 0 "table" [.tag 1 "tr" [.tag 2 "td" [.tag 3 "h1" [.Text 4 "A"]], .tag 5 "td" []]]]

/-- What a comparison of paths looks at. -/
def CandidateNode.place (c : CandidateNode) :
    String × Option String × SourceNodeKind × List String :=
  (c.provisional_id, c.parent_id, c.kind, c.heading_path)

section Places

variable {nodes : List CandidateNode}
  {places : List (String × Option String × SourceNodeKind × List String)}

theorem exists_of_place (h : nodes.map CandidateNode.place = places)
    {place : String × Option String × SourceNodeKind × List String} (hplace : place ∈ places) :
    ∃ c ∈ nodes, c.provisional_id = place.1 ∧ c.parent_id = place.2.1 ∧ c.kind = place.2.2.1 ∧
      c.heading_path = place.2.2.2 := by
  rw [← h] at hplace
  obtain ⟨c, hc, rfl⟩ := List.mem_map.mp hplace
  exact ⟨c, hc, rfl, rfl, rfl, rfl⟩

theorem HeadingPathsMatch.at_root (h : HeadingPathsMatch nodes) {c : CandidateNode} (hc : c ∈ nodes)
    (hroot : c.parent_id = none) (hkind : c.kind ≠ .Section) : c.heading_path = [] := by
  obtain ⟨labels, hlabels, hpath⟩ := h c hc
  rw [hroot] at hlabels
  rw [hpath, c.section_label_eq_nil hkind, List.append_nil, hlabels.of_root]

theorem HeadingPathsMatch.at_parent (h : HeadingPathsMatch nodes)
    (hids : (nodes.map CandidateNode.provisional_id).Nodup) {c p : CandidateNode} (hc : c ∈ nodes)
    (hp : p ∈ nodes) (hparent : c.parent_id = some p.provisional_id) (hkind : c.kind ≠ .Section) :
    c.heading_path = p.heading_path := by
  obtain ⟨labels, hlabels, hpath⟩ := h c hc
  rw [hparent] at hlabels
  rw [hpath, c.section_label_eq_nil hkind, List.append_nil, h.labels_eq hids hp hlabels]

end Places

attribute [local instance] ascii_tables plain_debug

theorem quoted_heading_shifts_path : ∃ b, Markdown.WellNested quoted_events ∧
    Markdown.walk trail_setup quoted_text quoted_events .new = .ok b ∧
    ¬ HeadingPathsMatch b.candidates := by
  have hview : ((Markdown.walk trail_setup quoted_text quoted_events .new).toOption.map fun b =>
      b.candidates.map CandidateNode.place) = some
      [("cand-1", none, .Section, ["A"]), ("cand-0", none, .Note, ["A"])] := by
    decide +kernel
  obtain ⟨b, hwalk, hplaces⟩ := ok_of_view hview
  refine ⟨b, rfl, hwalk, fun hmatch => ?_⟩
  obtain ⟨c, hc, -, hroot, hkind, hpath⟩ :=
    exists_of_place hplaces (List.mem_cons_of_mem _ List.mem_cons_self)
  have hempty := hmatch.at_root hc hroot (by rw [hkind]; decide)
  rw [hpath] at hempty
  cases hempty

theorem headed_cell_shifts_path : ∃ b,
    Html.walk_children .plain headed_nodes [] 0 .empty .new = .ok b ∧
    ¬ HeadingPathsMatch (b.candidates.map Html.Candidate.toCandidateNode) := by
  have hview : ((Html.walk_children .plain headed_nodes [] 0 .empty .new).toOption.map fun b =>
      (b.candidates.map Html.Candidate.toCandidateNode).map CandidateNode.place) = some
      [("cand-0", none, .Table, []), ("cand-1", some "cand-0", .TableRow, []),
        ("cand-2", some "cand-1", .TableCell, []), ("cand-3", none, .Section, ["A"]),
        ("cand-4", some "cand-1", .TableCell, ["A"])] := by
    decide +kernel
  obtain ⟨b, hwalk, hplaces⟩ := ok_of_view hview
  refine ⟨b, hwalk, fun hmatch => ?_⟩
  have hids : ((b.candidates.map Html.Candidate.toCandidateNode).map
      CandidateNode.provisional_id).Nodup := by
    have hfirst := congrArg (List.map Prod.fst) hplaces
    rw [List.map_map] at hfirst
    have hnodup : ["cand-0", "cand-1", "cand-2", "cand-3", "cand-4"].Nodup := by decide
    exact (congrArg List.Nodup hfirst).mpr hnodup
  obtain ⟨row, hrow, hrow_id, -, -, hrow_path⟩ :=
    exists_of_place hplaces (List.mem_cons_of_mem _ List.mem_cons_self)
  obtain ⟨cell, hcell, -, hparent, hkind, hpath⟩ := exists_of_place hplaces
    (List.mem_of_getLast? (a := ("cand-4", some "cand-1", .TableCell, ["A"])) rfl)
  have hsame := hmatch.at_parent hids hcell hrow (hparent.trans (congrArg some hrow_id.symm))
    (by rw [hkind]; decide)
  rw [hpath, hrow_path] at hsame
  cases hsame

/-- A heading inside a block, and inside a cell, shifts a path against the graph. -/
theorem inner_heading_shifts_path :
    (∃ b, Markdown.WellNested quoted_events ∧
      Markdown.walk trail_setup quoted_text quoted_events .new = .ok b ∧
      ¬ HeadingPathsMatch b.candidates) ∧
    ∃ b, Html.walk_children .plain headed_nodes [] 0 .empty .new = .ok b ∧
      ¬ HeadingPathsMatch (b.candidates.map Html.Candidate.toCandidateNode) :=
  ⟨quoted_heading_shifts_path, headed_cell_shifts_path⟩

/-- Neither of the two walks is steady. -/
theorem inner_heading_not_steady :
    ¬ Markdown.SteadyFrom trail_setup quoted_text [] .new quoted_events ∧
      ¬ Html.SteadyChildren .plain headed_nodes [] 0 .empty .new := by
  obtain ⟨b, hnested, hwalk, hmismatch⟩ := quoted_heading_shifts_path
  obtain ⟨c, hwalk', hmismatch'⟩ := headed_cell_shifts_path
  constructor
  · exact fun hsteady =>
      hmismatch ((heading_paths_match_iff.1 _ _ _ _ hnested hwalk).mpr hsteady)
  · exact fun hsteady => hmismatch' ((heading_paths_match_iff.2 _ _ _ _ hwalk').mpr hsteady)

end Evidence.Corpus
