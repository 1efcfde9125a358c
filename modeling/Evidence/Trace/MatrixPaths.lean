/-
The two paths to the traceability matrix -- from the trace files, and through the
corpus graph.

The graph keeps every entry as a node, its edges sorted, and next to it the metadata
that only the views need. Its nodes are listed by uid, not in the order of the files, so
the rows of the two paths are the same rows in another order, with their links in
another order (`unsorted_rows`). Ids are unique in a graph, so sorting the rows leaves one
order, and the document does not see the order of links.
-/
import Evidence.Lib.Lists
import Evidence.Trace.Matrix

set_option autoImplicit false

namespace Evidence.Trace

open Std Sorting Corpus

/-! ## Rows in another order -/

section Rows

variable {α : Type} {sort_key : α → Option Int64} {id : α → String}

instance : TransCmp (row_order sort_key id) :=
  inferInstanceAs (TransCmp (compareLex (compareOn fun row => ((sort_key row).getD 0).toInt)
    (compareOn id)))

theorem id_of_row_order_eq {a b : α} (h : row_order sort_key id a b = .eq) : id a = id b := by
  have hid : compare (id a) (id b) = .eq := (compareLex_eq_eq.mp h).2
  exact compare_string_eq hid

/-- **Rows of unique ids are sorted into one order**, wherever they stood. -/
theorem sorted_rows_congr {f : α → α} (hkey : ∀ a, sort_key (f a) = sort_key a)
    (hid : ∀ a, id (f a) = id a) {rows rows' : List α} (hrows : (rows.map f).Perm (rows'.map f))
    (hids : (rows.map id).Nodup) :
    (sortBy (row_order sort_key id) rows).map f = (sortBy (row_order sort_key id) rows').map f := by
  have horder : ∀ a b, row_order sort_key id (f a) (f b) = row_order sort_key id a b := by
    intro a b
    simp only [row_order, compareLex, compareOn, hkey, hid]
  rw [map_sortBy horder, map_sortBy horder]
  refine sortBy_congr hrows ?_
  intro a ha b hb hab
  have hnodup : ((rows.map f).map id).Nodup := by
    rw [List.map_map]
    simpa only [Function.comp_def, hid] using hids
  exact List.inj_on_of_nodup_map hnodup ha hb (id_of_row_order_eq hab)

end Rows

/-- Unsorted rows that give one document. -/
structure SameRows (rows rows' : MatrixView) : Prop where
  hlrs : rows.canonical.hlrs.Perm rows'.canonical.hlrs
  llrs : rows.canonical.llrs.Perm rows'.canonical.llrs
  tests : rows.canonical.tests.Perm rows'.canonical.tests

structure UniqueIds (rows : MatrixView) : Prop where
  hlrs : (rows.hlrs.map (·.id)).Nodup
  llrs : (rows.llrs.map (·.id)).Nodup
  tests : (rows.tests.map (·.id)).Nodup

def MatrixView.sorted (rows : MatrixView) : MatrixView := .new rows.hlrs rows.llrs rows.tests

/-- **The same rows give the same document.** -/
theorem render_congr {rows rows' : MatrixView} (hrows : SameRows rows rows')
    (hids : UniqueIds rows) (hlr : HlrFile) (llr : LlrFile) (tests : TestsFile)
    (doc_id : String) :
    render_traceability_matrix rows.sorted hlr llr tests doc_id =
      render_traceability_matrix rows'.sorted hlr llr tests doc_id := by
  have hview : rows.sorted.canonical = rows'.sorted.canonical := by
    simp only [MatrixView.canonical, MatrixView.sorted, MatrixView.new, MatrixView.mk.injEq]
    refine ⟨sorted_rows_congr ?_ ?_ hrows.hlrs hids.hlrs,
      sorted_rows_congr ?_ ?_ hrows.llrs hids.llrs,
      sorted_rows_congr ?_ ?_ hrows.tests hids.tests⟩ <;> exact fun _ => rfl
  rw [← render_canonical, hview, render_canonical]

/-! ## Rows of items -/

def hlr_row : TraceItem → Option MatrixRequirement
  | .Hlr entry => some (requirement_from_hlr entry)
  | .Sys _ | .Llr _ | .Test _ | .Derived _ => none

def llr_row : TraceItem → Option MatrixRequirement
  | .Llr entry => some (requirement_from_llr entry)
  | .Sys _ | .Hlr _ | .Test _ | .Derived _ => none

def test_entry_row : TraceItem → Option MatrixTest
  | .Test entry => some (test_from_entry entry)
  | .Sys _ | .Hlr _ | .Llr _ | .Derived _ => none

def item_rows (items : List TraceItem) : MatrixView where
  hlrs := items.filterMap hlr_row
  llrs := items.filterMap llr_row
  tests := items.filterMap test_entry_row

def unsorted_rows (graph : CorpusGraph) : MatrixView where
  hlrs := graph.nodes.values.filterMap (requirement_row graph .Hlr)
  llrs := graph.nodes.values.filterMap (requirement_row graph .Llr)
  tests := graph.nodes.values.filterMap (test_row graph)

def file_items (files : TraceFiles) : List TraceItem :=
  trace_items files.sys.requirements files.hlr.requirements files.llr.requirements
    files.tests.tests (derived_entries files)

theorem from_trace_files_eq (files : TraceFiles) :
    MatrixView.from_trace_files files.hlr files.llr files.tests =
      (item_rows (file_items files)).sorted := by
  have hhlr : hlr_row ∘ .Hlr = some ∘ requirement_from_hlr := rfl
  have hllr : llr_row ∘ .Llr = some ∘ requirement_from_llr := rfl
  have htest : test_entry_row ∘ .Test = some ∘ test_from_entry := rfl
  have hnone : ∀ {α β : Type} (l : List α), l.filterMap (fun _ => (none : Option β)) = [] :=
    fun l => List.filterMap_eq_nil_iff.mpr fun _ _ => rfl
  simp only [MatrixView.from_trace_files, MatrixView.sorted, item_rows, file_items, trace_items,
    List.filterMap_append, List.filterMap_map, hhlr, hllr, htest, List.filterMap_eq_map]
  simp only [Function.comp_def, hlr_row, llr_row, test_entry_row, hnone, List.nil_append,
    List.append_nil]

/-! ## Rows of the graph -/

theorem stored_targets_perm (kind : EdgeKind) (traces_to : List String) :
    (edge_targets kind (sortBy CorpusGraph.edge_cmp (traces_to.map fun link => (kind, link)))).Perm
      traces_to := by
  have hall : edge_targets kind (traces_to.map fun link => (kind, link)) = traces_to := by
    simp [edge_targets, List.filter_map, Function.comp_def]
  refine List.Perm.trans ?_ (.of_eq hall)
  exact ((sortBy_perm _).filter _).map _

theorem sort_stored_targets (kind : EdgeKind) (traces_to : List String) :
    sortBy compare (edge_targets kind (sortBy CorpusGraph.edge_cmp
      (traces_to.map fun link => (kind, link)))) = sortBy compare traces_to :=
  sort_names_congr (stored_targets_perm kind traces_to)

section Nodes

variable {graph : CorpusGraph} {item : TraceItem} {a : AdaptedNode}

/-- **The row of an entry, through its node**, is the entry's own row up to the order of its
links. -/
theorem rows_of_adapt (h : adapt item = .ok a)
    (hget : graph.trace_metadata.get a.node.uid = some a.entry) :
    (hlr_row item).map MatrixRequirement.canonical =
        (requirement_row graph .Hlr a.stored).map .canonical ∧
      (llr_row item).map MatrixRequirement.canonical =
        (requirement_row graph .Llr a.stored).map .canonical ∧
      (test_entry_row item).map MatrixTest.canonical =
        (test_row graph a.stored).map .canonical := by
  cases item with
  | Sys entry | Hlr entry | Llr entry | Derived entry =>
    obtain ⟨uid, huid, hnode⟩ := Check.bind_ok_iff.mp h
    rw [← Except.ok.inj hnode] at hget ⊢
    simp only [AdaptedNode.entry, Node.uid] at hget
    simp [hlr_row, llr_row, test_entry_row, requirement_row, test_row, project_requirement,
      requirement_metadata, AdaptedNode.stored, CorpusGraph.canonical, Node.with_edges,
      Node.edges, hget, MatrixRequirement.canonical, requirement_from_hlr, requirement_from_llr,
      require_uid_ok_iff.mp huid, derives_from_edges, sort_stored_targets]
  | Test entry =>
    obtain ⟨uid, huid, hnode⟩ := Check.bind_ok_iff.mp h
    rw [← Except.ok.inj hnode] at hget ⊢
    simp only [AdaptedNode.entry, Node.uid] at hget
    simp [hlr_row, llr_row, test_entry_row, requirement_row, test_row, project_test,
      test_metadata, AdaptedNode.stored, CorpusGraph.canonical, Node.with_edges, Node.edges,
      hget, MatrixTest.canonical, test_from_entry, sort_stored_targets]

theorem metadata_of_mem {nodes : List AdaptedNode} (huids : (nodes.map (·.node.uid)).Nodup)
    (ha : a ∈ nodes) : (graph_of nodes).trace_metadata.get a.node.uid = some a.entry := by
  have hkeys : ((nodes.map AdaptedNode.entry).map Prod.fst).Nodup := by
    rw [List.map_map]
    exact huids
  exact Store.mem_values.mp ((Store.mem_values_ofList hkeys).mpr (List.mem_map_of_mem ha))

end Nodes

/-- **The rows of a graph are the rows of its items**, in another order. -/
theorem graph_rows_same {items : List TraceItem} {nodes : List AdaptedNode}
    (h : List.Forall₂ (fun item a => adapt item = .ok a) items nodes) (hnodes : Insertable nodes) :
    SameRows (item_rows items) (unsorted_rows (graph_of nodes)) := by
  have hall : List.Forall₂ (fun a item => (graph_of nodes).trace_metadata.get a.node.uid =
      some a.entry ∧ adapt item = .ok a) nodes items :=
    (List.forall₂_and_left nodes items).mpr
      ⟨fun a ha => metadata_of_mem hnodes.uids ha, h.flip⟩
  have hvalues : (nodes.map AdaptedNode.stored).Perm (graph_of nodes).nodes.values := by
    refine (Store.values_ofList_perm ?_).symm
    rw [map_stored_uid]
    exact hnodes.uids
  -- the nodes are listed in another order, and each gives the row of its item
  have hrows : ∀ {γ : Type} {c : γ → γ} {f : TraceItem → Option γ} {g : Node → Option γ},
      (∀ a item, (graph_of nodes).trace_metadata.get a.node.uid = some a.entry ∧
        adapt item = .ok a → (g a.stored).map c = (f item).map c) →
      ((items.filterMap f).map c).Perm (((graph_of nodes).nodes.values.filterMap g).map c) := by
    intro γ c f g hfg
    have hsame := Lists.map_filterMap_congr hall hfg
    rw [← hsame, ← Function.comp_def g AdaptedNode.stored, ← List.filterMap_map]
    exact (hvalues.filterMap g).map c
  refine ⟨hrows fun a item ha => ?_, hrows fun a item ha => ?_, hrows fun a item ha => ?_⟩
  · exact (rows_of_adapt ha.2 ha.1).1.symm
  · exact (rows_of_adapt ha.2 ha.1).2.1.symm
  · exact (rows_of_adapt ha.2 ha.1).2.2.symm

/-! ## Files in another order -/

def TraceItem.with_links (links : List String) : TraceItem → TraceItem
  | .Sys entry => .Sys { entry with traces_to := links }
  | .Hlr entry => .Hlr { entry with traces_to := links }
  | .Llr entry => .Llr { entry with traces_to := links }
  | .Test entry => .Test { entry with traces_to := links }
  | .Derived entry => .Derived entry

/-- An item whose links are listed in another order. -/
def Relinked (item item' : TraceItem) : Prop :=
  ∃ links, item.links.Perm links ∧ item' = item.with_links links

/-- The same entries in another order, with their links in another order. -/
def SameEntries (items items' : List TraceItem) : Prop :=
  ∃ shuffled, items.Perm shuffled ∧ List.Forall₂ Relinked shuffled items'

/-- Trace files that differ in the order of their entries and of their links only. -/
structure Reordered (files files' : TraceFiles) : Prop where
  sys : SameEntries (files.sys.requirements.map .Sys) (files'.sys.requirements.map .Sys)
  hlr : SameEntries (files.hlr.requirements.map .Hlr) (files'.hlr.requirements.map .Hlr)
  llr : SameEntries (files.llr.requirements.map .Llr) (files'.llr.requirements.map .Llr)
  tests : SameEntries (files.tests.tests.map .Test) (files'.tests.tests.map .Test)
  derived : SameEntries ((derived_entries files).map .Derived)
    ((derived_entries files').map .Derived)
  provenance : files'.hlr.schema = files.hlr.schema ∧ files'.hlr.meta = files.hlr.meta ∧
    files'.llr.schema = files.llr.schema ∧ files'.llr.meta = files.llr.meta ∧
    files'.tests.schema = files.tests.schema ∧ files'.tests.meta = files.tests.meta

theorem SameEntries.append {l l' m m' : List TraceItem} (h : SameEntries l l')
    (h' : SameEntries m m') : SameEntries (l ++ m) (l' ++ m') := by
  obtain ⟨s, hs, hls⟩ := h
  obtain ⟨t, ht, hmt⟩ := h'
  exact ⟨s ++ t, hs.append ht, List.rel_append hls hmt⟩

theorem Reordered.items {files files' : TraceFiles} (h : Reordered files files') :
    SameEntries (file_items files) (file_items files') :=
  (((h.sys.append h.hlr).append h.llr).append h.tests).append h.derived

section Relinked

variable {item item' : TraceItem}

theorem Relinked.identity (h : Relinked item item') :
    item'.uid = item.uid ∧ item'.kind = item.kind ∧ item'.id = item.id := by
  obtain ⟨links, -, rfl⟩ := h
  cases item with
  | Sys entry | Hlr entry | Llr entry | Test entry | Derived entry => exact ⟨rfl, rfl, rfl⟩

theorem Relinked.links (h : Relinked item item') : item.links.Perm item'.links := by
  obtain ⟨links, hperm, rfl⟩ := h
  cases item with
  | Sys entry | Hlr entry | Llr entry | Test entry => exact hperm
  | Derived entry => exact .nil

/-- Other links leave the row under sorted links. -/
theorem Relinked.rows (h : Relinked item item') :
    (hlr_row item).map MatrixRequirement.canonical = (hlr_row item').map .canonical ∧
      (llr_row item).map MatrixRequirement.canonical = (llr_row item').map .canonical ∧
      (test_entry_row item).map MatrixTest.canonical = (test_entry_row item').map .canonical := by
  obtain ⟨links, hperm, rfl⟩ := h
  cases item with
  | Sys entry | Hlr entry | Llr entry | Test entry =>
    have hsort : sortBy compare entry.traces_to = sortBy compare links := sort_names_congr hperm
    simp [hlr_row, llr_row, test_entry_row, TraceItem.with_links, MatrixRequirement.canonical,
      MatrixTest.canonical, requirement_from_hlr, requirement_from_llr, test_from_entry, hsort]
  | Derived entry => exact ⟨rfl, rfl, rfl⟩

end Relinked

section SameEntries

variable {items items' : List TraceItem}

theorem SameEntries.graphable (h : SameEntries items items') (hitems : Graphable items) :
    Graphable items' := by
  obtain ⟨shuffled, hperm, hrel⟩ := h
  obtain ⟨huids, hunique, hids, hlinks⟩ := hitems.of_perm hperm
  have hmap : ∀ {β : Type} (f : TraceItem → β), (∀ a b, Relinked a b → f a = f b) →
      shuffled.map f = items'.map f := by
    intro β f hf
    exact List.forall₂_eq_eq_eq ▸ (List.forall₂_map_left_iff.mpr
      (List.forall₂_map_right_iff.mpr (hrel.imp hf)))
  refine ⟨fun item hitem => ?_, ?_, ?_, fun item hitem => ?_⟩
  · obtain ⟨before, hbefore, hr⟩ := Collect.exists_of_mem_right hrel hitem
    rw [hr.identity.1]
    exact huids before hbefore
  · rwa [← hmap _ fun a b hr => hr.identity.1.symm]
  · rwa [← hmap _ fun a b hr => by rw [hr.identity.2.1, hr.identity.2.2]]
  · obtain ⟨before, hbefore, hr⟩ := Collect.exists_of_mem_right hrel hitem
    exact hr.links.nodup_iff.mp (hlinks before hbefore)

theorem SameEntries.rows (h : SameEntries items items') :
    SameRows (item_rows items) (item_rows items') := by
  obtain ⟨shuffled, hperm, hrel⟩ := h
  have hrows : ∀ {γ : Type} {c : γ → γ} {f : TraceItem → Option γ},
      (∀ a b, Relinked a b → (f a).map c = (f b).map c) →
      ((items.filterMap f).map c).Perm ((items'.filterMap f).map c) := by
    intro γ c f hf
    rw [← Lists.map_filterMap_congr hrel hf]
    exact (hperm.filterMap f).map c
  exact ⟨hrows fun _ _ hr => hr.rows.1, hrows fun _ _ hr => hr.rows.2.1,
    hrows fun _ _ hr => hr.rows.2.2⟩

theorem unique_ids (hitems : Graphable items) : UniqueIds (item_rows items) := by
  have hpairs := List.pairwise_map.mp hitems.ids
  have hrow : ∀ {γ : Type} (f : TraceItem → Option γ) (id : γ → String) (kind : NodeKind),
      (∀ item row, f item = some row → node_kind item.kind = kind ∧ id row = item.id) →
      ((items.filterMap f).map id).Nodup := by
    intro γ f id kind hf
    refine List.pairwise_map.mpr (List.Pairwise.filterMap f ?_ hpairs)
    intro a b hne row hrow row' hrow' heq
    obtain ⟨hkind, hid⟩ := hf a row hrow
    obtain ⟨hkind', hid'⟩ := hf b row' hrow'
    exact hne (Prod.ext (hkind.trans hkind'.symm) (hid.symm.trans (heq.trans hid')))
  refine ⟨hrow hlr_row _ .Requirement ?_, hrow llr_row _ .Requirement ?_,
    hrow test_entry_row _ .Test ?_⟩
  all_goals
    intro item row h
    cases item <;>
      simp only [hlr_row, llr_row, test_entry_row, reduceCtorEq, Option.some.injEq] at h
    rw [← h]
    exact ⟨rfl, rfl⟩

end SameEntries

/-! ## The two paths -/

def file_matrix (files : TraceFiles) (doc_id : String) : String :=
  generate_traceability_matrix files.hlr files.llr files.tests doc_id

def graph_matrix (graph : CorpusGraph) (files : TraceFiles) (doc_id : String) : String :=
  generate_corpus_traceability_matrix graph files.hlr files.llr files.tests doc_id

/-- The two paths agree on one set of files. -/
theorem graph_matrix_eq {files : TraceFiles} {graph : CorpusGraph}
    (hgraph : graph_from_trace_files files = .ok graph) (doc_id : String) :
    graph_matrix graph files doc_id = file_matrix files doc_id := by
  have hitems := graph_exists_iff.mp ⟨graph, hgraph⟩
  obtain ⟨nodes, hadapt, hnodes, rfl⟩ := graph_from_trace_parts_ok_iff.mp hgraph
  have hsame : SameRows (item_rows (file_items files)) (unsorted_rows (graph_of nodes)) := by
    have hrows := graph_rows_same hadapt hnodes
    have hperm := inserted_items_perm files.sys.requirements files.hlr.requirements
      files.llr.requirements files.tests.tests (derived_entries files)
    refine ⟨?_, ?_, ?_⟩
    · exact (((hperm.filterMap hlr_row).map _).symm).trans hrows.hlrs
    · exact (((hperm.filterMap llr_row).map _).symm).trans hrows.llrs
    · exact (((hperm.filterMap test_entry_row).map _).symm).trans hrows.tests
  rw [graph_matrix, generate_corpus_traceability_matrix, file_matrix,
    generate_traceability_matrix, from_trace_files_eq]
  exact (render_congr hsame (unique_ids hitems) files.hlr files.llr files.tests doc_id).symm

theorem file_matrix_reordered {files files' : TraceFiles} (hitems : Graphable (file_items files))
    (h : Reordered files files') (doc_id : String) :
    file_matrix files' doc_id = file_matrix files doc_id := by
  have hheader : matrix_header files'.hlr files'.llr files'.tests doc_id =
      matrix_header files.hlr files.llr files.tests doc_id := by
    obtain ⟨hhlr, hhlrmeta, hllr, hllrmeta, htests, htestsmeta⟩ := h.provenance
    rw [matrix_header, hhlr, hhlrmeta, hllr, hllrmeta, htests, htestsmeta, matrix_header]
  rw [file_matrix, file_matrix, generate_traceability_matrix, generate_traceability_matrix,
    from_trace_files_eq, from_trace_files_eq, render_congr h.items.rows (unique_ids hitems),
    render_traceability_matrix, hheader, render_traceability_matrix]

/-- **The two matrix paths agree**: the graph of the files has the files' matrix, and so have the
files in any other order of entries and links, and their graph. -/
theorem matrix_paths_agree (files files' : TraceFiles) (graph : CorpusGraph) (doc_id : String)
    (hgraph : graph_from_trace_files files = .ok graph) (h : Reordered files files') :
    graph_matrix graph files doc_id = file_matrix files doc_id ∧
      file_matrix files' doc_id = file_matrix files doc_id ∧
      ∃ graph', graph_from_trace_files files' = .ok graph' ∧
        graph_matrix graph' files' doc_id = file_matrix files doc_id := by
  have hitems : Graphable (file_items files) := graph_exists_iff.mp ⟨graph, hgraph⟩
  have hfiles := file_matrix_reordered hitems h doc_id
  obtain ⟨graph', hgraph'⟩ := graph_exists_iff.mpr (h.items.graphable hitems)
  exact ⟨graph_matrix_eq hgraph doc_id, hfiles, graph', hgraph',
    (graph_matrix_eq hgraph' doc_id).trans hfiles⟩

/-! ### Two requirements and a test, listed both ways -/

def sample_hlr (uid id : String) : HlrEntry :=
  ⟨some uid, none, id, "a requirement", none, none, none, none, none, none, none, [], [], []⟩

def sample_llr (uid id : String) (traces_to : List String) : LlrEntry :=
  ⟨some uid, none, id, "its refinement", none, none, traces_to, none, [], none, [], []⟩

def sample_files (hlrs : List HlrEntry) (llrs : List LlrEntry) : TraceFiles where
  sys := ⟨⟨"1"⟩, ⟨"SYS", "A"⟩, []⟩
  hlr := ⟨⟨"1"⟩, ⟨"HLR", "A"⟩, hlrs⟩
  llr := ⟨⟨"1"⟩, ⟨"LLR", "A"⟩, llrs⟩
  tests := ⟨⟨"1"⟩, ⟨"TESTS", "A"⟩, []⟩
  derived := none

def sample_trace : TraceFiles :=
  sample_files [sample_hlr "h1" "HLR-1", sample_hlr "h2" "HLR-2"]
    [sample_llr "l1" "LLR-1" ["h1", "h2"]]

/-- The sample with its requirements and its links the other way round. -/
def sample_reversed : TraceFiles :=
  sample_files [sample_hlr "h2" "HLR-2", sample_hlr "h1" "HLR-1"]
    [sample_llr "l1" "LLR-1" ["h2", "h1"]]

/-- The two paths at the sample and at the sample reversed. -/
theorem matrix_paths_agree_sample : ∃ graph, graph_from_trace_files sample_trace = .ok graph ∧
    graph_matrix graph sample_trace "DOC" = file_matrix sample_trace "DOC" ∧
    file_matrix sample_reversed "DOC" = file_matrix sample_trace "DOC" ∧
    ∃ graph', graph_from_trace_files sample_reversed = .ok graph' ∧
      graph_matrix graph' sample_reversed "DOC" = file_matrix sample_trace "DOC" := by
  have hgraphable : Graphable (file_items sample_trace) :=
    ⟨by decide +kernel, by decide +kernel, by decide +kernel, by decide +kernel⟩
  obtain ⟨graph, hgraph⟩ := graph_exists_iff.mpr hgraphable
  have hnone : SameEntries [] [] := ⟨[], .nil, .nil⟩
  have hreordered : Reordered sample_trace sample_reversed := by
    refine ⟨hnone, ⟨_, .swap _ _ _, ?_⟩, ⟨_, .refl _, ?_⟩, hnone, hnone, ?_⟩
    · exact .cons ⟨[], .nil, rfl⟩ (.cons ⟨[], .nil, rfl⟩ .nil)
    · exact .cons ⟨["h2", "h1"], .swap _ _ _, rfl⟩ .nil
    · exact ⟨rfl, rfl, rfl, rfl, rfl, rfl⟩
  exact ⟨graph, hgraph,
    matrix_paths_agree sample_trace sample_reversed graph "DOC" hgraph hreordered⟩

end Evidence.Trace
