/-
`graph/supersession.rs` and `source/lineage.rs` -- what the chain checks accept.

The two planes share their checks, so the acceptance lemmas are stated for any plane:
its nodes in uid order, the lookup `get` of a node of the plane, and the targets
`outs` of its `Supersedes` edges. The fork check accepts when no node is replaced
twice, and the cycle walk when every node has a lineage (`reject_cycles_ok_iff`); the
walk expands a node once, so its budget of one step more than there are edges is
enough. Together with the check of single edges this makes the plane a
`Succession.Plane`.
-/
import Mathlib.Algebra.Order.BigOperators.Group.List
import Mathlib.Algebra.Order.Ring.Nat
import Evidence.Lib.Succession
import Evidence.Corpus.Graph.Validation

set_option autoImplicit false

namespace Evidence.Corpus

open Check Climb Succession

/-! ## Lists without two members -/

/-- A list without repeats has at most one element when any two of its elements are
equal. -/
theorem length_le_one_iff_of_nodup {α : Type*} {l : List α} (hnodup : l.Nodup) :
    l.length ≤ 1 ↔ ∀ a ∈ l, ∀ b ∈ l, a = b := by
  match l with
  | [] => simp
  | [a] => simp
  | a :: b :: l =>
    have hne : a ≠ b := fun heq => (List.nodup_cons.mp hnodup).1 (heq ▸ List.mem_cons_self)
    constructor
    · intro hlen
      simp only [List.length_cons] at hlen
      omega
    · intro h
      exact absurd (h a List.mem_cons_self b (List.mem_cons_of_mem a List.mem_cons_self)) hne

theorem length_le_one_of_short {α : Type*} {l : List α}
    (h : ∀ first second rest, l = first :: second :: rest → False) : l.length ≤ 1 := by
  rcases l with _ | ⟨first, _ | ⟨second, rest⟩⟩
  · exact Nat.zero_le 1
  · exact Nat.le_refl 1
  · exact (h first second rest rfl).elim

/-! ## The checks of a plane -/

section Plane

variable {ε ν : Type} {key : ν → String} {outs : ν → List String} {get : String → Option ν}
  {nodes : List ν}

theorem targets_map (hget : ∀ {k v}, get k = some v ↔ v ∈ nodes ∧ key v = k) (k : String) :
    Chains.targets (nodes.map fun v => (key v, outs v)) k = ((get k).map outs).getD [] := by
  rw [Chains.targets, List.find?_map]
  cases hfind : nodes.find? ((fun link : String × List String => link.1 == k) ∘
      fun v => (key v, outs v)) with
  | none =>
    have hnone : get k = none := by
      refine Option.eq_none_iff_forall_ne_some.mpr fun v hv => ?_
      obtain ⟨hmem, hkey⟩ := hget.mp hv
      have hne := List.find?_eq_none.mp hfind v hmem
      simp only [Function.comp_apply, beq_iff_eq] at hne
      exact hne hkey
    rw [hnone]
    rfl
  | some v =>
    have hkey := List.find?_some hfind
    simp only [Function.comp_apply, beq_iff_eq] at hkey
    rw [hget.mpr ⟨List.mem_of_find?_eq_some hfind, hkey⟩]
    rfl

/-- **No node of the plane is replaced twice.** -/
theorem reject_forks_ok_iff {fork : String → String → String → ε} (hnodup : nodes.Nodup) :
    reject_forks fork (nodes.map fun v => (key v, outs v)) = .ok () ↔
      ∀ p ∈ nodes, ∀ v ∈ nodes, ∀ w ∈ nodes, key p ∈ outs v → key p ∈ outs w → v = w := by
  rw [reject_forks, forM_ok_iff, List.forall_mem_map]
  refine forall₂_congr fun p _ => ?_
  have hlen : (((nodes.map fun v => (key v, outs v)).filter
      fun link => key p ∈ link.2).map Prod.fst).length =
      (nodes.filter fun v => key p ∈ outs v).length := by
    rw [List.length_map, List.filter_map, List.length_map]
    rfl
  have hone := length_le_one_iff_of_nodup (hnodup.filter fun v => key p ∈ outs v)
  rw [← hlen] at hone
  simp only [List.mem_filter, decide_eq_true_eq, and_imp] at hone
  refine Iff.trans ?_ (hone.trans ⟨fun h v hv w hw hpv hpw => h v hv hpv w hw hpw,
    fun h v hv hpv w hw hpw => h v hv w hw hpv hpw⟩)
  split
  · next first second rest heq =>
    simp only [heq, List.length_cons, reduceCtorEq, false_iff]
    omega
  · next hshort => exact ⟨fun _ => length_le_one_of_short hshort, fun _ => rfl⟩

/-! ## The cycle walk -/

variable {cycle : String → ε} {done : List String}

/-- A key of the plane from which following predecessors ends. -/
def Grounded (get : String → Option ν) (outs : ν → List String) (k : String) : Prop :=
  ∃ vs, Lineage get (fun v => (outs v).head?) (some k) vs

/-- An accepted walk ends, and everything it passed is grounded. -/
theorem walk_chain_sound (hget : ∀ {k v}, get k = some v ↔ v ∈ nodes ∧ key v = k)
    (hsingle : ∀ v ∈ nodes, (outs v).length ≤ 1)
    (hresolve : ∀ v ∈ nodes, ∀ k ∈ outs v, (get k).isSome = true)
    (hdone : ∀ k ∈ done, Grounded get outs k) {fuel : ℕ} {o : Option String}
    {path path' : List String} (ho : ∀ k ∈ o, (get k).isSome = true)
    (h : walk_chain cycle (nodes.map fun v => (key v, outs v)) done fuel o.toList path =
      .ok path') :
    (∃ vs, Lineage get (fun v => (outs v).head?) o vs) ∧
      ∀ k ∈ path', k ∈ path ∨ Grounded get outs k := by
  induction fuel generalizing o path with
  | zero =>
    cases o with
    | none =>
      cases h
      exact ⟨⟨[], .root⟩, fun k hk => .inl hk⟩
    | some k => exact nomatch h
  | succ fuel ih =>
    cases o with
    | none =>
      cases h
      exact ⟨⟨[], .root⟩, fun k hk => .inl hk⟩
    | some k =>
      obtain ⟨v, hv⟩ := Option.isSome_iff_exists.mp (ho k rfl)
      have hmem := (hget.mp hv).1
      rw [Option.toList_some, walk_chain] at h
      split at h
      · exact nomatch h
      · split at h
        · next hkdone =>
          have hpath : path' = path := by
            cases fuel <;> exact (Except.ok.inj h).symm
          exact ⟨hdone k hkdone, fun j hj => .inl (hpath ▸ hj)⟩
        · have hnext : (Chains.targets (nodes.map fun v => (key v, outs v)) k).reverse ++ [] =
              ((outs v).head?).toList := by
            rw [targets_map hget, hv, List.append_nil]
            match houts : outs v, hsingle v hmem with
            | [], _ => rw [Option.map_some, houts]; rfl
            | [j], _ => rw [Option.map_some, houts]; rfl
          rw [hnext] at h
          obtain ⟨⟨vs, hvs⟩, hrest⟩ := ih
            (fun j hj => hresolve v hmem j (List.mem_of_mem_head? hj)) h
          have hk : Grounded get outs k := ⟨v :: vs, .step hv hvs⟩
          refine ⟨hk, fun j hj => ?_⟩
          rcases hrest j hj with hj | hj
          · rcases List.mem_append.mp hj with hj | hj
            · exact .inl hj
            · exact .inr (List.mem_singleton.mp hj ▸ hk)
          · exact .inr hj

theorem walk_chain_complete (hget : ∀ {k v}, get k = some v ↔ v ∈ nodes ∧ key v = k)
    (hsingle : ∀ v ∈ nodes, (outs v).length ≤ 1) {fuel : ℕ} {o : Option String} {vs : List ν}
    {path : List String} (h : Lineage get (fun v => (outs v).head?) o vs)
    (hfuel : vs.length ≤ fuel) (havoid : ∀ v ∈ vs, key v ∉ path) :
    ∃ path', walk_chain cycle (nodes.map fun v => (key v, outs v)) done fuel o.toList path =
      .ok path' := by
  have hkey : ∀ k v, get k = some v → key v = k := fun k v hv => (hget.mp hv).2
  induction h generalizing fuel path with
  | root =>
    refine ⟨path, ?_⟩
    cases fuel <;> rfl
  | @step k v vs hv hup ih =>
    obtain ⟨n, rfl⟩ : ∃ n, fuel = n + 1 :=
      ⟨fuel - 1, by simp only [List.length_cons] at hfuel; omega⟩
    have hk : k ∉ path := hkey k v hv ▸ havoid v List.mem_cons_self
    rw [Option.toList_some, walk_chain, if_neg hk]
    by_cases hkdone : k ∈ done
    · rw [if_pos hkdone]
      refine ⟨path, ?_⟩
      cases n <;> rfl
    · have hnext : (Chains.targets (nodes.map fun v => (key v, outs v)) k).reverse ++ [] =
          ((outs v).head?).toList := by
        rw [targets_map hget, hv, List.append_nil]
        match houts : outs v, hsingle v (hget.mp hv).1 with
        | [], _ => rw [Option.map_some, houts]; rfl
        | [j], _ => rw [Option.map_some, houts]; rfl
      rw [if_neg hkdone, hnext]
      refine ih (by simpa only [List.length_cons, Nat.add_le_add_iff_right] using hfuel) ?_
      -- a lineage meets no key twice
      have hnodup := (Lineage.step hv hup).nodup hkey
      rw [List.map_cons, List.nodup_cons] at hnodup
      intro w hw hpath
      rcases List.mem_append.mp hpath with hpath | hpath
      · exact havoid w (List.mem_cons_of_mem v hw) hpath
      · rw [List.mem_singleton, ← hkey k v hv] at hpath
        exact hnodup.1 (hpath ▸ List.mem_map_of_mem hw)

/-- Every node of a lineage but the last has an edge. -/
theorem length_lineage_le_outs {o : Option String} {vs : List ν}
    (h : Lineage get (fun v => (outs v).head?) o vs) :
    vs.length ≤ (vs.map fun v => (outs v).length).sum + 1 := by
  induction h with
  | root => exact Nat.zero_le _
  | @step k v vs _ hup ih =>
    rw [List.length_cons, List.map_cons, List.sum_cons]
    cases vs with
    | nil => exact Nat.le_add_left _ _
    | cons w ws =>
      obtain ⟨j, hj, -⟩ := hup.of_cons
      have hpos : 0 < (outs v).length := List.length_pos_of_mem (List.mem_of_mem_head? hj)
      omega

theorem length_lineage_le_edges (hget : ∀ {k v}, get k = some v ↔ v ∈ nodes ∧ key v = k)
    {o : Option String} {vs : List ν} (h : Lineage get (fun v => (outs v).head?) o vs) :
    vs.length ≤ (nodes.map fun v => (outs v).length).sum + 1 := by
  have hkey : ∀ k v, get k = some v → key v = k := fun k v hv => (hget.mp hv).2
  have hsub : vs ⊆ nodes := fun v hv => (hget.mp (h.get_key hkey v hv)).1
  obtain ⟨ws, hperm, hsublist⟩ := ((h.nodup hkey).of_map key).subperm hsub
  have hle := (hsublist.map fun v => (outs v).length).sum_le_sum fun _ _ => Nat.zero_le _
  have hlen := length_lineage_le_outs h
  rw [← (hperm.map fun v => (outs v).length).sum_eq] at hlen
  omega

/-- One turn of the loop of `reject_cycles`. -/
def visit (cycle : String → ε) (chains : Chains) (fuel : ℕ) (done : List String)
    (link : String × List String) : Except ε (List String) :=
  if link.1 ∈ done then .ok done
  else (done ++ ·) <$> walk_chain cycle chains done fuel [link.1] []

theorem visits_sound (hget : ∀ {k v}, get k = some v ↔ v ∈ nodes ∧ key v = k)
    (hsingle : ∀ v ∈ nodes, (outs v).length ≤ 1)
    (hresolve : ∀ v ∈ nodes, ∀ k ∈ outs v, (get k).isSome = true) {fuel : ℕ} {links : List ν}
    {done done' : List String} (hlinks : ∀ v ∈ links, v ∈ nodes)
    (hdone : ∀ k ∈ done, Grounded get outs k)
    (hrun : Runs (visit cycle (nodes.map fun v => (key v, outs v)) fuel) done
      (links.map fun v => (key v, outs v)) done') : ∀ v ∈ links, Grounded get outs (key v) := by
  induction links generalizing done with
  | nil => exact fun v hv => absurd hv List.not_mem_nil
  | cons v links ih =>
    have hv := hlinks v List.mem_cons_self
    have htail : ∀ w ∈ links, w ∈ nodes := fun w hw => hlinks w (List.mem_cons_of_mem v hw)
    cases hrun with
    | cons hstep hrest =>
      unfold visit at hstep
      split at hstep
      · next hmem =>
        cases hstep
        exact List.forall_mem_cons.mpr ⟨hdone _ hmem, ih htail hdone hrest⟩
      · obtain ⟨path, hpath, rfl⟩ := map_ok_iff.mp hstep
        have hstart : ∀ k ∈ some (key v), (get k).isSome = true := by
          intro k hk
          cases hk
          rw [hget.mpr ⟨hv, rfl⟩]
          rfl
        obtain ⟨hground, hpaths⟩ := walk_chain_sound hget hsingle hresolve hdone hstart hpath
        refine List.forall_mem_cons.mpr ⟨hground, ih htail ?_ hrest⟩
        intro k hk
        rcases List.mem_append.mp hk with hk | hk
        · exact hdone k hk
        · exact (hpaths k hk).resolve_left List.not_mem_nil

theorem visits_complete (hget : ∀ {k v}, get k = some v ↔ v ∈ nodes ∧ key v = k)
    (hsingle : ∀ v ∈ nodes, (outs v).length ≤ 1) {fuel : ℕ}
    (hfuel : (nodes.map fun v => (outs v).length).sum + 1 ≤ fuel) {links : List ν}
    {done : List String} (hground : ∀ v ∈ links, Grounded get outs (key v)) :
    ∃ done', (links.map fun v => (key v, outs v)).foldlM
      (visit cycle (nodes.map fun v => (key v, outs v)) fuel) done = .ok done' := by
  induction links generalizing done with
  | nil => exact ⟨done, rfl⟩
  | cons v links ih =>
    have htail : ∀ w ∈ links, Grounded get outs (key w) := fun w hw =>
      hground w (List.mem_cons_of_mem v hw)
    have hturn : ∃ done', visit cycle (nodes.map fun v => (key v, outs v)) fuel done
        (key v, outs v) = .ok done' := by
      unfold visit
      by_cases hmem : key v ∈ done
      · exact ⟨done, if_pos hmem⟩
      · obtain ⟨vs, hvs⟩ := hground v List.mem_cons_self
        obtain ⟨path, hpath⟩ : ∃ path, walk_chain cycle (nodes.map fun v => (key v, outs v)) done
            fuel (some (key v)).toList [] = .ok path :=
          walk_chain_complete hget hsingle hvs ((length_lineage_le_edges hget hvs).trans hfuel)
            fun _ _ => List.not_mem_nil
        refine ⟨done ++ path, ?_⟩
        rw [if_neg hmem]
        exact map_ok_iff.mpr ⟨path, hpath, rfl⟩
    obtain ⟨done', hdone'⟩ := hturn
    obtain ⟨done'', hrest⟩ := ih htail
    refine ⟨done'', ?_⟩
    rw [List.map_cons, List.foldlM_cons, bind_ok_iff]
    exact ⟨done', hdone', hrest⟩

/-- **The cycle check accepts exactly when following predecessors always ends.** -/
theorem reject_cycles_ok_iff (hget : ∀ {k v}, get k = some v ↔ v ∈ nodes ∧ key v = k)
    (hsingle : ∀ v ∈ nodes, (outs v).length ≤ 1)
    (hresolve : ∀ v ∈ nodes, ∀ k ∈ outs v, (get k).isSome = true) :
    reject_cycles cycle (nodes.map fun v => (key v, outs v)) = .ok () ↔
      ∀ v ∈ nodes, Grounded get outs (key v) := by
  have hedges : ((nodes.map fun v => (key v, outs v)).map fun link => link.2.length) =
      nodes.map fun v => (outs v).length := List.map_map
  unfold reject_cycles
  simp only [bind_ok_iff, and_true]
  constructor
  · rintro ⟨done, hloop⟩
    exact visits_sound hget hsingle hresolve (fun v hv => hv)
      (fun k hk => absurd hk List.not_mem_nil) (foldlM_ok_iff.mp hloop)
  · intro hground
    exact visits_complete hget hsingle (hedges ▸ le_rfl) hground

end Plane

/-! ## What the checks report -/

section Errors

variable {ε : Type} {chains : Chains} {error : ε}

theorem reject_forks_error {fork : String → String → String → ε}
    (h : reject_forks fork chains = .error error) :
    ∃ uid first second, error = fork uid first second := by
  obtain ⟨predecessor, -, hcheck⟩ := forM_error h
  split at hcheck
  · exact ⟨_, _, _, (Except.error.inj hcheck).symm⟩
  · exact nomatch hcheck

theorem walk_chain_error {cycle : String → ε} {done : List String} {fuel : ℕ}
    {frontier path : List String}
    (h : walk_chain cycle chains done fuel frontier path = .error error) :
    ∃ uid, error = cycle uid := by
  induction fuel generalizing frontier path with
  | zero =>
    cases frontier with
    | nil => exact nomatch h
    | cons current frontier => exact ⟨current, (Except.error.inj h).symm⟩
  | succ fuel ih =>
    cases frontier with
    | nil => exact nomatch h
    | cons current frontier =>
      rw [walk_chain] at h
      split at h
      · exact ⟨current, (Except.error.inj h).symm⟩
      · split at h
        · exact ih h
        · exact ih h

theorem reject_cycles_error {cycle : String → ε} (h : reject_cycles cycle chains = .error error) :
    ∃ uid, error = cycle uid := by
  have hloop : ∀ (fuel : ℕ) (links : Chains) (done : List String) (e : ε),
      links.foldlM (visit cycle chains fuel) done = .error e → ∃ uid, e = cycle uid := by
    intro fuel links
    induction links with
    | nil => exact fun done e hloop => (nomatch hloop)
    | cons link links ih =>
      intro done e hloop
      rw [List.foldlM_cons] at hloop
      cases hturn : visit cycle chains fuel done link with
      | ok done' => exact ih done' e (by rw [hturn] at hloop; exact hloop)
      | error e' =>
        rw [hturn] at hloop
        obtain rfl := Except.error.inj hloop
        unfold visit at hturn
        split at hturn
        · exact nomatch hturn
        · cases hwalk : walk_chain cycle chains done fuel [link.1] [] with
          | ok path => rw [hwalk] at hturn; exact nomatch hturn
          | error e'' =>
            rw [hwalk] at hturn
            obtain rfl := Except.error.inj hturn
            exact walk_chain_error hwalk
  unfold reject_cycles at h
  cases hfold : chains.foldlM
      (visit cycle chains ((chains.map fun link => link.2.length).sum + 1)) [] with
  | ok done => exact nomatch (congrArg (fun x => x >>= fun _ => Except.ok ()) hfold).symm.trans h
  | error e =>
    obtain rfl : e = error := Except.error.inj
      ((congrArg (fun x => x >>= fun _ => Except.ok ()) hfold).symm.trans h)
    exact hloop _ _ _ _ hfold

end Errors

/-! ## The planes of a graph -/

/-- A committed source revision, looked up by uid. -/
def CorpusGraph.revision (graph : CorpusGraph) (uid : String) : Option SourceRevisionNode :=
  (graph.get uid).bind Node.as_source_revision

/-- A committed review, looked up by uid. -/
def CorpusGraph.review (graph : CorpusGraph) (uid : String) : Option ReviewNode :=
  (graph.get uid).bind Node.as_review

theorem Node.as_source_revision_eq_some {node : Node} {revision : SourceRevisionNode} :
    node.as_source_revision = some revision ↔ node = .SourceRevision revision := by
  cases node <;> simp [as_source_revision]

theorem Node.as_review_eq_some {node : Node} {review : ReviewNode} :
    node.as_review = some review ↔ node = .Review review := by
  cases node <;> simp [as_review]

section Kind

variable {α : Type} {as_kind : Node → Option α} {of_kind : α → Node}
  (hkind : ∀ {node a}, as_kind node = some a ↔ node = of_kind a) (graph : CorpusGraph)
include hkind

theorem get_kind_iff {uid : String} {a : α} :
    (graph.get uid).bind as_kind = some a ↔
      a ∈ graph.nodes.values.filterMap as_kind ∧ (of_kind a).uid = uid := by
  rw [Option.bind_eq_some_iff, List.mem_filterMap]
  constructor
  · rintro ⟨node, hget, ha⟩
    obtain rfl := hkind.mp ha
    exact ⟨⟨_, Store.mem_values_of_get hget, ha⟩, Store.key_of_get hget⟩
  · rintro ⟨⟨node, hnode, ha⟩, rfl⟩
    obtain rfl := hkind.mp ha
    exact ⟨_, Store.mem_values.mp hnode, ha⟩

theorem nodup_kind : (graph.nodes.values.filterMap as_kind).Nodup :=
  graph.nodes.values_nodup.filterMap fun _ _ _ ha ha' =>
    (hkind.mp (Option.mem_def.mp ha)).trans (hkind.mp (Option.mem_def.mp ha')).symm

end Kind

theorem CorpusGraph.revision_iff {graph : CorpusGraph} {uid : String}
    {revision : SourceRevisionNode} :
    graph.revision uid = some revision ↔
      revision ∈ graph.source_revisions ∧ revision.uid = uid :=
  get_kind_iff Node.as_source_revision_eq_some graph

theorem CorpusGraph.review_iff {graph : CorpusGraph} {uid : String} {review : ReviewNode} :
    graph.review uid = some review ↔ review ∈ graph.reviews ∧ review.uid = uid :=
  get_kind_iff Node.as_review_eq_some graph

theorem CorpusGraph.source_revisions_nodup (graph : CorpusGraph) : graph.source_revisions.Nodup :=
  nodup_kind Node.as_source_revision_eq_some graph

theorem CorpusGraph.reviews_nodup (graph : CorpusGraph) : graph.reviews.Nodup :=
  nodup_kind Node.as_review_eq_some graph

theorem CorpusGraph.revision_inj {graph : CorpusGraph} {a b : SourceRevisionNode}
    (ha : a ∈ graph.source_revisions) (hb : b ∈ graph.source_revisions) (huid : a.uid = b.uid) :
    a = b :=
  Option.some.inj ((revision_iff.mpr ⟨ha, huid⟩).symm.trans (revision_iff.mpr ⟨hb, rfl⟩))

/-! ## Resolved edges -/

/-- Every `Supersedes` edge ends at a node of its owner's kind. -/
def SupersedesResolve (graph : CorpusGraph) : Prop :=
  ∀ node ∈ graph.nodes.values, ∀ target ∈ edge_targets .Supersedes node.edges,
    ∃ found, graph.get target = some found ∧ found.kind = node.kind

theorem edge_kinds_match_supersedes {a b : NodeKind}
    (h : edge_kinds_match a .Supersedes b = true) : b = a := by
  cases a <;> cases b
  all_goals first | rfl | exact nomatch h

/-- **Edge validation resolves the `Supersedes` edges.** -/
theorem SupersedesResolve.of_validate_edges {graph : CorpusGraph}
    (h : validate_edges graph = .ok ()) : SupersedesResolve graph := by
  intro node hnode target htarget
  have hedge := forM_ok_iff.mp (forM_ok_iff.mp h node hnode) _ (mem_edge_targets.mp htarget)
  unfold validate_edge at hedge
  cases hget : graph.get target with
  | none =>
    simp only [hget, failIf_ok_iff, not_not, reduceCtorEq, false_and, and_false] at hedge
  | some found =>
    simp only [hget, failIf_ok_iff, Bool.not_eq_true', Bool.not_eq_false] at hedge
    exact ⟨found, rfl, edge_kinds_match_supersedes hedge⟩

theorem SupersedesResolve.revision {graph : CorpusGraph} (h : SupersedesResolve graph)
    {revision : SourceRevisionNode} (hrevision : revision ∈ graph.source_revisions)
    {target : String} (htarget : target ∈ edge_targets .Supersedes revision.edges) :
    (graph.revision target).isSome = true := by
  have hnode := Store.mem_values_of_get (CorpusGraph.get_revision hrevision)
  obtain ⟨found, hget, hkind⟩ := h _ hnode target htarget
  cases found with
  | SourceRevision predecessor => simp only [CorpusGraph.revision, hget, Option.bind_some,
      Node.as_source_revision, Option.isSome_some]
  | Requirement | Test | Review => exact nomatch hkind

theorem SupersedesResolve.review {graph : CorpusGraph} (h : SupersedesResolve graph)
    {review : ReviewNode} (hreview : review ∈ graph.reviews) {target : String}
    (htarget : target ∈ edge_targets .Supersedes review.edges) :
    (graph.review target).isSome = true := by
  obtain ⟨node, hnode, has⟩ := List.mem_filterMap.mp hreview
  obtain rfl := Node.as_review_eq_some.mp has
  obtain ⟨found, hget, hkind⟩ := h _ hnode target htarget
  cases found with
  | Review predecessor => simp only [CorpusGraph.review, hget, Option.bind_some,
      Node.as_review, Option.isSome_some]
  | Requirement | Test | SourceRevision => exact nomatch hkind

end Evidence.Corpus
