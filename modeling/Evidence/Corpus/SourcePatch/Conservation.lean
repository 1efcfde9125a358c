/-
What an accepted patch conserves.

`remove_subtree` collects a node and its descendants (`mem_subtree_members`), so an
operation adds the uid it inserts, drops the uids it removes, and keeps the others.
Of a node that is kept, no operation but its own edits changes the body. Its parent
changes when that parent is removed and its children are promoted, and its ordinal
when its parent or a sibling is so removed; nothing else renumbers a node
(`Applies.kept`). A run composes the steps (`runs_kept`, `runs_uids`), and the digests
recomputed at the end are those that were stored (`apply_patch_conserves`).

A patch is applied to a working graph that is only validated after its last
operation, so `remove_subtree` may meet parent links that run in a circle or name a
node that is gone. Its loop ends all the same (`subtree_loop_ends`): a node has one
parent, so it is pushed once, and the pops are at most one more than the nodes.
-/
import Evidence.Corpus.SourcePatch.Preconditions
import Evidence.Lib.Pairing
import Evidence.Lib.Worklist

set_option autoImplicit false

namespace Evidence.Corpus

open Check Pairing Worklist

/-! ## Subtrees -/

/-- `uid` is `ancestor` or lies below it. -/
def Descends (graph : SourceGraph) : String → String → Prop :=
  Relation.ReflTransGen fun parent uid =>
    ∃ node, graph.get uid = some node ∧ node.parent_uid = some parent

/-- The children that a uid of the worklist pushes. -/
def child_uids (graph : SourceGraph) (uid : String) : List String :=
  ((children graph (some uid)).map SourceNode.uid).reverse

/-- The worklist of `remove_subtree` is the generic one. -/
theorem collect_subtree_eq (graph : SourceGraph) (fuel : ℕ) (pending members : List String) :
    collect_subtree graph fuel pending members = collect (child_uids graph) fuel pending members := by
  induction fuel generalizing pending members with
  | zero => cases pending <;> rfl
  | succ fuel ih =>
    cases pending with
    | nil => rfl
    | cons uid pending =>
      rw [collect_subtree, collect, ih, ih]
      rfl

theorem mem_child_uids {graph : SourceGraph} {parent uid : String} :
    uid ∈ child_uids graph parent ↔
      ∃ node, graph.get uid = some node ∧ node.parent_uid = some parent := by
  simp only [child_uids, List.mem_reverse, List.mem_map, children, List.mem_filter, beq_iff_eq]
  constructor
  · rintro ⟨node, ⟨hnode, hparent⟩, rfl⟩
    exact ⟨node, Store.mem_values.mp hnode, hparent⟩
  · rintro ⟨node, hget, hparent⟩
    exact ⟨node, ⟨Store.mem_values_of_get hget, hparent⟩, Store.key_of_get hget⟩

/-- The uids that some node names as its parent. -/
def parent_uids (graph : SourceGraph) : List String :=
  (graph.values.filterMap SourceNode.parent_uid).dedup

theorem parent_uids_nodup (graph : SourceGraph) : (parent_uids graph).Nodup :=
  List.nodup_dedup _

theorem mem_parent_uids_of_child {graph : SourceGraph} {parent : String}
    (hne : child_uids graph parent ≠ []) : parent ∈ parent_uids graph := by
  obtain ⟨uid, huid⟩ := List.exists_mem_of_ne_nil _ hne
  obtain ⟨node, hget, hparent⟩ := mem_child_uids.mp huid
  exact List.mem_dedup.mpr
    (List.mem_filterMap.mpr ⟨node, Store.mem_values_of_get hget, hparent⟩)

theorem pushed_le_size (graph : SourceGraph) :
    ((parent_uids graph).map fun parent => (child_uids graph parent).length).sum ≤ graph.size := by
  have hsum := sum_length_class_le SourceNode.parent_uid
    ((parent_uids_nodup graph).map (Option.some_injective String)) graph.values
  rw [List.map_map] at hsum
  have hlengths : (fun parent => (child_uids graph parent).length) =
      (fun k => (graph.values.filter fun node => decide (node.parent_uid = k)).length) ∘ some := by
    funext parent
    simp only [child_uids, List.length_reverse, List.length_map, children, Function.comp_apply,
      beq_eq_decide]
  rw [hlengths, ← Store.length_values]
  exact hsum

/-- **The worklist collects a node and its descendants.** -/
theorem mem_subtree_members {graph : SourceGraph} {target_uid uid : String} :
    uid ∈ subtree_members graph target_uid ↔ Descends graph target_uid uid := by
  have hfuel := pushed_le_size graph
  rw [subtree_members, collect_subtree_eq, mem_collect_iff (fun _ => mem_parent_uids_of_child)
    (parent_uids_nodup graph) (by omega)]
  simp only [mem_child_uids]
  rfl

/-! ## Operations and what they touch -/

namespace PatchOperation

def Removes (graph : SourceGraph) (op : PatchOperation) (uid : String) : Prop :=
  match op with
  | Remove _ target_uid _ .ReparentChildren => uid = target_uid
  | Remove _ target_uid _ .RemoveSubtree => Descends graph target_uid uid
  | _ => False

def inserts : PatchOperation → Option String
  | Insert _ _ node => some node.uid
  | _ => none

def edits : PatchOperation → Option String
  | ReplaceContent _ target_uid .. => some target_uid
  | Reclassify _ target_uid .. => some target_uid
  | Reparent _ target_uid .. => some target_uid
  | _ => none

def promotes : PatchOperation → Option String
  | Remove _ target_uid _ .ReparentChildren => some target_uid
  | _ => none

theorem mem_removed_iff {graph : SourceGraph} {op : PatchOperation} {uid : String} :
    uid ∈ op.removed graph ↔ op.Removes graph uid := by
  cases op with
  | Remove ordinal target_uid expected_digest child_disposition =>
    cases child_disposition with
    | ReparentChildren => exact List.mem_singleton
    | RemoveSubtree => exact mem_subtree_members
  | ReplaceContent | Reclassify | Reparent | Insert =>
    exact ⟨fun h => (nomatch h), fun h => h.elim⟩

end PatchOperation

theorem place_siblings_kept (parent : Option String) (promoted : List String)
    (entries : List (String × ℕ)) {graph : SourceGraph} {uid : String} {node : SourceNode}
    (hget : graph.get uid = some node) :
    ∃ node', (entries.foldl (place_sibling parent promoted) graph).get uid = some node' ∧
      node'.body = node.body ∧ (node'.parent_uid ≠ node.parent_uid → uid ∈ promoted) ∧
      (node'.ordinal ≠ node.ordinal → uid ∈ entries.map Prod.fst) := by
  induction entries generalizing graph node with
  | nil => exact ⟨node, hget, rfl, fun hne => absurd rfl hne, fun hne => absurd rfl hne⟩
  | cons entry entries ih =>
    have hstep : ∃ next, (place_sibling parent promoted graph entry).get uid = some next ∧
        next.body = node.body ∧ (next.parent_uid ≠ node.parent_uid → uid ∈ promoted) ∧
        (next.ordinal ≠ node.ordinal → entry.1 = uid) := by
      by_cases huid : entry.1 = uid
      · subst huid
        refine ⟨{ node with
            ordinal := UInt32.ofNat entry.2
            parent_uid := if entry.1 ∈ promoted then parent else node.parent_uid }, ?_, rfl, ?_,
          fun _ => rfl⟩
        · simp only [place_sibling, SourceGraph.node_mut, hget, Option.getD_some, Store.get_modify,
            if_true, Option.map_some]
        · intro hne
          by_contra hnot
          exact hne (if_neg hnot)
      · refine ⟨node, ?_, rfl, fun hne => absurd rfl hne, fun hne => absurd rfl hne⟩
        rw [place_sibling, SourceGraph.node_mut]
        cases graph.get entry.1 with
        | none => exact hget
        | some other =>
          rw [Option.getD_some, Store.get_modify, if_neg huid]
          exact hget
    obtain ⟨next, hnext, hbody, hparent, hordinal⟩ := hstep
    obtain ⟨node', hget', hbody', hparent', hordinal'⟩ := ih hnext
    refine ⟨node', hget', hbody'.trans hbody, fun hne => ?_, fun hne => ?_⟩
    · by_cases hsame : next.parent_uid = node.parent_uid
      · exact hparent' (hsame ▸ hne)
      · exact hparent hsame
    · rw [List.map_cons, List.mem_cons]
      by_cases hsame : next.ordinal = node.ordinal
      · exact .inr (hordinal' (hsame ▸ hne))
      · exact .inl (hordinal hsame).symm

/-- **Promoting the children moves them, and renumbers them and the siblings.** -/
theorem reparent_children_kept {graph : SourceGraph} {target_uid uid : String}
    {removed node : SourceNode} (hremoved : graph.get target_uid = some removed)
    (hget : graph.get uid = some node) (hne : uid ≠ target_uid) :
    ∃ node', (reparent_children graph target_uid).get uid = some node' ∧ node'.body = node.body ∧
      (node'.parent_uid ≠ node.parent_uid → node.parent_uid = some target_uid) ∧
      (node'.ordinal ≠ node.ordinal →
        node.parent_uid = some target_uid ∨ node.parent_uid = removed.parent_uid) := by
  have hrest : (graph.remove target_uid).get uid = some node := by
    rw [Store.get_remove, if_neg (Ne.symm hne), hget]
  have hlisted : ∀ p : SourceNode → Bool, uid ∈ ordered_uids (graph.remove target_uid) p →
      p node = true := by
    intro p hmem
    obtain ⟨m, hm, huid⟩ := List.mem_map.mp hmem
    obtain ⟨hm, hp⟩ := List.mem_filter.mp (Sorting.mem_sortBy.mp hm)
    rw [Store.mem_values, huid, hrest] at hm
    cases hm
    exact hp
  simp only [reparent_children, SourceGraph.remove_node, hremoved]
  obtain ⟨node', hget', hbody, hparent, hordinal⟩ := place_siblings_kept removed.parent_uid _ _ hrest
  refine ⟨node', hget', hbody, fun hchange => ?_, fun hchange => ?_⟩
  · exact beq_iff_eq.mp (hlisted _ (hparent hchange))
  · have hmem := hordinal hchange
    rw [List.zipIdx_map_fst, List.mem_append, List.mem_append] at hmem
    rcases hmem with (hmem | hmem) | hmem
    · exact .inr (beq_iff_eq.mp (Bool.and_eq_true_iff.mp (hlisted _ hmem)).1)
    · exact .inl (beq_iff_eq.mp (hlisted _ hmem))
    · exact .inr (beq_iff_eq.mp (Bool.and_eq_true_iff.mp (hlisted _ hmem)).1)

/-! ## One operation -/

section Steps

variable [Sha256]

/-- **An operation adds the uid it inserts and drops the uids it removes.** -/
theorem Applies.uids {patch : SourcePatchRecord} {graph graph' : SourceGraph} {op : PatchOperation}
    (h : Applies patch graph op graph') (uid : String) :
    (graph'.get uid).isSome = true ↔
      op.inserts = some uid ∨ ((graph.get uid).isSome = true ∧ ¬ op.Removes graph uid) := by
  have hsome : ∀ g : SourceGraph, (g.body uid).isSome = (g.get uid).isSome := fun g =>
    Option.isSome_map
  rw [← PatchOperation.mem_removed_iff, ← hsome graph', ← hsome graph, h.body_after]
  cases op with
  | Insert ordinal expected_parent_uid node =>
    simp only [Corpus.body_after, PatchOperation.inserts, PatchOperation.removed, List.not_mem_nil,
      not_false_eq_true, and_true, Option.some.injEq]
    split
    · next heq => exact ⟨fun _ => .inl heq, fun _ => rfl⟩
    · next hne => exact ⟨.inr, fun hor => hor.resolve_left hne⟩
  | ReplaceContent | Reclassify | Reparent | Remove =>
    simp only [Corpus.body_after, PatchOperation.inserts, reduceCtorEq, false_or]
    split
    · next hmem => exact ⟨fun hf => absurd hf Bool.false_ne_true, fun hand => absurd hmem hand.2⟩
    · next hmem =>
      rw [and_iff_left hmem]
      split
      · rw [Option.isSome_map]
      · rfl

/-- What an operation that does not edit a node can change of it: its parent, when
that is removed and its children are promoted, and its ordinal, when its parent or a
sibling is so removed. -/
structure KeptBy (graph : SourceGraph) (op : PatchOperation) (node node' : SourceNode) : Prop where
  body : node'.body = node.body
  parent : node'.parent_uid ≠ node.parent_uid →
    ∃ target, op.promotes = some target ∧ node.parent_uid = some target
  ordinal : node'.ordinal ≠ node.ordinal →
    ∃ target removed, op.promotes = some target ∧ graph.get target = some removed ∧
      (node.parent_uid = some target ∨ node.parent_uid = removed.parent_uid)

omit [Sha256] in
theorem KeptBy.same (graph : SourceGraph) (op : PatchOperation) (node : SourceNode) :
    KeptBy graph op node node :=
  ⟨rfl, fun hne => absurd rfl hne, fun hne => absurd rfl hne⟩

/-- **A node that is neither removed nor edited is kept.** -/
theorem Applies.kept {patch : SourcePatchRecord} {graph graph' : SourceGraph} {op : PatchOperation}
    (h : Applies patch graph op graph') {uid : String} {node : SourceNode}
    (hget : graph.get uid = some node) (hremoved : ¬ op.Removes graph uid)
    (hedits : op.edits ≠ some uid) :
    ∃ node', graph'.get uid = some node' ∧ KeptBy graph op node node' := by
  cases h with
  | replace_content | reclassify | reparent =>
    refine ⟨node, ?_, .same graph _ node⟩
    rw [Store.get_modify, if_neg fun heq => hedits (congrArg some heq), hget]
  | insert hparent hfresh hfree =>
    refine ⟨node, ?_, .same graph _ node⟩
    rw [Store.get_put, if_neg ?_, hget]
    intro heq
    have hnone : graph.get uid = none := by
      rw [← heq]
      exact hfresh
    rw [hget] at hnone
    cases hnone
  | remove_reparent hfound hdigest =>
    obtain ⟨node', hget', hbody, hparent, hordinal⟩ := reparent_children_kept hfound hget hremoved
    exact ⟨node', hget', hbody, fun hne => ⟨_, rfl, hparent hne⟩,
      fun hne => ⟨_, _, rfl, hfound, hordinal hne⟩⟩
  | remove_subtree hfound hdigest =>
    refine ⟨node, ?_, .same graph _ node⟩
    rw [remove_subtree_get, if_neg fun hmem => hremoved (mem_subtree_members.mp hmem), hget]

/-! ## Runs -/

def StepOf (patch : SourcePatchRecord) (graph : SourceGraph) (operations : List PatchOperation)
    (op : PatchOperation) (working : SourceGraph) : Prop :=
  ∃ before after, operations = before ++ op :: after ∧
    Runs (apply_operation patch) graph before working

theorem StepOf.head (patch : SourcePatchRecord) (graph : SourceGraph) (op : PatchOperation)
    (operations : List PatchOperation) : StepOf patch graph (op :: operations) op graph :=
  ⟨[], operations, rfl, .nil graph⟩

theorem StepOf.tail {patch : SourcePatchRecord} {graph next : SourceGraph} {op : PatchOperation}
    {operations : List PatchOperation} (hstep : apply_operation patch graph op = .ok next)
    {other : PatchOperation} {working : SourceGraph}
    (h : StepOf patch next operations other working) :
    StepOf patch graph (op :: operations) other working := by
  obtain ⟨before, after, rfl, hrun⟩ := h
  exact ⟨op :: before, after, rfl, .cons hstep hrun⟩

theorem StepOf.of_cons {patch : SourcePatchRecord} {graph next : SourceGraph}
    {op : PatchOperation} {operations : List PatchOperation}
    (hstep : apply_operation patch graph op = .ok next) {other : PatchOperation}
    {working : SourceGraph} (h : StepOf patch graph (op :: operations) other working) :
    (other = op ∧ working = graph) ∨ StepOf patch next operations other working := by
  obtain ⟨before, after, heq, hrun⟩ := h
  cases before with
  | nil =>
    cases hrun
    exact .inl ⟨(List.cons.inj heq).1.symm, rfl⟩
  | cons first before =>
    obtain ⟨rfl, rfl⟩ := List.cons.inj heq
    cases hrun with
    | cons hfirst hrest =>
      rw [hstep] at hfirst
      cases hfirst
      exact .inr ⟨before, after, rfl, hrest⟩

def RemovedDuring (patch : SourcePatchRecord) (graph : SourceGraph)
    (operations : List PatchOperation) (uid : String) : Prop :=
  ∃ op working, StepOf patch graph operations op working ∧ op.Removes working uid

theorem removedDuring_cons {patch : SourcePatchRecord} {graph next : SourceGraph}
    {op : PatchOperation} {operations : List PatchOperation}
    (hstep : apply_operation patch graph op = .ok next) {uid : String} :
    RemovedDuring patch graph (op :: operations) uid ↔
      op.Removes graph uid ∨ RemovedDuring patch next operations uid := by
  constructor
  · rintro ⟨other, working, hof, hremoves⟩
    rcases hof.of_cons hstep with ⟨rfl, rfl⟩ | hof
    · exact .inl hremoves
    · exact .inr ⟨other, working, hof, hremoves⟩
  · rintro (hremoves | ⟨other, working, hof, hremoves⟩)
    · exact ⟨op, graph, .head patch graph op operations, hremoves⟩
    · exact ⟨other, working, hof.tail hstep, hremoves⟩

/-- Some operation of the run inserts `uid`, and none after it removes it. -/
def InsertedForGood (patch : SourcePatchRecord) (graph : SourceGraph)
    (operations : List PatchOperation) (uid : String) : Prop :=
  ∃ before op after working, operations = before ++ op :: after ∧ op.inserts = some uid ∧
    Runs (apply_operation patch) graph (before ++ [op]) working ∧
    ¬ RemovedDuring patch working after uid

theorem insertedForGood_cons {patch : SourcePatchRecord} {graph next : SourceGraph}
    {op : PatchOperation} {operations : List PatchOperation}
    (hstep : apply_operation patch graph op = .ok next) {uid : String} :
    InsertedForGood patch graph (op :: operations) uid ↔
      (op.inserts = some uid ∧ ¬ RemovedDuring patch next operations uid) ∨
        InsertedForGood patch next operations uid := by
  constructor
  · rintro ⟨before, other, after, working, heq, hinserts, hrun, hkept⟩
    cases before with
    | nil =>
      obtain ⟨rfl, rfl⟩ := List.cons.inj heq
      have hsame := hrun.unique (.single hstep)
      subst hsame
      exact .inl ⟨hinserts, hkept⟩
    | cons first before =>
      obtain ⟨rfl, rfl⟩ := List.cons.inj heq
      cases hrun with
      | cons hfirst hrest =>
        rw [hstep] at hfirst
        cases hfirst
        exact .inr ⟨before, other, after, working, rfl, hinserts, hrest, hkept⟩
  · rintro (⟨hinserts, hkept⟩ | ⟨before, other, after, working, rfl, hinserts, hrun, hkept⟩)
    · exact ⟨[], op, operations, next, rfl, hinserts, .single hstep, hkept⟩
    · exact ⟨op :: before, other, after, working, rfl, hinserts, .cons hstep hrun, hkept⟩

/-- **The uids a run leaves**: those it finds and does not remove, and those it inserts
and does not remove again. -/
theorem runs_uids {patch : SourcePatchRecord} {graph final : SourceGraph}
    {operations : List PatchOperation}
    (hrun : Runs (apply_operation patch) graph operations final) (uid : String) :
    (final.get uid).isSome = true ↔
      ((graph.get uid).isSome = true ∧ ¬ RemovedDuring patch graph operations uid) ∨
        InsertedForGood patch graph operations uid := by
  induction hrun with
  | nil graph =>
    have hnone : ¬ RemovedDuring patch graph [] uid := by
      rintro ⟨_, _, ⟨before, after, heq, -⟩, -⟩
      exact List.append_ne_nil_of_right_ne_nil before (List.cons_ne_nil _ after) heq.symm
    have hnone' : ¬ InsertedForGood patch graph [] uid := by
      rintro ⟨before, op, after, _, heq, -⟩
      exact List.append_ne_nil_of_right_ne_nil before (List.cons_ne_nil op after) heq.symm
    rw [or_iff_left hnone', and_iff_left hnone]
  | cons hstep _ ih =>
    rw [ih, (apply_operation_ok_iff.mp hstep).uids, removedDuring_cons hstep,
      insertedForGood_cons hstep]
    tauto

/-- **What a run keeps of a node** that it neither removes nor edits: the body; the
parent, unless that parent is removed and its children are promoted; and the ordinal,
unless the parent or a sibling is so removed. -/
theorem runs_kept {patch : SourcePatchRecord} {graph final : SourceGraph}
    {operations : List PatchOperation}
    (hrun : Runs (apply_operation patch) graph operations final) {uid : String} {node : SourceNode}
    (hget : graph.get uid = some node) (hremoved : ¬ RemovedDuring patch graph operations uid)
    (hedits : ∀ op ∈ operations, op.edits ≠ some uid) :
    ∃ node', final.get uid = some node' ∧ node'.body = node.body ∧
      (node'.parent_uid ≠ node.parent_uid →
        ∃ op working target, StepOf patch graph operations op working ∧
          op.promotes = some target ∧ node.parent_uid = some target) ∧
      (node'.ordinal ≠ node.ordinal →
        ∃ op working target removed found, StepOf patch graph operations op working ∧
          op.promotes = some target ∧ working.get target = some removed ∧
          working.get uid = some found ∧
          (found.parent_uid = some target ∨ found.parent_uid = removed.parent_uid)) := by
  induction hrun generalizing node with
  | nil graph => exact ⟨node, hget, rfl, fun hne => absurd rfl hne, fun hne => absurd rfl hne⟩
  | @cons graph next final op operations hstep hrest ih =>
    rw [removedDuring_cons hstep, not_or] at hremoved
    obtain ⟨hop, hedits⟩ := List.forall_mem_cons.mp hedits
    obtain ⟨middle, hmiddle, hkept⟩ :=
      (apply_operation_ok_iff.mp hstep).kept hget hremoved.1 hop
    obtain ⟨node', hget', hbody, hparent, hordinal⟩ := ih hmiddle hremoved.2 hedits
    refine ⟨node', hget', hbody.trans hkept.body, fun hne => ?_, fun hne => ?_⟩
    · by_cases hsame : middle.parent_uid = node.parent_uid
      · obtain ⟨other, working, target, hof, hpromotes, htarget⟩ := hparent (hsame ▸ hne)
        exact ⟨other, working, target, hof.tail hstep, hpromotes, hsame ▸ htarget⟩
      · obtain ⟨target, hpromotes, htarget⟩ := hkept.parent hsame
        exact ⟨op, graph, target, .head patch graph op operations, hpromotes, htarget⟩
    · by_cases hsame : middle.ordinal = node.ordinal
      · obtain ⟨other, working, target, removed, found, hof, hrest⟩ := hordinal (hsame ▸ hne)
        exact ⟨other, working, target, removed, found, hof.tail hstep, hrest⟩
      · obtain ⟨target, removed, hpromotes, hfound, hplace⟩ := hkept.ordinal hsame
        exact ⟨op, graph, target, removed, node, .head patch graph op operations, hpromotes,
          hfound, hget, hplace⟩

/-- **Conservation and frame of an accepted patch.** The uids of the result are those of
the graph that no operation removes, and those an operation inserts and none after it
removes. A node of the graph that is neither removed nor edited keeps its kind, label,
text, locator, revision and content digest; its parent changes only if that parent is
removed and its children are promoted, its ordinal only if its parent or a sibling is
so removed. -/
theorem apply_patch_conserves [F64Display] {graph : SourceGraph} {patch : SourcePatchRecord}
    {bindings : PatchBindings} {media_type : String} {application : PatchApplication}
    (hok : apply_patch graph patch bindings media_type = .ok application) :
    (∀ uid, (application.graph.get uid).isSome = true ↔
      ((graph.get uid).isSome = true ∧ ¬ RemovedDuring patch graph patch.operations uid) ∨
        InsertedForGood patch graph patch.operations uid) ∧
    ∀ uid node, graph.get uid = some node → ¬ RemovedDuring patch graph patch.operations uid →
      (∀ op ∈ patch.operations, op.edits ≠ some uid) →
      ∃ node', application.graph.get uid = some node' ∧
        node'.kind = node.kind ∧ node'.label = node.label ∧
        node'.canonical_text = node.canonical_text ∧ node'.locator = node.locator ∧
        node'.source_revision_uid = node.source_revision_uid ∧
        node'.content_sha256 = node.content_sha256 ∧
        (node'.parent_uid ≠ node.parent_uid →
          ∃ op working target, StepOf patch graph patch.operations op working ∧
            op.promotes = some target ∧ node.parent_uid = some target) ∧
        (node'.ordinal ≠ node.ordinal →
          ∃ op working target removed found, StepOf patch graph patch.operations op working ∧
            op.promotes = some target ∧ working.get target = some removed ∧
            working.get uid = some found ∧
            (found.parent_uid = some target ∨ found.parent_uid = removed.parent_uid)) := by
  obtain ⟨hforest, -, -, -, final, hrun, -, rfl⟩ := apply_patch_ok_iff.mp hok
  dsimp only
  refine ⟨fun uid => ?_, fun uid node hget hremoved hedits => ?_⟩
  · rw [get_recompute, Option.isSome_map]
    exact runs_uids hrun uid
  · obtain ⟨node', hget', hbody, hparent, hordinal⟩ := runs_kept hrun hget hremoved hedits
    have hkind : node'.kind = node.kind := (congrArg SourceNode.kind hbody :)
    have htext : node'.canonical_text = node.canonical_text :=
      (congrArg SourceNode.canonical_text hbody :)
    refine ⟨restamp final node', ?_, hkind, (congrArg SourceNode.label hbody :), htext,
      (congrArg SourceNode.locator hbody :), (congrArg SourceNode.source_revision_uid hbody :), ?_,
      hparent, hordinal⟩
    · rw [get_recompute, hget', Option.map_some]
    · -- the digest recomputed from the same kind and text is the one that was stored
      calc content_digest node'.kind node'.canonical_text
          = content_digest node.kind node.canonical_text := by rw [hkind, htext]
        _ = node.content_sha256 := hforest.content node (Store.mem_values_of_get hget)

end Steps

/-! ## A patch that removes a node and inserts it again -/

section Witness

attribute [local instance] fips180 F64.exact_display canonical_formats

/-- The paragraph that takes the place of the removed one, under its uid. -/
def replacement : InsertedNodeSpec where
  uid := "snode_00000000-0000-4000-8000-000000000001"
  kind := .Paragraph
  ordinal := 0
  label := none
  canonical_text := "New."
  locator := .Html "https://example.org/a" none none [] []

/-- The one paragraph is removed, and another is inserted under the same uid. -/
def remove_then_insert : SourcePatchRecord :=
  patch_record "patch_00000000-0000-4000-8000-000000000001" "PATCH-1"
    "src_00000000-0000-4000-8000-000000000001" one_paragraph
    [.Remove 1 "snode_00000000-0000-4000-8000-000000000001" (content_digest .Paragraph "Old.")
        .ReparentChildren,
      .Insert 2 none replacement]

private theorem remove_then_insert_parsed : remove_then_insert.Parsed := by
  refine patch_record_parsed (by decide +kernel) (by decide +kernel) (by decide +kernel)
    (by decide +kernel) (List.cons_ne_nil _ _) ?_ (by decide) (by decide) rfl
  have huid : validate_snode_uid "snode_00000000-0000-4000-8000-000000000001" = .ok () := by
    decide +kernel
  intro operation hop
  rcases List.mem_pair.mp hop with rfl | rfl
  · exact huid
  · exact huid

private theorem one_paragraph_removed :
    reparent_children one_paragraph "snode_00000000-0000-4000-8000-000000000001" = Store.empty := by
  refine Store.ext fun uid => ?_
  rw [Store.get_empty, ← SourceGraph.body_eq_none, reparent_children_body]
  split
  · rfl
  · next hne =>
    rw [SourceGraph.body, one_paragraph, Store.get_put,
      if_neg (show paragraph.uid ≠ uid from hne), Store.get_empty]
    rfl

/-- The paragraph as it is inserted again. -/
def reinserted : SourceNode :=
  committed_root "snode_00000000-0000-4000-8000-000000000001"
    "src_00000000-0000-4000-8000-000000000001" .Paragraph 0 none "New."

private theorem reinserted_forest :
    Forest "text/html" ((Store.empty : SourceGraph).put reinserted) := by
  refine forest_of_committed_roots (fun node hnode => ?_) ?_
  · exact ⟨_, _, _, _, _, _, Store.mem_values_singleton.mp hnode⟩
  · rw [Store.values_singleton]
    exact List.Perm.refl [0]

private theorem remove_then_insert_applied : ∃ application,
    apply_patch one_paragraph remove_then_insert ⟨.of_bytes [], .of_bytes []⟩ "text/html" =
        .ok application ∧
      (application.graph.get "snode_00000000-0000-4000-8000-000000000001").isSome = true := by
  have hremove : Applies remove_then_insert one_paragraph
      (.Remove 1 "snode_00000000-0000-4000-8000-000000000001" (content_digest .Paragraph "Old.")
        .ReparentChildren) Store.empty := by
    rw [← one_paragraph_removed]
    exact .remove_reparent (Store.mem_values.mp (Store.mem_values_singleton.mpr rfl)) rfl
  have hinsert : Applies remove_then_insert Store.empty (.Insert 2 none replacement)
      (Store.empty.put reinserted) := by
    refine .insert (fun parent hparent => nomatch hparent) (Store.get_empty _) ?_
    exact fun node hnode => absurd hnode (Store.not_mem_values_empty node)
  have hsame : recompute_node_digests ((Store.empty : SourceGraph).put reinserted) =
      Store.empty.put reinserted := by
    refine Store.ext fun key => ?_
    rw [get_recompute, Store.get_put]
    split
    · rfl
    · rw [Store.get_empty]
      rfl
  have hget : ((Store.empty : SourceGraph).put reinserted).get
      "snode_00000000-0000-4000-8000-000000000001" = some reinserted :=
    Store.mem_values.mp (Store.mem_values_singleton.mpr rfl)
  refine ⟨_, apply_patch_ok_iff.mpr ⟨one_paragraph_forest, rfl, rfl, rfl, _,
    .cons (apply_operation_ok_iff.mpr hremove) (.single (apply_operation_ok_iff.mpr hinsert)),
    ?_, rfl⟩, ?_⟩
  · rw [hsame]
    exact reinserted_forest
  · dsimp only
    rw [hsame, hget]
    rfl

/-- The rule at this patch. -/
theorem apply_patch_conserves_remove_then_insert : ∃ application,
    apply_patch one_paragraph remove_then_insert ⟨.of_bytes [], .of_bytes []⟩ "text/html" =
        .ok application ∧
      ∀ uid, (application.graph.get uid).isSome = true ↔
        ((one_paragraph.get uid).isSome = true ∧
          ¬ RemovedDuring remove_then_insert one_paragraph remove_then_insert.operations uid) ∨
        InsertedForGood remove_then_insert one_paragraph remove_then_insert.operations uid :=
  remove_then_insert_applied.elim fun application h =>
    ⟨application, h.1, (apply_patch_conserves h.1).1⟩

/-- **A removed uid can be in the result**: a later operation of the patch inserts it
again. -/
theorem apply_patch_reinserts_removed :
    ¬ ∀ (graph : SourceGraph) (patch : SourcePatchRecord) (bindings : PatchBindings)
        (media_type : String) (application : PatchApplication),
      patch.Parsed → apply_patch graph patch bindings media_type = .ok application →
      ∀ uid, (application.graph.get uid).isSome = true ↔
        ((graph.get uid).isSome = true ∨ ∃ op ∈ patch.operations, op.inserts = some uid) ∧
          ¬ RemovedDuring patch graph patch.operations uid := by
  intro hclaim
  obtain ⟨application, hok, hpresent⟩ := remove_then_insert_applied
  refine ((hclaim _ _ _ _ _ remove_then_insert_parsed hok _).mp hpresent).2 ?_
  exact ⟨_, one_paragraph, .head remove_then_insert one_paragraph _ _, rfl⟩

end Witness

/-! ## The cascade on any graph -/

/-- **The loop of `remove_subtree` ends**, with its members and within one round more
than the graph has nodes. Nothing is asked of the parent links. -/
theorem subtree_loop_ends (graph : SourceGraph) (target_uid : String) :
    ∃ rounds ≤ graph.size + 1,
      Ends (child_uids graph) [target_uid] [] (subtree_members graph target_uid) rounds := by
  have hpushed := pushed_le_size graph
  have hfuel : [target_uid].length + unpushed (child_uids graph) (parent_uids graph) [] ≤
      graph.size + 1 := by
    rw [unpushed_nil, List.length_singleton]
    omega
  rw [subtree_members, collect_subtree_eq]
  exact collect_ends (fun _ => mem_parent_uids_of_child) (parent_uids_nodup graph) hfuel

theorem remove_subtree_descends {graph : SourceGraph} {target_uid uid : String}
    (h : Descends graph target_uid uid) : (remove_subtree graph target_uid).get uid = none := by
  rw [remove_subtree_get, if_pos (mem_subtree_members.mpr h)]

theorem remove_subtree_frame {graph : SourceGraph} {target_uid uid : String}
    (h : ¬ Descends graph target_uid uid) :
    (remove_subtree graph target_uid).get uid = graph.get uid := by
  rw [remove_subtree_get, if_neg fun hmem => h (mem_subtree_members.mp hmem)]

/-- **`remove_subtree` ends and removes exactly the subtree.** On any graph and for any
uid the loop ends with the members that are removed, and a node goes if and only if it
is the target or descends from it through parent links. -/
theorem remove_subtree_exact (graph : SourceGraph) (target_uid : String) :
    (∃ members rounds, Ends (child_uids graph) [target_uid] [] members rounds ∧
      rounds ≤ graph.size + 1 ∧
      remove_subtree graph target_uid =
        members.foldl (fun graph uid => (graph.remove_node uid).2) graph) ∧
    ∀ uid,
      (Descends graph target_uid uid → (remove_subtree graph target_uid).get uid = none) ∧
      (¬ Descends graph target_uid uid →
        (remove_subtree graph target_uid).get uid = graph.get uid) := by
  obtain ⟨rounds, hrounds, hends⟩ := subtree_loop_ends graph target_uid
  refine ⟨⟨subtree_members graph target_uid, rounds, hends, hrounds, ?_⟩, fun uid => ?_⟩
  · rw [remove_subtree]
  · exact ⟨remove_subtree_descends, remove_subtree_frame⟩

end Evidence.Corpus
