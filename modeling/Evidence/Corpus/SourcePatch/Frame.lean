/-
What one patch operation can do to the working graph.

`Applies` is the operations as a relation: which preconditions each has checked,
and which graph it leaves (`apply_operation_ok_iff`). A result about patches is
derived from it, and none unfolds `apply_operation` again.

Everything of a node but its place -- its parent and its ordinal -- is its
**body**. An operation changes the body of its own target at most, adds the body
of the node it inserts, and drops the nodes it removes; the renumbering and the
promotions of `reparent_children` change places only (`Applies.body_after`).
-/
import Evidence.Corpus.SourcePatch.Apply

set_option autoImplicit false

namespace Evidence.Corpus

open Check

/-! ## Bodies -/

/-- A node without its place. -/
def SourceNode.body (node : SourceNode) : SourceNode :=
  { node with parent_uid := none, ordinal := 0 }

def SourceGraph.body (graph : SourceGraph) (uid : String) : Option SourceNode :=
  (graph.get uid).map SourceNode.body

theorem SourceGraph.body_eq_none {graph : SourceGraph} {uid : String} :
    graph.body uid = none ↔ graph.get uid = none :=
  Option.map_eq_none_iff

/-! ## The writes -/

theorem write_node_ok_iff {graph graph' : SourceGraph} {patch_uid target_uid : String}
    {write : SourceNode → SourceNode} {keeps : ∀ node, (write node).uid = node.uid} :
    write_node graph patch_uid target_uid write keeps = .ok graph' ↔
      (graph.get target_uid).isSome = true ∧ graph' = graph.modify target_uid write keeps := by
  rw [write_node, SourceGraph.node_mut]
  cases graph.get target_uid with
  | none => simp
  | some node =>
    simp only [Except.ok.injEq, Option.isSome_some, true_and]
    exact eq_comm

theorem target_node_ok_iff {graph : SourceGraph} {patch_uid target_uid : String}
    {node : SourceNode} :
    target_node graph patch_uid target_uid = .ok node ↔ graph.get target_uid = some node := by
  rw [target_node]
  cases graph.get target_uid with
  | none => simp
  | some found => simp

theorem check_parent_ok_iff {graph : SourceGraph} {patch_uid : String}
    {parent_uid : Option String} :
    check_parent graph patch_uid parent_uid = .ok () ↔
      ∀ parent ∈ parent_uid, (graph.get parent).isSome = true := by
  cases parent_uid with
  | none => simp [check_parent]
  | some parent => simp [check_parent, failIf_ok_iff, Option.ne_none_iff_isSome]

theorem place_sibling_body (parent : Option String) (promoted : List String) (graph : SourceGraph)
    (entry : String × ℕ) (uid : String) :
    (place_sibling parent promoted graph entry).body uid = graph.body uid := by
  rw [place_sibling, SourceGraph.node_mut]
  cases hget : graph.get entry.1 with
  | none => rfl
  | some node =>
    simp only [Option.getD_some, SourceGraph.body, Store.get_modify]
    split
    · next huid =>
      rw [← huid, hget]
      rfl
    · rfl

/-- **Promoting the children drops the target, and changes no other body.** -/
theorem reparent_children_body (graph : SourceGraph) (target_uid uid : String) :
    (reparent_children graph target_uid).body uid =
      if target_uid = uid then none else graph.body uid := by
  have hplace : ∀ (parent : Option String) (promoted : List String)
      (entries : List (String × ℕ)) (g : SourceGraph),
      (entries.foldl (place_sibling parent promoted) g).body uid = g.body uid := by
    intro parent promoted entries
    induction entries with
    | nil => intro g; rfl
    | cons entry entries ih =>
      intro g
      rw [List.foldl_cons, ih, place_sibling_body]
  have hremove : SourceGraph.body (graph.remove target_uid) uid =
      if target_uid = uid then none else graph.body uid := by
    rw [SourceGraph.body, Store.get_remove]
    split <;> rfl
  rw [reparent_children, SourceGraph.remove_node]
  cases graph.get target_uid with
  | none => exact hremove
  | some removed => exact (hplace _ _ _ _).trans hremove

/-- **Removing a subtree drops its members, and changes no other node.** -/
theorem remove_subtree_get (graph : SourceGraph) (target_uid uid : String) :
    (remove_subtree graph target_uid).get uid =
      if uid ∈ subtree_members graph target_uid then none else graph.get uid := by
  rw [remove_subtree]
  generalize subtree_members graph target_uid = members
  induction members generalizing graph with
  | nil => simp
  | cons member members ih =>
    rw [List.foldl_cons, ih, SourceGraph.remove_node, Store.get_remove]
    by_cases hmem : uid ∈ members
    · rw [if_pos hmem, if_pos (List.mem_cons_of_mem member hmem)]
    · rw [if_neg hmem]
      refine ite_congr (propext ?_) (fun _ => rfl) fun _ => rfl
      rw [List.mem_cons]
      exact ⟨fun h => .inl h.symm, fun h => h.elim Eq.symm fun h' => absurd h' hmem⟩

/-! ## The operations as a relation -/

variable [Sha256]

/-- What an operation writes in the body of its target. -/
def PatchOperation.rewrite : PatchOperation → SourceNode → SourceNode
  | .ReplaceContent _ _ _ new_canonical_text new_label, node =>
    { node with
      canonical_text := new_canonical_text.getD node.canonical_text
      label := new_label.or node.label }
  | .Reclassify _ _ _ new_kind, node => { node with kind := new_kind }
  | .Reparent .., node => node
  | .Insert .., node => node
  | .Remove .., node => node

omit [Sha256] in
theorem rewrite_remove (ordinal : UInt32) (target_uid : String)
    (expected_digest : StructuralContentDigest) (child_disposition : ChildDisposition) :
    (PatchOperation.Remove ordinal target_uid expected_digest child_disposition).rewrite = id :=
  rfl

omit [Sha256] in
theorem rewrite_reparent (ordinal : UInt32) (target_uid : String)
    (expected_parent_uid : Option String) (expected_ordinal : UInt32)
    (new_parent_uid : Option String) (new_ordinal : UInt32) :
    (PatchOperation.Reparent ordinal target_uid expected_parent_uid expected_ordinal new_parent_uid
      new_ordinal).rewrite = id :=
  rfl

def PatchOperation.removed (graph : SourceGraph) : PatchOperation → List String
  | .Remove _ target_uid _ .ReparentChildren => [target_uid]
  | .Remove _ target_uid _ .RemoveSubtree => subtree_members graph target_uid
  | _ => []

/-- `Applies patch graph op graph'`: the preconditions of `op` hold in `graph`, and
`graph'` is what it leaves. -/
inductive Applies (patch : SourcePatchRecord) (graph : SourceGraph) :
    PatchOperation → SourceGraph → Prop where
  | replace_content {ordinal : UInt32} {target_uid : String}
      {expected_content_sha256 : StructuralContentDigest}
      {new_canonical_text new_label : Option String} {node : SourceNode}
      (hget : graph.get target_uid = some node)
      (hdigest : node.content_sha256 = expected_content_sha256) :
      Applies patch graph
        (.ReplaceContent ordinal target_uid expected_content_sha256 new_canonical_text new_label)
        (graph.modify target_uid
          (fun node => { node with
            canonical_text := new_canonical_text.getD node.canonical_text
            label := new_label.or node.label })
          fun _ => rfl)
  | reclassify {ordinal : UInt32} {target_uid : String} {expected_kind new_kind : SourceNodeKind}
      {node : SourceNode} (hget : graph.get target_uid = some node)
      (hkind : node.kind = expected_kind) :
      Applies patch graph (.Reclassify ordinal target_uid expected_kind new_kind)
        (graph.modify target_uid (fun node => { node with kind := new_kind }) fun _ => rfl)
  | reparent {ordinal : UInt32} {target_uid : String} {expected_parent_uid : Option String}
      {expected_ordinal : UInt32} {new_parent_uid : Option String} {new_ordinal : UInt32}
      {node : SourceNode} (hget : graph.get target_uid = some node)
      (hparent : node.parent_uid = expected_parent_uid)
      (hordinal : node.ordinal = expected_ordinal)
      (hnew : ∀ parent ∈ new_parent_uid, (graph.get parent).isSome = true) :
      Applies patch graph
        (.Reparent ordinal target_uid expected_parent_uid expected_ordinal new_parent_uid
          new_ordinal)
        (graph.modify target_uid
          (fun node => { node with parent_uid := new_parent_uid, ordinal := new_ordinal })
          fun _ => rfl)
  | insert {ordinal : UInt32} {expected_parent_uid : Option String} {node : InsertedNodeSpec}
      (hparent : ∀ parent ∈ expected_parent_uid, (graph.get parent).isSome = true)
      (hfresh : graph.get node.uid = none)
      (hfree : ∀ m ∈ graph.values,
        ¬ SameHumanId m (inserted_node graph patch expected_parent_uid node)) :
      Applies patch graph (.Insert ordinal expected_parent_uid node)
        (graph.put (inserted_node graph patch expected_parent_uid node))
  | remove_reparent {ordinal : UInt32} {target_uid : String}
      {expected_digest : StructuralContentDigest} {node : SourceNode}
      (hget : graph.get target_uid = some node) (hdigest : node.content_sha256 = expected_digest) :
      Applies patch graph (.Remove ordinal target_uid expected_digest .ReparentChildren)
        (reparent_children graph target_uid)
  | remove_subtree {ordinal : UInt32} {target_uid : String}
      {expected_digest : StructuralContentDigest} {node : SourceNode}
      (hget : graph.get target_uid = some node) (hdigest : node.content_sha256 = expected_digest) :
      Applies patch graph (.Remove ordinal target_uid expected_digest .RemoveSubtree)
        (Corpus.remove_subtree graph target_uid)

/-- **The operations of the code are the relation.** -/
theorem apply_operation_ok_iff {patch : SourcePatchRecord} {graph graph' : SourceGraph}
    {op : PatchOperation} :
    apply_operation patch graph op = .ok graph' ↔ Applies patch graph op graph' := by
  have hsome : ∀ {uid : String} {node : SourceNode}, graph.get uid = some node →
      (graph.get uid).isSome = true := by
    intro uid node hget
    rw [hget]
    rfl
  cases op with
  | ReplaceContent ordinal target_uid expected new_canonical_text new_label =>
    rw [apply_operation, bind_ok_iff]
    simp only [seq_ok_iff, target_node_ok_iff, check_content_digest, failIf_ok_iff, ne_eq, not_not,
      write_node_ok_iff]
    constructor
    · rintro ⟨node, hget, hdigest, -, rfl⟩
      exact .replace_content hget hdigest
    · intro h
      cases h with
      | replace_content hget hdigest => exact ⟨_, hget, hdigest, hsome hget, rfl⟩
  | Reclassify ordinal target_uid expected_kind new_kind =>
    rw [apply_operation, bind_ok_iff]
    simp only [seq_ok_iff, target_node_ok_iff, failIf_ok_iff, ne_eq, not_not, write_node_ok_iff]
    constructor
    · rintro ⟨node, hget, hkind, -, rfl⟩
      exact .reclassify hget hkind
    · intro h
      cases h with
      | reclassify hget hkind => exact ⟨_, hget, hkind, hsome hget, rfl⟩
  | Reparent ordinal target_uid expected_parent_uid expected_ordinal new_parent_uid new_ordinal =>
    rw [apply_operation, bind_ok_iff]
    simp only [seq_ok_iff, target_node_ok_iff, failIf_ok_iff, ne_eq, not_not, check_parent_ok_iff,
      write_node_ok_iff]
    constructor
    · rintro ⟨node, hget, hparent, hordinal, hnew, -, rfl⟩
      exact .reparent hget hparent hordinal hnew
    · intro h
      cases h with
      | reparent hget hparent hordinal hnew =>
        exact ⟨_, hget, hparent, hordinal, hnew, hsome hget, rfl⟩
  | Insert ordinal expected_parent_uid node =>
    rw [apply_operation, seq_ok_iff, check_parent_ok_iff, mapError_ok_iff,
      SourceGraph.insert_ok_iff]
    constructor
    · rintro ⟨hparent, hfresh, hfree, rfl⟩
      exact .insert hparent hfresh hfree
    · intro h
      cases h with
      | insert hparent hfresh hfree => exact ⟨hparent, hfresh, hfree, rfl⟩
  | Remove ordinal target_uid expected_digest child_disposition =>
    cases child_disposition with
    | ReparentChildren =>
      simp only [apply_operation]
      rw [bind_ok_iff]
      simp only [seq_ok_iff, target_node_ok_iff, check_content_digest, failIf_ok_iff, ne_eq,
        not_not, Except.ok.injEq]
      constructor
      · rintro ⟨node, hget, hdigest, rfl⟩
        exact .remove_reparent hget hdigest
      · intro h
        cases h with
        | remove_reparent hget hdigest => exact ⟨_, hget, hdigest, rfl⟩
    | RemoveSubtree =>
      simp only [apply_operation]
      rw [bind_ok_iff]
      simp only [seq_ok_iff, target_node_ok_iff, check_content_digest, failIf_ok_iff, ne_eq,
        not_not, Except.ok.injEq]
      constructor
      · rintro ⟨node, hget, hdigest, rfl⟩
        exact .remove_subtree hget hdigest
      · intro h
        cases h with
        | remove_subtree hget hdigest => exact ⟨_, hget, hdigest, rfl⟩

/-! ## The frame -/

/-- The body an operation leaves under `uid`, from the body it finds there. -/
def body_after (patch : SourcePatchRecord) (graph : SourceGraph) (op : PatchOperation)
    (uid : String) (found : Option SourceNode) : Option SourceNode :=
  match op with
  | .Insert _ expected_parent_uid node =>
    if node.uid = uid then some (inserted_node graph patch expected_parent_uid node).body
    else found
  | op =>
    if uid ∈ op.removed graph then none
    else if op.conflict_identity = uid then found.map op.rewrite
    else found

omit [Sha256] in
private theorem body_modify {graph : SourceGraph} {target_uid : String}
    {write : SourceNode → SourceNode} {keeps : ∀ node, (write node).uid = node.uid}
    (rewrite : SourceNode → SourceNode) (hbody : ∀ node, (write node).body = rewrite node.body)
    (uid : String) :
    SourceGraph.body (graph.modify target_uid write keeps) uid =
      if target_uid = uid then (graph.body uid).map rewrite else graph.body uid := by
  rw [SourceGraph.body, Store.get_modify]
  split
  · next huid =>
    subst huid
    rw [SourceGraph.body, Option.map_map, Option.map_map]
    exact congrArg (fun f => Option.map f (graph.get target_uid)) (funext hbody)
  · rfl

/-- **An operation changes no other body than its target's.** -/
theorem Applies.body_after {patch : SourcePatchRecord} {graph graph' : SourceGraph}
    {op : PatchOperation} (h : Applies patch graph op graph') (uid : String) :
    graph'.body uid = body_after patch graph op uid (graph.body uid) := by
  cases h with
  | replace_content hget hdigest =>
    refine body_modify (PatchOperation.rewrite (.ReplaceContent _ _ _ _ _)) ?_ uid
    intro node
    rfl
  | reclassify hget hkind =>
    refine body_modify (PatchOperation.rewrite (.Reclassify _ _ _ _)) ?_ uid
    intro node
    rfl
  | reparent hget hparent hordinal hnew =>
    refine body_modify (PatchOperation.rewrite (.Reparent _ _ _ _ _ _)) ?_ uid
    intro node
    rfl
  | insert hparent hfresh hfree =>
    rw [SourceGraph.body, Store.get_put]
    exact apply_ite (Option.map SourceNode.body) _ _ _
  | remove_reparent hget hdigest =>
    rw [reparent_children_body]
    simp only [Corpus.body_after, PatchOperation.removed, rewrite_remove, Option.map_id, id_eq,
      ite_self, List.mem_singleton, eq_comm]
  | remove_subtree hget hdigest =>
    simp only [SourceGraph.body, remove_subtree_get, Corpus.body_after, PatchOperation.removed,
      rewrite_remove, Option.map_id, id_eq, ite_self]
    exact apply_ite (Option.map SourceNode.body) _ _ _

end Evidence.Corpus
