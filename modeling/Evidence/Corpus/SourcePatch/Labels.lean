/-
**When a patched graph keeps its labels unique.**

`SourceGraph::insert` is the only place where labels are compared. A patch writes
labels and kinds through `node_mut` as well, and the validator that runs on the
result does not compare them, so an operation can give one node the label and
kind that another node carries.

`TakesIdentity` is that step, seen from the graph it starts in. It does no harm
when a later operation renames or removes one of the two nodes. `LastingClash`
says that none does, and `apply_patch_contract_iff` that nothing else breaks the
contract of a patched graph.
-/
import Evidence.Corpus.SourcePatch.Frame
import Evidence.Corpus.SourcePatch.Records

set_option autoImplicit false

namespace Evidence.Corpus

open Check

/-! ## Human identities -/

/-- The kind and label the node under `uid` goes by. -/
def SourceGraph.human_id (graph : SourceGraph) (uid : String) : Option AncestryPair :=
  (graph.get uid).map SourceNode.pair

/-- Two nodes go by the same kind and label. -/
def Clash (x y : Option AncestryPair) : Prop :=
  x = y ∧ (x.bind Prod.snd).isSome = true

instance (x y : Option AncestryPair) : Decidable (Clash x y) :=
  inferInstanceAs (Decidable (_ ∧ _))

theorem Clash.symm {x y : Option AncestryPair} (h : Clash x y) : Clash y x :=
  ⟨h.1.symm, h.1 ▸ h.2⟩

theorem clash_comm {x y : Option AncestryPair} : Clash x y ↔ Clash y x :=
  ⟨Clash.symm, Clash.symm⟩

theorem not_clash_none {x : Option AncestryPair} : ¬ Clash none x :=
  fun h => Bool.false_ne_true h.2

theorem human_id_eq_body (graph : SourceGraph) (uid : String) :
    graph.human_id uid = (graph.body uid).map SourceNode.pair := by
  rw [SourceGraph.human_id, SourceGraph.body, Option.map_map]
  rfl

theorem labelsUnique_iff {graph : SourceGraph} :
    LabelsUnique graph ↔ ∀ a b, a ≠ b → ¬ Clash (graph.human_id a) (graph.human_id b) := by
  constructor
  · rintro h a b hab ⟨heq, hsome⟩
    cases hb : graph.get b with
    | none =>
      rw [heq, SourceGraph.human_id, hb] at hsome
      exact Bool.false_ne_true hsome
    | some nb =>
      rw [SourceGraph.human_id, SourceGraph.human_id, hb, Option.map_some,
        Option.map_eq_some_iff] at heq
      obtain ⟨na, ha, hpair⟩ := heq
      rw [SourceGraph.human_id, ha] at hsome
      have hsame : SameHumanId na nb :=
        ⟨Option.isSome_iff_ne_none.mp hsome, congrArg Prod.fst hpair, congrArg Prod.snd hpair⟩
      have hnode := h na (Store.mem_values_of_get ha) nb (Store.mem_values_of_get hb) hsame
      rw [← get_uid a na ha, ← get_uid b nb hb, hnode] at hab
      exact hab rfl
  · rintro h a ha b hb ⟨hlabel, hkind, heq⟩
    by_contra hne
    refine h a.uid b.uid (fun huid => hne (Store.eq_of_mem_values ha hb huid)) ?_
    rw [SourceGraph.human_id, SourceGraph.human_id, Store.mem_values.mp ha, Store.mem_values.mp hb]
    exact ⟨congrArg some (Prod.ext hkind heq), Option.isSome_iff_ne_none.mpr hlabel⟩

/-! ## One operation -/

/-- `op` gives the node `uid` a new label or a new kind. -/
def PatchOperation.renames (op : PatchOperation) (uid : String) : Bool :=
  match op with
  | .ReplaceContent _ target_uid _ _ new_label => new_label.isSome && target_uid == uid
  | .Reclassify _ target_uid _ _ => target_uid == uid
  | _ => false

/-- The identity it gives a node that goes by the given one. -/
def PatchOperation.renamed (op : PatchOperation) (held : AncestryPair) : AncestryPair :=
  match op with
  | .ReplaceContent _ _ _ _ new_label => (held.1, new_label.or held.2)
  | .Reclassify _ _ _ new_kind => (new_kind, held.2)
  | _ => held

/-- `op` gives the node `t` the identity that another node `u` carries. -/
def TakesIdentity (graph : SourceGraph) (op : PatchOperation) (t u : String) : Prop :=
  op.renames t = true ∧ t ≠ u ∧ Clash ((graph.human_id t).map op.renamed) (graph.human_id u)

/-- `op` renames the node `u`, or removes it. -/
def Settles (graph : SourceGraph) (op : PatchOperation) (u : String) : Prop :=
  op.renames u = true ∨ u ∈ op.removed graph

theorem PatchOperation.eq_target_of_renames {op : PatchOperation} {u : String}
    (h : op.renames u = true) : op.conflict_identity = u := by
  cases op with
  | ReplaceContent _ _ _ _ new_label =>
    rw [renames, Bool.and_eq_true, beq_iff_eq] at h
    exact h.2
  | Reclassify => exact beq_iff_eq.mp h
  | Reparent => cases h
  | Insert => cases h
  | Remove => cases h

theorem PatchOperation.removed_of_renames {op : PatchOperation} {u : String}
    (h : op.renames u = true) (graph : SourceGraph) : op.removed graph = [] := by
  cases op with
  | Remove => cases h
  | _ => rfl

theorem PatchOperation.rewrite_pair (op : PatchOperation) (node : SourceNode) :
    (op.rewrite node).pair = op.renamed node.pair := by
  cases op <;> rfl

/-- A target that is not renamed goes by what it went by. -/
theorem PatchOperation.renamed_of_not_renames {op : PatchOperation}
    (h : op.renames op.conflict_identity = false) (held : AncestryPair) :
    op.renamed held = held := by
  cases op with
  | ReplaceContent _ _ _ _ new_label =>
    cases new_label with
    | none => rfl
    | some label => simp [renames, conflict_identity] at h
  | Reclassify => simp [renames, conflict_identity] at h
  | Reparent => rfl
  | Insert => rfl
  | Remove => rfl

section Steps

variable [Sha256] {patch : SourcePatchRecord} {graph graph' : SourceGraph} {op : PatchOperation}

/-- **The identities an operation leaves**, that of an inserted node apart. -/
theorem Applies.human_id_after (h : Applies patch graph op graph') (u : String)
    (hinsert : ∀ ordinal parent_uid node, op = .Insert ordinal parent_uid node → node.uid ≠ u) :
    graph'.human_id u =
      if u ∈ op.removed graph then none
      else if op.renames u = true then (graph.human_id u).map op.renamed
      else graph.human_id u := by
  have hrest : (if op.conflict_identity = u then (graph.body u).map op.rewrite
        else graph.body u).map SourceNode.pair =
      if op.renames u = true then (graph.human_id u).map op.renamed else graph.human_id u := by
    have hpair : ((graph.body u).map op.rewrite).map SourceNode.pair =
        (graph.human_id u).map op.renamed := by
      rw [human_id_eq_body, Option.map_map, Option.map_map]
      exact congrArg (fun f => Option.map f (graph.body u)) (funext op.rewrite_pair)
    by_cases htarget : op.conflict_identity = u
    · rw [if_pos htarget, hpair]
      by_cases hren : op.renames u = true
      · rw [if_pos hren]
      · rw [if_neg hren]
        have hid := PatchOperation.renamed_of_not_renames
          (htarget.symm ▸ Bool.not_eq_true _ ▸ hren)
        rw [funext hid]
        exact Option.map_id'
    · rw [if_neg htarget, if_neg fun hren => htarget (op.eq_target_of_renames hren),
        human_id_eq_body]
  rw [human_id_eq_body, h.body_after u]
  cases op with
  | Insert ordinal parent_uid node =>
    rw [Corpus.body_after, if_neg (hinsert ordinal parent_uid node rfl), ← human_id_eq_body]
    rfl
  | _ =>
    simp only [Corpus.body_after, ← hrest]
    split <;> rfl

theorem Applies.inserted_clash {ordinal : UInt32} {parent_uid : Option String}
    {node : InsertedNodeSpec}
    (h : Applies patch graph (.Insert ordinal parent_uid node) graph') {u : String}
    (hne : node.uid ≠ u) : ¬ Clash (graph'.human_id node.uid) (graph'.human_id u) := by
  have hu : graph'.human_id u = graph.human_id u := by
    rw [h.human_id_after u fun _ _ _ heq => by cases heq; exact hne]
    rfl
  rw [hu]
  cases h with
  | insert hparent hfresh hfree =>
    have hown : (inserted_node graph patch parent_uid node).uid = node.uid := rfl
    rw [SourceGraph.human_id, Store.get_put, if_pos hown]
    rintro ⟨heq, hsome⟩
    obtain ⟨m, hm, hpair⟩ := Option.map_eq_some_iff.mp heq.symm
    refine hfree m (Store.mem_values_of_get hm) ⟨?_, congrArg Prod.fst hpair,
      congrArg Prod.snd hpair⟩
    have hlabel : m.label = _ := congrArg Prod.snd hpair
    rw [hlabel]
    exact Option.isSome_iff_ne_none.mp hsome

/-- **The clashes after an operation** are those it makes, and those before it
that it does not settle. -/
theorem Applies.clash_iff (h : Applies patch graph op graph') {a b : String} (hab : a ≠ b) :
    Clash (graph'.human_id a) (graph'.human_id b) ↔
      TakesIdentity graph op a b ∨ TakesIdentity graph op b a ∨
        (Clash (graph.human_id a) (graph.human_id b) ∧ ¬ Settles graph op a ∧
          ¬ Settles graph op b) := by
  by_cases hins : ∃ ordinal parent_uid node, op = .Insert ordinal parent_uid node
  · -- an insertion renames nothing, and its label was compared
    obtain ⟨ordinal, parent_uid, node, rfl⟩ := hins
    have hnone : graph.human_id node.uid = none := by
      cases h with
      | insert hparent hfresh hfree => rw [SourceGraph.human_id, hfresh]; rfl
    have hother : ∀ u, node.uid ≠ u → graph'.human_id u = graph.human_id u := by
      intro u hu
      rw [h.human_id_after u fun _ _ _ heq => by cases heq; exact hu]
      rfl
    have htakes : ∀ t u, ¬ TakesIdentity graph (.Insert ordinal parent_uid node) t u :=
      fun t u ht => Bool.false_ne_true ht.1
    have hsettles : ∀ u, ¬ Settles graph (.Insert ordinal parent_uid node) u := by
      rintro u (hren | hrem)
      · exact Bool.false_ne_true hren
      · exact absurd hrem List.not_mem_nil
    simp only [htakes, hsettles, not_false_eq_true, and_true, false_or]
    by_cases ha : node.uid = a
    · subst ha
      exact iff_of_false (h.inserted_clash hab) (hnone ▸ not_clash_none)
    · by_cases hb : node.uid = b
      · subst hb
        rw [clash_comm, clash_comm (y := graph.human_id node.uid)]
        exact iff_of_false (h.inserted_clash hab.symm) (hnone ▸ not_clash_none)
      · rw [hother a ha, hother b hb]
  · have hafter := fun u => h.human_id_after u
      fun ordinal parent_uid node heq => absurd ⟨ordinal, parent_uid, node, heq⟩ hins
    -- a node that one of the two operations settles is removed or renamed
    have hone : ∀ {a b : String}, a ≠ b → Settles graph op a →
        (Clash (graph'.human_id a) (graph'.human_id b) ↔
          TakesIdentity graph op a b ∨ TakesIdentity graph op b a) := by
      intro a b hab hset
      by_cases hren : op.renames a = true
      · have hrem := PatchOperation.removed_of_renames hren graph
        have hb : op.renames b ≠ true := fun hb =>
          hab (PatchOperation.eq_target_of_renames hren ▸ PatchOperation.eq_target_of_renames hb)
        have hnot : ¬ TakesIdentity graph op b a := fun ht => hb ht.1
        rw [hafter a, hafter b, hrem, if_neg List.not_mem_nil, if_neg List.not_mem_nil,
          if_pos hren, if_neg hb, or_iff_left hnot]
        exact ⟨fun hclash => ⟨hren, hab, hclash⟩, fun ht => ht.2.2⟩
      · have hrem : a ∈ op.removed graph := hset.resolve_left hren
        rw [hafter a, if_pos hrem]
        refine iff_of_false not_clash_none ?_
        rintro (ht | ht)
        · exact hren ht.1
        · rw [PatchOperation.removed_of_renames ht.1 graph] at hrem
          exact List.not_mem_nil hrem
    by_cases ha : Settles graph op a
    · rw [hone hab ha]
      simp only [ha, not_true, false_and, and_false, or_false]
    · by_cases hb : Settles graph op b
      · rw [clash_comm, hone hab.symm hb]
        simp only [hb, not_true, and_false, or_false]
        exact or_comm
      · have hkept : ∀ u, ¬ Settles graph op u → graph'.human_id u = graph.human_id u := by
          intro u hu
          rw [hafter u, if_neg fun hrem => hu (.inr hrem), if_neg fun hren => hu (.inl hren)]
        have htakes : ∀ t u, ¬ Settles graph op t → ¬ TakesIdentity graph op t u :=
          fun t u ht htake => ht (.inl htake.1)
        rw [hkept a ha, hkept b hb]
        simp only [htakes a b ha, htakes b a hb, ha, hb, not_false_eq_true, and_true, false_or]

/-! ## A run of operations -/

def Untouched (patch : SourcePatchRecord) : SourceGraph → List PatchOperation → String → Prop
  | _, [], _ => True
  | working, op :: rest, u =>
    ¬ Settles working op u ∧
      match apply_operation patch working op with
      | .ok working' => Untouched patch working' rest u
      | .error _ => True

/-- Some operation of a run gives the node `t` the identity that `u` carries when
it starts, and no later operation renames or removes either. -/
def LastingClash (patch : SourcePatchRecord) :
    SourceGraph → List PatchOperation → String → String → Prop
  | _, [], _, _ => False
  | working, op :: rest, t, u =>
    match apply_operation patch working op with
    | .ok working' =>
      (TakesIdentity working op t u ∧ Untouched patch working' rest t ∧
        Untouched patch working' rest u) ∨ LastingClash patch working' rest t u
    | .error _ => False

/-- **The condition on a patch**: no operation of its run leaves a lasting clash. -/
def NoLastingClash (patch : SourcePatchRecord) (graph : SourceGraph) : Prop :=
  ∀ t u, ¬ LastingClash patch graph patch.operations t u

/-- **The clashes after a run** are those it makes and leaves, and those before it
that it leaves. -/
theorem runs_clash_iff {ops : List PatchOperation}
    (h : Runs (apply_operation patch) graph ops graph') {a b : String} (hab : a ≠ b) :
    Clash (graph'.human_id a) (graph'.human_id b) ↔
      (Clash (graph.human_id a) (graph.human_id b) ∧ Untouched patch graph ops a ∧
          Untouched patch graph ops b) ∨
        LastingClash patch graph ops a b ∨ LastingClash patch graph ops b a := by
  induction h with
  | nil working => simp only [Untouched, LastingClash, and_true, or_false]
  | cons hstep hrest ih =>
    rw [ih, (apply_operation_ok_iff.mp hstep).clash_iff hab]
    simp only [Untouched, LastingClash, hstep]
    constructor
    · rintro (⟨hab' | hba | ⟨hclash, ha, hb⟩, hua, hub⟩ | hlast | hlast)
      · exact .inr (.inl (.inl ⟨hab', hua, hub⟩))
      · exact .inr (.inr (.inl ⟨hba, hub, hua⟩))
      · exact .inl ⟨hclash, ⟨ha, hua⟩, hb, hub⟩
      · exact .inr (.inl (.inr hlast))
      · exact .inr (.inr (.inr hlast))
    · rintro (⟨hclash, ⟨ha, hua⟩, hb, hub⟩ | (⟨hab', hua, hub⟩ | hlast) | (⟨hba, hub, hua⟩ | hlast))
      · exact .inl ⟨.inr (.inr ⟨hclash, ha, hb⟩), hua, hub⟩
      · exact .inl ⟨.inl hab', hua, hub⟩
      · exact .inr (.inl hlast)
      · exact .inl ⟨.inr (.inl hba), hua, hub⟩
      · exact .inr (.inr hlast)

theorem human_id_recompute (graph : SourceGraph) (u : String) :
    (recompute_node_digests graph).human_id u = graph.human_id u := by
  rw [SourceGraph.human_id, get_recompute, Option.map_map]
  rfl

theorem LastingClash.ne {working : SourceGraph} {ops : List PatchOperation} {t u : String}
    (h : LastingClash patch working ops t u) : t ≠ u := by
  induction ops generalizing working with
  | nil => exact h.elim
  | cons op rest ih =>
    rw [LastingClash] at h
    split at h
    · exact h.elim (fun htakes => htakes.1.2.1) ih
    · exact h.elim

/-- **The contract of a patched graph.** An accepted patch over a graph built through
`insert` leaves a graph that validates and whose nodes can be inserted again in
any order exactly when no operation of its run leaves a lasting clash. -/
theorem apply_patch_contract_iff [F64Display] {bindings : PatchBindings} {media_type : String}
    {application : PatchApplication} (hbuilt : graph.Built)
    (hok : apply_patch graph patch bindings media_type = .ok application) :
    (validate_graph_standalone patch.source_revision_uid media_type application.graph = .ok () ∧
      application.graph.Reinsertable) ↔ NoLastingClash patch graph := by
  obtain ⟨-, -, -, -, working, hruns, hforest, rfl⟩ := apply_patch_ok_iff.mp hok
  have hbefore := labelsUnique_iff.mp (SourceGraph.built_iff.mp hbuilt)
  rw [validate_graph_standalone_ok_iff, and_iff_right hforest, SourceGraph.reinsertable_iff,
    labelsUnique_iff]
  simp only [human_id_recompute]
  constructor
  · intro hafter t u hlast
    exact hafter t u hlast.ne ((runs_clash_iff hruns hlast.ne).mpr (.inr (.inl hlast)))
  · intro hnone a b hab hclash
    rcases (runs_clash_iff hruns hab).mp hclash with ⟨hold, -, -⟩ | hlast | hlast
    · exact hbefore a b hab hold
    · exact hnone a b hlast
    · exact hnone b a hlast

end Steps

/-! ## A patch that repeats a label -/

section Witness

attribute [local instance] fips180 F64.exact_display canonical_formats

def root_section (uid : String) (ordinal : UInt32) (label canonical_text : String) : SourceNode :=
  committed_root uid "src_00000000-0000-4000-8000-000000000001" .Section ordinal (some label)
    canonical_text

/-- Two labelled root sections, the second under a given label. -/
def two_sections (label : String) : SourceGraph :=
  (Store.empty.put (root_section "snode_00000000-0000-4000-8000-000000000001" 0 "1" "Scope.")).put
    (root_section "snode_00000000-0000-4000-8000-000000000002" 1 label "Terms.")

/-- A patch that gives the second section a new label. -/
def relabel (label : String) : SourcePatchRecord :=
  patch_record "patch_00000000-0000-4000-8000-000000000001" "PATCH-1"
    "src_00000000-0000-4000-8000-000000000001" (two_sections "2")
    [.ReplaceContent 1 "snode_00000000-0000-4000-8000-000000000002"
      (content_digest .Section "Terms.") none (some label)]

private theorem mem_two_sections {label : String} {node : SourceNode} :
    node ∈ (two_sections label).values ↔
      node = root_section "snode_00000000-0000-4000-8000-000000000002" 1 label "Terms." ∨
      node = root_section "snode_00000000-0000-4000-8000-000000000001" 0 "1" "Scope." := by
  rw [two_sections, Store.mem_values_put, Store.mem_values_singleton]
  refine or_congr_right ⟨And.right, fun h => ⟨?_, h⟩⟩
  rw [h]
  exact (by decide : "snode_00000000-0000-4000-8000-000000000001" ≠
    "snode_00000000-0000-4000-8000-000000000002")

private theorem two_sections_forest {label : String}
    (hnumbered : ((two_sections label).values.map fun node => node.ordinal.toNat).Perm
      (List.range (two_sections label).values.length)) :
    Forest "text/html" (two_sections label) := by
  refine forest_of_committed_roots ?_ hnumbered
  intro node hnode
  rcases mem_two_sections.mp hnode with rfl | rfl
  · exact ⟨_, _, _, _, _, _, rfl⟩
  · exact ⟨_, _, _, _, _, _, rfl⟩

private theorem two_sections_labels {label : String} :
    LabelsUnique (two_sections label) ↔ label ≠ "1" := by
  constructor
  · rintro h rfl
    have hsame := h _ (mem_two_sections.mpr (.inl rfl)) _ (mem_two_sections.mpr (.inr rfl))
      ⟨Option.some_ne_none _, rfl, rfl⟩
    exact absurd (congrArg SourceNode.ordinal hsame) (by decide : (1 : UInt32) ≠ 0)
  · intro hne a ha b hb hsame
    rcases mem_two_sections.mp ha with rfl | rfl <;> rcases mem_two_sections.mp hb with rfl | rfl
    · rfl
    · exact absurd (Option.some.inj hsame.2.2) hne
    · exact absurd (Option.some.inj hsame.2.2).symm hne
    · rfl

private theorem two_sections_built : (two_sections "2").Built :=
  SourceGraph.built_iff.mpr (two_sections_labels.mpr (by decide))

private theorem relabel_parsed {label : String}
    (hlabel : validate_optional_label "patches.toml" "patch_00000000-0000-4000-8000-000000000001"
      (some label) = .ok ()) : (relabel label).Parsed := by
  refine patch_record_parsed (by decide +kernel) (by decide +kernel) (by decide +kernel)
    (by decide +kernel) ?_ ?_ ?_ ?_ rfl
  · exact List.cons_ne_nil _ _
  · intro operation hop
    rw [List.mem_singleton.mp hop, validate_operation, seq_ok_iff, seq_ok_iff, failIf_ok_iff]
    exact ⟨by decide +kernel, fun h => (nomatch h.2), hlabel⟩
  · exact List.nodup_singleton _
  · exact List.nodup_singleton _

private theorem relabel_applied {label : String}
    (hbefore : Forest "text/html" (two_sections "2"))
    (hafter : Forest "text/html" (two_sections label)) :
    apply_patch (two_sections "2") (relabel label) ⟨.of_bytes [], .of_bytes []⟩ "text/html" = .ok
      { pre_patch_digest := source_graph_digest (two_sections "2")
        patch_digest := (relabel label).reviewed_content_digest
        post_patch_digest := source_graph_digest (two_sections label)
        graph := two_sections label } := by
  have hget : (two_sections "2").get "snode_00000000-0000-4000-8000-000000000002" =
      some (root_section "snode_00000000-0000-4000-8000-000000000002" 1 "2" "Terms.") :=
    Store.mem_values.mp (mem_two_sections.mpr (.inl rfl))
  have hgraph : recompute_node_digests ((two_sections "2").modify
      "snode_00000000-0000-4000-8000-000000000002"
      (fun node => { node with
        canonical_text := (none : Option String).getD node.canonical_text
        label := (some label).or node.label }) fun _ => rfl) = two_sections label := by
    refine Store.ext_values fun node => ?_
    simp only [mem_values_recompute, Store.mem_values_modify, hget, mem_two_sections]
    constructor
    · rintro ⟨old, ⟨hne, rfl | rfl⟩ | hold, rfl⟩
      · exact absurd rfl hne
      · exact .inr rfl
      · cases hold
        exact .inl rfl
    · rintro (rfl | rfl)
      · exact ⟨_, .inr rfl, rfl⟩
      · exact ⟨_, .inl ⟨(by decide : "snode_00000000-0000-4000-8000-000000000001" ≠
          "snode_00000000-0000-4000-8000-000000000002"), .inr rfl⟩, rfl⟩
  have happlies : Applies (relabel label) (two_sections "2")
      (.ReplaceContent 1 _ _ none (some label)) _ := .replace_content hget rfl
  refine apply_patch_ok_iff.mpr ⟨hbefore, rfl, rfl, rfl, _,
    .single (apply_operation_ok_iff.mpr happlies), ?_, ?_⟩
  · exact hgraph ▸ hafter
  · rw [hgraph]

/-- The rule at a patch that gives the section a label of its own. -/
theorem apply_patch_contract_relabel :
    (validate_graph_standalone (relabel "3").source_revision_uid "text/html"
        (two_sections "3") = .ok () ∧ (two_sections "3").Reinsertable) ↔
      NoLastingClash (relabel "3") (two_sections "2") :=
  apply_patch_contract_iff two_sections_built
    (relabel_applied (two_sections_forest (by decide +kernel))
      (two_sections_forest (by decide +kernel)))

/-- **An accepted patch can leave two sections under one label.** -/
theorem apply_patch_repeats_label :
    ¬ ∀ (graph : SourceGraph) (patch : SourcePatchRecord) (bindings : PatchBindings)
        (media_type : String) (application : PatchApplication),
      graph.Built →
      validate_graph_standalone patch.source_revision_uid media_type graph = .ok () →
      patch.Parsed → apply_patch graph patch bindings media_type = .ok application →
      validate_graph_standalone patch.source_revision_uid media_type application.graph = .ok () ∧
        application.graph.Reinsertable := by
  intro h
  have hbefore : Forest "text/html" (two_sections "2") := two_sections_forest (by decide +kernel)
  have hafter : Forest "text/html" (two_sections "1") := two_sections_forest (by decide +kernel)
  have hkept := (h (two_sections "2") (relabel "1") _ _ _ two_sections_built
    (validate_graph_standalone_ok_iff.mpr hbefore) (relabel_parsed (by decide +kernel))
    (relabel_applied hbefore hafter)).2
  exact two_sections_labels.mp (SourceGraph.reinsertable_iff.mp hkept) rfl

end Witness

end Evidence.Corpus
