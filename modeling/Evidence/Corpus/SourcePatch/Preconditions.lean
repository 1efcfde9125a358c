/-
**When the expected digests of a patch are those of the working graph.**

`replace_content` and `remove` compare their expected digest with the stored
`content_sha256` of the target. Operations that change a node's text or kind leave
that field as it is until the last operation has run, so the field says what the
parser graph or the insertion put there, and not what the node has become.

`content_history` follows the kind and text of one node through the operations of
a patch, without applying them. It is what the working graph holds
(`runs_tracked`), so whether a run's expected digests are current can be read off
the parser graph and the operations.
-/
import Evidence.Corpus.SourcePatch.Frame
import Evidence.Corpus.SourcePatch.Records

set_option autoImplicit false

namespace Evidence.Corpus

open Check

/-! ## Content through a patch -/

/-- The kind and text a content digest covers. -/
structure NodeContent where
  kind : SourceNodeKind
  canonical_text : String
deriving DecidableEq

def SourceNode.content (node : SourceNode) : NodeContent := ⟨node.kind, node.canonical_text⟩

structure ContentHistory where
  entered : NodeContent
  current : NodeContent
deriving DecidableEq

def NodeContent.enter (content : NodeContent) : ContentHistory := ⟨content, content⟩

def follow (uid : String) (history : Option ContentHistory) (op : PatchOperation) :
    Option ContentHistory :=
  match op with
  | .ReplaceContent _ target_uid _ new_canonical_text _ =>
    if target_uid = uid then
      history.map fun h =>
        { h with current :=
          { h.current with canonical_text := new_canonical_text.getD h.current.canonical_text } }
    else history
  | .Reclassify _ target_uid _ new_kind =>
    if target_uid = uid then
      history.map fun h => { h with current := { h.current with kind := new_kind } }
    else history
  | .Insert _ _ node =>
    if node.uid = uid then some (NodeContent.mk node.kind node.canonical_text).enter else history
  | .Reparent .. => history
  | .Remove .. => history

/-- The history of the node `uid` over the operations `before`, from the parser
graph on. -/
def content_history (graph : SourceGraph) (before : List PatchOperation) (uid : String) :
    Option ContentHistory :=
  before.foldl (follow uid) ((graph.get uid).map fun node => node.content.enter)

def PatchOperation.expected_content : PatchOperation → Option (String × StructuralContentDigest)
  | .ReplaceContent _ target_uid expected_content_sha256 _ _ =>
    some (target_uid, expected_content_sha256)
  | .Remove _ target_uid expected_digest _ => some (target_uid, expected_digest)
  | _ => none

section Runs

variable [Sha256] {patch : SourcePatchRecord} {graph : SourceGraph}

def NodeContent.digest (content : NodeContent) : StructuralContentDigest :=
  content_digest content.kind content.canonical_text

/-! ## The working graph follows the history -/

/-- Every node of `working` has the content its history has come to, and stores the
digest of the content it entered with. -/
def Tracked (working : SourceGraph) (history : String → Option ContentHistory) : Prop :=
  ∀ uid node, working.body uid = some node → ∃ h, history uid = some h ∧
    node.content_sha256 = h.entered.digest ∧ node.content = h.current

/-- A valid graph stores the digest of every node's content. -/
theorem Forest.tracked {media_type : String} (hforest : Forest media_type graph) :
    Tracked graph (content_history graph []) := by
  intro uid body hbody
  obtain ⟨node, hget, rfl⟩ := Option.map_eq_some_iff.mp hbody
  refine ⟨node.content.enter, ?_, ?_, rfl⟩
  · rw [content_history, List.foldl_nil, hget]
    rfl
  · exact (hforest.content node (Store.mem_values_of_get hget)).symm

private theorem Tracked.target {working : SourceGraph} {history : String → Option ContentHistory}
    (htracked : Tracked working history) {target_uid uid : String} {node : SourceNode}
    (rewrite : SourceNode → SourceNode) (write : NodeContent → NodeContent)
    (hstored : ∀ n, (rewrite n).content_sha256 = n.content_sha256)
    (hcontent : ∀ n, (rewrite n).content = write n.content)
    (hnode : (if target_uid = uid then (working.body uid).map rewrite else working.body uid) =
      some node) :
    ∃ h, (if target_uid = uid then
        (history uid).map fun h => { h with current := write h.current }
        else history uid) = some h ∧
      node.content_sha256 = h.entered.digest ∧ node.content = h.current := by
  by_cases htarget : target_uid = uid
  · rw [if_pos htarget] at hnode
    obtain ⟨old, hold, rfl⟩ := Option.map_eq_some_iff.mp hnode
    obtain ⟨hist, hhist, hentered, hcurrent⟩ := htracked uid old hold
    refine ⟨{ hist with current := write hist.current }, ?_, ?_, ?_⟩
    · rw [if_pos htarget, hhist]
      rfl
    · rw [hstored, hentered]
    · rw [hcontent, hcurrent]
  · rw [if_neg htarget] at hnode ⊢
    exact htracked uid node hnode

/-- **One operation keeps the working graph on its history.** -/
theorem Applies.tracked {working working' : SourceGraph} {op : PatchOperation}
    {history : String → Option ContentHistory} (h : Applies patch working op working')
    (htracked : Tracked working history) :
    Tracked working' fun uid => follow uid (history uid) op := by
  intro uid node hnode
  rw [h.body_after uid] at hnode
  cases op with
  | ReplaceContent ordinal target_uid expected new_canonical_text new_label =>
    exact htracked.target (PatchOperation.rewrite (.ReplaceContent _ _ _ _ _)) (fun content =>
      { content with canonical_text := new_canonical_text.getD content.canonical_text })
      (fun _ => rfl) (fun _ => rfl) hnode
  | Reclassify ordinal target_uid expected_kind new_kind =>
    exact htracked.target (PatchOperation.rewrite (.Reclassify _ _ _ _))
      (fun content => { content with kind := new_kind }) (fun _ => rfl) (fun _ => rfl) hnode
  | Reparent =>
    refine htracked uid node ?_
    rw [← hnode]
    simp only [Corpus.body_after, PatchOperation.removed, List.not_mem_nil, if_false, rewrite_reparent,
      Option.map_id, id_eq, ite_self]
  | Insert ordinal parent_uid spec =>
    rw [Corpus.body_after] at hnode
    by_cases huid : spec.uid = uid
    · rw [if_pos huid, Option.some.injEq] at hnode
      refine ⟨_, if_pos huid, ?_, ?_⟩
      · rw [← hnode]
        rfl
      · rw [← hnode]
        rfl
    · rw [if_neg huid] at hnode
      simp only [follow, if_neg huid]
      exact htracked uid node hnode
  | Remove ordinal target_uid expected child_disposition =>
    refine htracked uid node ?_
    simp only [Corpus.body_after, rewrite_remove, Option.map_id, id_eq, ite_self] at hnode
    split at hnode
    · cases hnode
    · exact hnode

/-- **The working graph of a run follows the history.** -/
theorem runs_tracked {media_type : String} (hforest : Forest media_type graph)
    {before : List PatchOperation} {working : SourceGraph}
    (h : Runs (apply_operation patch) graph before working) :
    Tracked working (content_history graph before) := by
  have hrun : ∀ {history : String → Option ContentHistory} {g : SourceGraph}
      {ops : List PatchOperation}, Runs (apply_operation patch) g ops working → Tracked g history →
      Tracked working fun uid => ops.foldl (follow uid) (history uid) := by
    intro history g ops hruns htracked
    induction hruns generalizing history with
    | nil => exact htracked
    | cons hstep _ ih => exact ih h ((apply_operation_ok_iff.mp hstep).tracked htracked)
  exact hrun h hforest.tracked

/-! ## The preconditions of an accepted patch -/

/-- `op` is an operation of the patch that expects `expected` to be the content
digest of `target_uid`; the operations before it leave `working`, in which the
target is `node`. -/
structure Expects (patch : SourcePatchRecord) (graph : SourceGraph) (before : List PatchOperation)
    (op : PatchOperation) (target_uid : String) (expected : StructuralContentDigest)
    (working : SourceGraph) (node : SourceNode) : Prop where
  position : ∃ after, patch.operations = before ++ op :: after
  expectation : op.expected_content = some (target_uid, expected)
  reached : Runs (apply_operation patch) graph before working
  target : working.get target_uid = some node

/-- Every expected digest is that of the target as it stands, and an operation
whose target has moved away from it fails with a stale precondition. -/
def PreconditionsCurrent (patch : SourcePatchRecord) (graph : SourceGraph) : Prop :=
  ∀ before op target_uid expected working node,
    Expects patch graph before op target_uid expected working node →
      expected = content_digest node.kind node.canonical_text ∧
      (content_digest node.kind node.canonical_text ≠ expected →
        ∃ actual, apply_operation patch working op =
          .error (.StalePrecondition patch.uid op.ordinal target_uid "content_sha256"
            expected.as_str actual))

/-- **The condition on a patch**: wherever a content digest is expected, the
operations before have left the target with the content digest it entered with. -/
def TargetsUnmoved (patch : SourcePatchRecord) (graph : SourceGraph) : Prop :=
  ∀ before op after, patch.operations = before ++ op :: after →
    ∀ target_uid expected, op.expected_content = some (target_uid, expected) →
      ∀ history, content_history graph before target_uid = some history →
        history.entered.digest = history.current.digest

theorem Applies.expected_stored {working working' : SourceGraph} {op : PatchOperation}
    (h : Applies patch working op working') {target_uid : String}
    {expected : StructuralContentDigest} (hop : op.expected_content = some (target_uid, expected)) :
    ∃ node, working.get target_uid = some node ∧ node.content_sha256 = expected := by
  cases h with
  | replace_content hget hdigest => cases hop; exact ⟨_, hget, hdigest⟩
  | reclassify => cases hop
  | reparent => cases hop
  | insert => cases hop
  | remove_reparent hget hdigest => cases hop; exact ⟨_, hget, hdigest⟩
  | remove_subtree hget hdigest => cases hop; exact ⟨_, hget, hdigest⟩

/-- **The preconditions of an accepted patch.** Every expected digest of its run is
that of the working graph exactly when no target has moved, by the operations
before, away from the content digest it entered with. -/
theorem apply_patch_preconditions_iff [F64Display] {bindings : PatchBindings}
    {media_type : String} {application : PatchApplication}
    (hok : apply_patch graph patch bindings media_type = .ok application) :
    PreconditionsCurrent patch graph ↔ TargetsUnmoved patch graph := by
  obtain ⟨hforest, -, -, -, final, hruns, -, -⟩ := apply_patch_ok_iff.mp hok
  -- the target of an operation of the run, with its history
  have htarget : ∀ {before op after target_uid expected},
      patch.operations = before ++ op :: after →
      op.expected_content = some (target_uid, expected) →
      ∃ working node history, Runs (apply_operation patch) graph before working ∧
        working.get target_uid = some node ∧
        content_history graph before target_uid = some history ∧
        history.entered.digest = expected ∧
        history.current.digest = content_digest node.kind node.canonical_text := by
    intro before op after target_uid expected hops hop
    rw [hops, Runs.append_iff] at hruns
    obtain ⟨working, hbefore, hrest⟩ := hruns
    cases hrest with
    | cons hstep _ =>
      obtain ⟨node, hget, hdigest⟩ := (apply_operation_ok_iff.mp hstep).expected_stored hop
      have hbody : working.body target_uid = some node.body := by
        rw [SourceGraph.body, hget]
        rfl
      obtain ⟨history, hhistory, hentered, hcurrent⟩ :=
        runs_tracked hforest hbefore target_uid node.body hbody
      refine ⟨working, node, history, hbefore, hget, hhistory, ?_, ?_⟩
      · rw [← hentered, ← hdigest]
        rfl
      · rw [← hcurrent]
        rfl
  constructor
  · intro hcurrent before op after hops target_uid expected hop history hhistory
    obtain ⟨working, node, history', hbefore, hget, hhistory', hentered, hnow⟩ := htarget hops hop
    rw [hhistory] at hhistory'
    cases hhistory'
    have hexpects : Expects patch graph before op target_uid expected working node :=
      ⟨⟨after, hops⟩, hop, hbefore, hget⟩
    rw [hentered, hnow]
    exact (hcurrent _ _ _ _ _ _ hexpects).1
  · rintro hunmoved before op target_uid expected working node ⟨⟨after, hops⟩, hop, hbefore, hget⟩
    obtain ⟨working', node', history, hbefore', hget', hhistory, hentered, hnow⟩ := htarget hops hop
    cases hbefore.unique hbefore'
    rw [hget] at hget'
    cases hget'
    have hsame := hunmoved before op after hops target_uid expected hop history hhistory
    rw [hentered, hnow] at hsame
    exact ⟨hsame, fun hne => absurd hsame.symm hne⟩

end Runs

/-! ## A patch that edits a node and then removes it -/

section Witness

attribute [local instance] fips180 F64.exact_display canonical_formats

/-- A root paragraph as an ingester commits it. -/
def paragraph : SourceNode :=
  committed_root "snode_00000000-0000-4000-8000-000000000001"
    "src_00000000-0000-4000-8000-000000000001" .Paragraph 0 none "Old."

/-- The revision it is the only node of. -/
def one_paragraph : SourceGraph := Store.empty.put paragraph

/-- It is a valid graph. -/
theorem one_paragraph_forest : Forest "text/html" one_paragraph := by
  refine forest_of_committed_roots (fun node hnode => ?_) ?_
  · exact ⟨_, _, _, _, _, _, Store.mem_values_singleton.mp hnode⟩
  · rw [one_paragraph, Store.values_singleton]
    exact List.Perm.refl [0]

/-- The paragraph's text is replaced, and then the paragraph is removed against the
digest of the text it no longer has. -/
def edit_then_remove : SourcePatchRecord :=
  patch_record "patch_00000000-0000-4000-8000-000000000001" "PATCH-1"
    "src_00000000-0000-4000-8000-000000000001" one_paragraph
    [.ReplaceContent 1 "snode_00000000-0000-4000-8000-000000000001"
        (content_digest .Paragraph "Old.") (some "New.") none,
      .Remove 2 "snode_00000000-0000-4000-8000-000000000001"
        (content_digest .Paragraph "Old.") .ReparentChildren]

/-- It is a loaded record. -/
theorem edit_then_remove_parsed : edit_then_remove.Parsed := by
  have huid : validate_snode_uid "snode_00000000-0000-4000-8000-000000000001" = .ok () := by
    decide +kernel
  refine patch_record_parsed (by decide +kernel) (by decide +kernel) (by decide +kernel)
    (by decide +kernel) (List.cons_ne_nil _ _) ?_ (by decide) (by decide) rfl
  intro operation hop
  rcases List.mem_pair.mp hop with rfl | rfl
  · rw [validate_operation, seq_ok_iff, seq_ok_iff, failIf_ok_iff]
    exact ⟨huid, fun h => (nomatch h.1), rfl⟩
  · exact huid

/-- The graph after the first operation. -/
def edited_paragraph : SourceGraph :=
  one_paragraph.modify "snode_00000000-0000-4000-8000-000000000001"
    (fun node => { node with
      canonical_text := (some "New.").getD node.canonical_text
      label := (none : Option String).or node.label })
    fun _ => rfl

private theorem edited_paragraph_get :
    edited_paragraph.get "snode_00000000-0000-4000-8000-000000000001" =
      some { paragraph with canonical_text := "New." } := by
  have hget : one_paragraph.get "snode_00000000-0000-4000-8000-000000000001" = some paragraph :=
    Store.mem_values.mp (Store.mem_values_singleton.mpr rfl)
  rw [edited_paragraph, Store.get_modify, if_pos rfl, hget]
  rfl

private theorem edit_step : Runs (apply_operation edit_then_remove) one_paragraph
    [.ReplaceContent 1 "snode_00000000-0000-4000-8000-000000000001"
      (content_digest .Paragraph "Old.") (some "New.") none] edited_paragraph := by
  have happlies : Applies edit_then_remove one_paragraph
      (.ReplaceContent 1 "snode_00000000-0000-4000-8000-000000000001"
        (content_digest .Paragraph "Old.") (some "New.") none) edited_paragraph :=
    .replace_content (Store.mem_values.mp (Store.mem_values_singleton.mpr rfl)) rfl
  exact .single (apply_operation_ok_iff.mpr happlies)

/-- The stored digest is still the old one, so the removal is accepted. -/
theorem edit_then_remove_applied : ∃ application,
    apply_patch one_paragraph edit_then_remove ⟨.of_bytes [], .of_bytes []⟩ "text/html" =
      .ok application := by
  have hremove : Applies edit_then_remove edited_paragraph
      (.Remove 2 "snode_00000000-0000-4000-8000-000000000001"
        (content_digest .Paragraph "Old.") .ReparentChildren) _ :=
    .remove_reparent edited_paragraph_get rfl
  have hempty : recompute_node_digests
      (reparent_children edited_paragraph "snode_00000000-0000-4000-8000-000000000001") =
      Store.empty := by
    refine Store.ext fun uid => ?_
    rw [get_recompute, Store.get_empty, Option.map_eq_none_iff, ← SourceGraph.body_eq_none,
      reparent_children_body]
    by_cases huid : "snode_00000000-0000-4000-8000-000000000001" = uid
    · rw [if_pos huid]
    · rw [if_neg huid, SourceGraph.body, edited_paragraph, Store.get_modify, if_neg huid,
        one_paragraph, Store.get_put]
      have hother : paragraph.uid ≠ uid := huid
      rw [if_neg hother]
      rfl
  refine ⟨_, apply_patch_ok_iff.mpr ⟨one_paragraph_forest, rfl, rfl, rfl, _,
    Runs.append_iff.mpr ⟨_, edit_step, .single (apply_operation_ok_iff.mpr hremove)⟩, ?_, rfl⟩⟩
  rw [hempty]
  exact forest_of_committed_roots (fun node hnode => by cases Store.mem_values.mp hnode)
    (by decide +kernel)

/-- The rule at this patch. -/
theorem apply_patch_preconditions_edit_then_remove :
    PreconditionsCurrent edit_then_remove one_paragraph ↔
      TargetsUnmoved edit_then_remove one_paragraph :=
  edit_then_remove_applied.elim fun _ hok => apply_patch_preconditions_iff hok

/-- **An accepted patch can remove a node against the digest of the text that it
has itself replaced.** -/
theorem apply_patch_removes_edited :
    ¬ ∀ (graph : SourceGraph) (patch : SourcePatchRecord) (bindings : PatchBindings)
        (media_type : String) (application : PatchApplication),
      patch.Parsed → apply_patch graph patch bindings media_type = .ok application →
      PreconditionsCurrent patch graph := by
  intro h
  obtain ⟨application, hok⟩ := edit_then_remove_applied
  have hcurrent := h _ _ _ _ _ edit_then_remove_parsed hok
  have hexpects : Expects edit_then_remove one_paragraph _ _
      "snode_00000000-0000-4000-8000-000000000001" (content_digest .Paragraph "Old.")
      edited_paragraph { paragraph with canonical_text := "New." } :=
    ⟨⟨[], rfl⟩, rfl, edit_step, edited_paragraph_get⟩
  have hsame : content_digest .Paragraph "Old." = content_digest .Paragraph "New." :=
    (hcurrent _ _ _ _ _ _ hexpects).1
  revert hsame
  decide +kernel

end Witness

end Evidence.Corpus
