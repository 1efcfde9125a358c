/-
The **succession layer**: finite sets of nodes in which each may replace one other.

Every node names at most one older node, its predecessor, and no two nodes name
the same one; following predecessors ends. Such a plane is a disjoint union of
chains. A head is a node that nobody replaces, and the chain of a head is its
`Climb.Lineage`, newest first, down to a node that replaces nothing. The lemmas
say that every node lies on the chain of exactly one head
(`Plane.exists_head`, `Plane.head_unique`), so that the chains of the heads list the
plane once (`Plane.chains_perm`), also class by class for a class that the links
respect (`Plane.class_chains_perm`). A class with one oldest node is one chain
(`Plane.class_unique_head`).

`Linked` is the chain itself, with no lookup: each node names exactly the next.
-/
import Mathlib.Data.List.Induction
import Mathlib.Data.List.Perm.Basic
import Evidence.Lib.Climb

set_option autoImplicit false

namespace Succession

open Climb

variable {κ ν γ : Type*}

/-! ## Linked lists of nodes -/

/-- Each node of the list names exactly the next one, and the last names none. -/
inductive Linked (key : ν → κ) (outs : ν → List κ) : List ν → Prop where
  | root {v : ν} (houts : outs v = []) : Linked key outs [v]
  | step {v w : ν} {vs : List ν} (houts : outs v = [key w]) (hrest : Linked key outs (w :: vs)) :
      Linked key outs (v :: w :: vs)

variable {key : ν → κ} {outs : ν → List κ}

theorem Linked.ne_nil {vs : List ν} (h : Linked key outs vs) : vs ≠ [] := by
  cases h <;> exact List.cons_ne_nil _ _

theorem Linked.length_outs {vs : List ν} (h : Linked key outs vs) :
    ∀ v ∈ vs, (outs v).length ≤ 1 := by
  induction h with
  | root houts =>
    intro v hv
    rw [List.mem_singleton.mp hv, houts]
    exact Nat.zero_le 1
  | step houts _ ih =>
    intro v hv
    rcases List.mem_cons.mp hv with rfl | hv
    · exact Nat.le_of_eq (houts ▸ List.length_singleton)
    · exact ih v hv

/-- What a node of a linked list names stands behind it, never in front. -/
theorem Linked.named_mem {v : ν} {vs : List ν} (h : Linked key outs (v :: vs)) {u : ν}
    (hu : u ∈ v :: vs) {k : κ} (hk : k ∈ outs u) : ∃ w ∈ vs, key w = k := by
  induction vs generalizing v with
  | nil =>
    cases h with
    | root houts =>
      rw [List.mem_singleton.mp hu, houts] at hk
      exact absurd hk List.not_mem_nil
  | cons w ws ih =>
    cases h with
    | step houts hrest =>
      rcases List.mem_cons.mp hu with rfl | hu
      · rw [houts, List.mem_singleton] at hk
        exact ⟨w, List.mem_cons_self, hk.symm⟩
      · obtain ⟨x, hx, hkey⟩ := ih hrest hu
        exact ⟨x, List.mem_cons_of_mem w hx, hkey⟩

theorem Linked.of_append {us vs : List ν} {v : ν} (h : Linked key outs (us ++ v :: vs)) :
    Linked key outs (v :: vs) := by
  induction us with
  | nil => exact h
  | cons u us ih =>
    refine ih ?_
    cases us with
    | nil => cases h with | step _ hrest => exact hrest
    | cons w ws => cases h with | step _ hrest => exact hrest

/-- Only the last node names none. -/
theorem Linked.root_unique {vs : List ν} (h : Linked key outs vs) {v w : ν} (hv : v ∈ vs)
    (hw : w ∈ vs) (houtsv : outs v = []) (houtsw : outs w = []) : v = w := by
  induction h with
  | root _ => rw [List.mem_singleton.mp hv, List.mem_singleton.mp hw]
  | step houts _ ih =>
    rcases List.mem_cons.mp hv with rfl | hv
    · exact absurd (houts.symm.trans houtsv) (List.cons_ne_nil _ _)
    · rcases List.mem_cons.mp hw with rfl | hw
      · exact absurd (houts.symm.trans houtsw) (List.cons_ne_nil _ _)
      · exact ih hv hw

/-- The first node is named by none, when keys are distinct. -/
theorem Linked.head_unnamed {v : ν} {vs : List ν} (h : Linked key outs (v :: vs))
    (hnodup : ((v :: vs).map key).Nodup) : ∀ w ∈ v :: vs, key v ∉ outs w := by
  intro w hw hk
  obtain ⟨x, hx, hkey⟩ := h.named_mem hw hk
  rw [List.map_cons, List.nodup_cons] at hnodup
  exact hnodup.1 (hkey ▸ List.mem_map_of_mem hx)

/-- No node is named twice, when keys are distinct. -/
theorem Linked.forkless {vs : List ν} (h : Linked key outs vs) (hnodup : (vs.map key).Nodup)
    {v w : ν} (hv : v ∈ vs) (hw : w ∈ vs) {k : κ} (hkv : k ∈ outs v) (hkw : k ∈ outs w) :
    v = w := by
  induction h with
  | root _ => rw [List.mem_singleton.mp hv, List.mem_singleton.mp hw]
  | @step u x xs houts hrest ih =>
    have htail : ((x :: xs).map key).Nodup := (List.nodup_cons.mp hnodup).2
    have hother : ∀ y ∈ x :: xs, k ∈ outs y → k ∉ outs u := by
      intro y hy hky hku
      rw [houts, List.mem_singleton] at hku
      exact hrest.head_unnamed htail y hy (hku ▸ hky)
    rcases List.mem_cons.mp hv with rfl | hvtail
    · rcases List.mem_cons.mp hw with rfl | hwtail
      · rfl
      · exact absurd hkv (hother w hwtail hkw)
    · rcases List.mem_cons.mp hw with rfl | hwtail
      · exact absurd hkw (hother v hvtail hkv)
      · exact ih htail hvtail hwtail

theorem Linked.lineage {get : κ → Option ν} {v : ν} {vs : List ν} (h : Linked key outs (v :: vs))
    (hget : ∀ w ∈ v :: vs, get (key w) = some w) :
    Lineage get (fun w => (outs w).head?) (some (key v)) (v :: vs) := by
  induction vs generalizing v with
  | nil =>
    cases h with
    | root houts =>
      refine .step (hget v List.mem_cons_self) ?_
      simp only [houts, List.head?_nil]
      exact .root
  | cons w ws ih =>
    cases h with
    | step houts hrest =>
      refine .step (hget v List.mem_cons_self) ?_
      simp only [houts, List.head?_cons]
      exact ih hrest fun u hu => hget u (List.mem_cons_of_mem v hu)

theorem linked_of_lineage {get : κ → Option ν} (hkey : ∀ k v, get k = some v → key v = k)
    (houts : ∀ k v, get k = some v → (outs v).length ≤ 1) {k : κ} {vs : List ν}
    (h : Lineage get (fun w => (outs w).head?) (some k) vs) : Linked key outs vs := by
  induction vs generalizing k with
  | nil => exact nomatch h.of_nil
  | cons v vs ih =>
    obtain ⟨k', heq, hget, hup⟩ := h.of_cons
    cases vs with
    | nil =>
      refine .root ?_
      exact List.head?_eq_none_iff.mp hup.of_nil
    | cons w ws =>
      obtain ⟨k'', hhead, hget', -⟩ := hup.of_cons
      refine .step ?_ (ih (hhead ▸ hup))
      have hlen := houts k' v hget
      rw [hkey k'' w hget']
      match hv : outs v, hlen with
      | [], _ => simp [hv] at hhead
      | [j], _ => simpa [hv] using hhead

/-! ## Planes -/

/-- The nodes of a plane: each is found under its key, no two replace the same node,
and following predecessors ends. -/
structure Plane (get : κ → Option ν) (up : ν → Option κ) (key : ν → κ) (nodes : List ν) :
    Prop where
  get_iff : ∀ {k : κ} {v : ν}, get k = some v ↔ v ∈ nodes ∧ key v = k
  nodup : nodes.Nodup
  forkless : ∀ v ∈ nodes, ∀ w ∈ nodes, ∀ k, up v = some k → up w = some k → v = w
  grounded : ∀ v ∈ nodes, ∃ vs, Lineage get up (some (key v)) vs

/-- The walk from the node under `k` down its predecessors, newest first. -/
def chain [DecidableEq κ] (get : κ → Option ν) (up : ν → Option κ) (fuel : ℕ) (k : κ) : List ν :=
  (climb get up fuel [] (some k)).1

def Head (up : ν → Option κ) (key : ν → κ) (nodes : List ν) (v : ν) : Prop :=
  ∀ w ∈ nodes, up w ≠ some (key v)

namespace Plane

variable {get : κ → Option ν} {up : ν → Option κ} {nodes : List ν}

theorem get_key (h : Plane get up key nodes) {v : ν} (hv : v ∈ nodes) : get (key v) = some v :=
  h.get_iff.mpr ⟨hv, rfl⟩

theorem key_of_get (h : Plane get up key nodes) (k : κ) (v : ν) (hget : get k = some v) :
    key v = k :=
  (h.get_iff.mp hget).2

theorem mem_of_lineage (h : Plane get up key nodes) {o : Option κ} {vs : List ν}
    (hvs : Lineage get up o vs) {v : ν} (hv : v ∈ vs) : v ∈ nodes :=
  (h.get_iff.mp (hvs.get_key h.key_of_get v hv)).1

theorem first_of_lineage (h : Plane get up key nodes) {v u : ν} {vs : List ν} (hv : v ∈ nodes)
    (hvs : Lineage get up (some (key v)) (u :: vs)) : u = v := by
  obtain ⟨k, hk, hget, -⟩ := hvs.of_cons
  rw [← Option.some.inj hk, h.get_key hv] at hget
  exact (Option.some.inj hget).symm

theorem exists_lineage (h : Plane get up key nodes) {v : ν} (hv : v ∈ nodes) :
    ∃ vs, Lineage get up (some (key v)) (v :: vs) := by
  obtain ⟨vs, hvs⟩ := h.grounded v hv
  cases vs with
  | nil => exact nomatch hvs.of_nil
  | cons u vs => exact ⟨vs, h.first_of_lineage hv hvs ▸ hvs⟩

theorem length_le (h : Plane get up key nodes) {o : Option κ} {vs : List ν}
    (hvs : Lineage get up o vs) : vs.length ≤ nodes.length := by
  have hle := hvs.length_le h.key_of_get (nodes.map key) fun k v hget =>
    List.mem_map.mpr ⟨v, h.get_iff.mp hget⟩
  rwa [List.length_map] at hle

theorem up_of_lineage (h : Plane get up key nodes) {o : Option κ} {vs ws : List ν} {u v : ν}
    (hvs : Lineage get up o (vs ++ u :: v :: ws)) : up u = some (key v) := by
  obtain ⟨k, hk, hget, -⟩ := hvs.of_append.of_cons
  rw [hk, h.key_of_get k v hget]

/-- **Every node lies on the chain of a head.** Going up from a node lengthens its
lineage, which the plane bounds. -/
theorem exists_head (h : Plane get up key nodes) {v : ν} (hv : v ∈ nodes) :
    ∃ head ∈ nodes, Head up key nodes head ∧
      ∃ vs, Lineage get up (some (key head)) vs ∧ v ∈ vs := by
  have hclimb : ∀ (n : ℕ) (v : ν) (vs : List ν), v ∈ nodes →
      Lineage get up (some (key v)) (v :: vs) → nodes.length ≤ (v :: vs).length + n →
      ∃ head ∈ nodes, Head up key nodes head ∧
        ∃ ws, Lineage get up (some (key head)) ws ∧ v ∈ ws := by
    intro n
    induction n with
    | zero =>
      intro v vs hv hvs hlen
      refine ⟨v, hv, fun w hw hup => ?_, v :: vs, hvs, List.mem_cons_self⟩
      have hlong : Lineage get up (some (key w)) (w :: v :: vs) :=
        .step (h.get_key hw) (hup ▸ hvs)
      have hle := h.length_le hlong
      simp only [List.length_cons] at hle hlen
      omega
    | succ n ih =>
      intro v vs hv hvs hlen
      by_cases hhead : Head up key nodes v
      · exact ⟨v, hv, hhead, v :: vs, hvs, List.mem_cons_self⟩
      · obtain ⟨w, hw, hup⟩ : ∃ w ∈ nodes, up w = some (key v) := by
          simpa only [Head, not_forall, ne_eq, not_not, exists_prop] using hhead
        have hlong : Lineage get up (some (key w)) (w :: v :: vs) :=
          .step (h.get_key hw) (hup ▸ hvs)
        obtain ⟨head, hmem, hhead, ws, hws, hwmem⟩ :=
          ih w (v :: vs) hw hlong (by simp only [List.length_cons] at hlen ⊢; omega)
        obtain ⟨as, bs, rfl⟩ := List.append_of_mem hwmem
        have hbs : bs = v :: vs := hws.of_append.unique (hup ▸ hvs)
        refine ⟨head, hmem, hhead, _, hws, ?_⟩
        rw [hbs]
        exact List.mem_append_right as (List.mem_cons_of_mem w List.mem_cons_self)
  obtain ⟨vs, hvs⟩ := h.exists_lineage hv
  exact hclimb nodes.length v vs hv hvs (Nat.le_add_left _ _)

/-- **A node lies on the chain of one head.** Two chains that meet agree in front of
the meeting point, since no node is replaced twice. -/
theorem head_unique (h : Plane get up key nodes) {v head head' : ν}
    (hhead : Head up key nodes head) (hhead' : Head up key nodes head') {vs vs' : List ν}
    (hvs : Lineage get up (some (key head)) vs) (hvs' : Lineage get up (some (key head')) vs')
    (hv : v ∈ vs) (hv' : v ∈ vs') (hmem : head ∈ nodes) (hmem' : head' ∈ nodes) :
    head = head' := by
  obtain ⟨as, bs, rfl⟩ := List.append_of_mem hv
  induction as using List.reverseRecOn generalizing v bs with
  | nil =>
    -- `v` is the first head, so nothing stands in front of it on the other chain
    obtain rfl := h.first_of_lineage hmem hvs
    obtain ⟨as', bs', rfl⟩ := List.append_of_mem hv'
    rcases List.eq_nil_or_concat as' with rfl | ⟨cs, u, rfl⟩
    · exact h.first_of_lineage hmem' hvs'
    · rw [List.concat_eq_append, List.append_assoc] at hvs'
      have hu := h.mem_of_lineage hvs' (List.mem_append_right cs List.mem_cons_self)
      exact absurd (h.up_of_lineage hvs') (hhead u hu)
  | append_singleton as u ih =>
    obtain ⟨as', bs', rfl⟩ := List.append_of_mem hv'
    rw [List.append_assoc] at hvs hv
    have hu := h.mem_of_lineage hvs (List.mem_append_right as List.mem_cons_self)
    have hup := h.up_of_lineage hvs
    rcases List.eq_nil_or_concat as' with rfl | ⟨cs, u', rfl⟩
    · obtain rfl := h.first_of_lineage hmem' hvs'
      exact absurd hup (hhead' u hu)
    · rw [List.concat_eq_append, List.append_assoc] at hvs'
      have hu' := h.mem_of_lineage hvs' (List.mem_append_right cs List.mem_cons_self)
      obtain rfl := h.forkless u hu u' hu' _ hup (h.up_of_lineage hvs')
      refine ih ?_ (v :: bs) hvs (List.mem_append_right as List.mem_cons_self)
      rw [List.concat_eq_append, List.append_assoc]
      exact List.mem_append_right cs List.mem_cons_self

/-! ## The chains of the heads -/

variable [DecidableEq κ]

theorem lineage_chain (h : Plane get up key nodes) {v : ν} (hv : v ∈ nodes) :
    Lineage get up (some (key v)) (chain get up nodes.length (key v)) := by
  obtain ⟨vs, hvs⟩ := h.grounded v hv
  have hclimb : climb get up nodes.length [] (some (key v)) = (vs, .root) :=
    climb_of_lineage h.key_of_get hvs (h.length_le hvs) fun _ _ => List.not_mem_nil
  rw [chain, hclimb]
  exact hvs

theorem chain_nodup (h : Plane get up key nodes) {v : ν} (hv : v ∈ nodes) :
    (chain get up nodes.length (key v)).Nodup :=
  ((h.lineage_chain hv).nodup h.key_of_get).of_map key

theorem mem_chain_self (h : Plane get up key nodes) {v : ν} (hv : v ∈ nodes) :
    v ∈ chain get up nodes.length (key v) := by
  obtain ⟨vs, hvs⟩ := h.exists_lineage hv
  rw [(h.lineage_chain hv).unique hvs]
  exact List.mem_cons_self

theorem exists_root (h : Plane get up key nodes) {v : ν} (hv : v ∈ nodes) :
    ∃ root ∈ chain get up nodes.length (key v), up root = none := by
  have hline := h.lineage_chain hv
  rcases List.eq_nil_or_concat (chain get up nodes.length (key v)) with hnil | ⟨vs, root, heq⟩
  · exact absurd (h.mem_chain_self hv) (hnil ▸ List.not_mem_nil)
  · rw [List.concat_eq_append] at heq
    refine ⟨root, heq ▸ List.mem_append_right vs List.mem_cons_self, ?_⟩
    rw [heq] at hline
    exact hline.of_append.of_nil

variable [DecidablePred (Head up key nodes)]

/-- **The chains of the heads list the plane once.** -/
theorem chains_perm (h : Plane get up key nodes) :
    ((nodes.filter fun v => Head up key nodes v).flatMap fun head =>
      chain get up nodes.length (key head)).Perm nodes := by
  have hheads : ∀ {v : ν}, v ∈ nodes.filter (fun v => Head up key nodes v) →
      v ∈ nodes ∧ Head up key nodes v := by
    intro v hv
    rw [List.mem_filter, decide_eq_true_eq] at hv
    exact hv
  refine (List.perm_ext_iff_of_nodup ?_ h.nodup).mpr fun v => ?_
  · rw [List.nodup_flatMap]
    refine ⟨fun head hhead => h.chain_nodup (hheads hhead).1, ?_⟩
    refine (h.nodup.filter _).imp_of_mem fun {v w} hv hw hne u hu hu' => hne ?_
    obtain ⟨hvmem, hvhead⟩ := hheads hv
    obtain ⟨hwmem, hwhead⟩ := hheads hw
    exact h.head_unique hvhead hwhead (h.lineage_chain hvmem) (h.lineage_chain hwmem) hu hu' hvmem
      hwmem
  · rw [List.mem_flatMap]
    constructor
    · rintro ⟨head, hhead, hv⟩
      exact h.mem_of_lineage (h.lineage_chain (hheads hhead).1) hv
    · intro hv
      obtain ⟨head, hmem, hhead, vs, hvs, hvmem⟩ := h.exists_head hv
      refine ⟨head, List.mem_filter.mpr ⟨hmem, decide_eq_true hhead⟩, ?_⟩
      rwa [(h.lineage_chain hmem).unique hvs]

/-! ## Classes -/

variable {cls : ν → γ}

omit [DecidablePred (Head up key nodes)] [DecidableEq κ] in
/-- What the links respect is constant along a lineage. -/
theorem class_of_lineage (h : Plane get up key nodes)
    (hcls : ∀ v ∈ nodes, ∀ w ∈ nodes, up v = some (key w) → cls v = cls w) {v : ν} {vs : List ν}
    (hvs : Lineage get up (some (key v)) vs) (hv : v ∈ nodes) : ∀ w ∈ vs, cls w = cls v := by
  induction vs generalizing v with
  | nil => exact fun w hw => absurd hw List.not_mem_nil
  | cons u us ih =>
    obtain rfl := h.first_of_lineage hv hvs
    obtain ⟨-, -, -, hup⟩ := hvs.of_cons
    intro w hw
    rcases List.mem_cons.mp hw with rfl | hw
    · rfl
    · cases us with
      | nil => exact absurd hw List.not_mem_nil
      | cons x xs =>
        obtain ⟨j, hj, hgetx, -⟩ := hup.of_cons
        obtain ⟨hx, hkey⟩ := h.get_iff.mp hgetx
        have hlink : up u = some (key x) := hj.trans (congrArg some hkey.symm)
        rw [hlink] at hup
        exact (ih hup hx w hw).trans (hcls u hv x hx hlink).symm

/-- **The chains of the heads of a class list the class once.** -/
theorem class_chains_perm [DecidableEq γ] (h : Plane get up key nodes)
    (hcls : ∀ v ∈ nodes, ∀ w ∈ nodes, up v = some (key w) → cls v = cls w) (c : γ) :
    (((nodes.filter fun v => Head up key nodes v).filter fun v => cls v = c).flatMap fun head =>
      chain get up nodes.length (key head)).Perm (nodes.filter fun v => cls v = c) := by
  have hchain : ∀ v ∈ nodes, (chain get up nodes.length (key v)).filter (fun w => cls w = c) =
      if cls v = c then chain get up nodes.length (key v) else [] := by
    intro v hv
    have hconst := h.class_of_lineage hcls (h.lineage_chain hv) hv
    split
    · next hc =>
      exact List.filter_eq_self.mpr fun w hw => decide_eq_true ((hconst w hw).trans hc)
    · next hc =>
      refine List.filter_eq_nil_iff.mpr fun w hw hwc => hc ?_
      rw [← hconst w hw]
      exact of_decide_eq_true hwc
  have hsplit : ∀ l : List ν, (∀ v ∈ l, v ∈ nodes) →
      (l.filter fun v => cls v = c).flatMap (fun head => chain get up nodes.length (key head)) =
        (l.flatMap fun head => chain get up nodes.length (key head)).filter fun v => cls v = c := by
    intro l hl
    induction l with
    | nil => rfl
    | cons v l ih =>
      rw [List.flatMap_cons, List.filter_append, hchain v (hl v List.mem_cons_self),
        ← ih fun w hw => hl w (List.mem_cons_of_mem v hw)]
      by_cases hc : cls v = c
      · simp only [List.filter_cons, hc, decide_true, if_true, List.flatMap_cons]
      · simp only [List.filter_cons, hc, decide_false, Bool.false_eq_true, if_false,
          List.nil_append]
  rw [hsplit _ fun v hv => List.mem_of_mem_filter hv]
  exact h.chains_perm.filter _

omit [DecidablePred (Head up key nodes)] in
/-- **A class whose oldest node is unique has one head.** The chains of two heads
would both end at the oldest node. -/
theorem class_unique_head (h : Plane get up key nodes)
    (hcls : ∀ v ∈ nodes, ∀ w ∈ nodes, up v = some (key w) → cls v = cls w) {c : γ}
    (hroot : ∀ v ∈ nodes, ∀ w ∈ nodes, cls v = c → cls w = c → up v = none → up w = none → v = w)
    {head head' : ν} (hmem : head ∈ nodes) (hmem' : head' ∈ nodes)
    (hhead : Head up key nodes head) (hhead' : Head up key nodes head') (hc : cls head = c)
    (hc' : cls head' = c) : head = head' := by
  obtain ⟨root, hrmem, hrnone⟩ := h.exists_root hmem
  obtain ⟨root', hrmem', hrnone'⟩ := h.exists_root hmem'
  have hline := h.lineage_chain hmem
  have hline' := h.lineage_chain hmem'
  obtain rfl : root = root' :=
    hroot root (h.mem_of_lineage hline hrmem) root' (h.mem_of_lineage hline' hrmem')
      ((h.class_of_lineage hcls hline hmem root hrmem).trans hc)
      ((h.class_of_lineage hcls hline' hmem' root' hrmem').trans hc') hrnone hrnone'
  exact h.head_unique hhead hhead' hline hline' hrmem hrmem' hmem hmem'

end Plane

end Succession
