/-
The **keyed-queue layer**: serving requests from first-in first-out queues.

Every key has a queue of values. Requests come with a key each, in order; a
request takes the oldest value of its key's queue, and a fresh value when the
queue is empty. `serve` is that process.

What a request gets depends on the queue of its key and on the requests for the
same key before it, and on nothing else. So when requests and queued values are
two listings of the same items, everyone is served from the queues
(`serve_served`), and everyone gets back its own value exactly when the two
listings agree on the order within every key (`serve_eq_map_iff`).
-/
import Mathlib.Data.List.Forall2
import Mathlib.Logic.Function.Basic

set_option autoImplicit false

namespace Queues

variable {ι κ ν : Type*} [DecidableEq κ]

/-- Serve the requests in order. `n` fresh values have been handed out before;
the result is the value of each request and the number handed out after. -/
def serve (fresh : ℕ → ν) : ℕ → (κ → List ν) → List κ → List ν × ℕ
  | n, _, [] => ([], n)
  | n, queues, k :: ks =>
    match queues k with
    | v :: rest =>
      let served := serve fresh n (Function.update queues k rest) ks
      (v :: served.1, served.2)
    | [] =>
      let served := serve fresh (n + 1) queues ks
      (fresh n :: served.1, served.2)

@[simp] theorem length_serve (fresh : ℕ → ν) (n : ℕ) (queues : κ → List ν) (ks : List κ) :
    (serve fresh n queues ks).1.length = ks.length := by
  induction ks generalizing n queues with
  | nil => rfl
  | cons k ks ih =>
    rw [serve]
    split
    · simp only [List.length_cons, ih]
    · simp only [List.length_cons, ih]

theorem serve_of_empty (fresh : ℕ → ν) (n : ℕ) {queues : κ → List ν} (hempty : ∀ k, queues k = [])
    (ks : List κ) :
    (serve fresh n queues ks).1 = (List.range ks.length).map fun i => fresh (n + i) := by
  induction ks generalizing n with
  | nil => rfl
  | cons k ks ih =>
    simp only [serve, hempty k]
    rw [ih, List.length_cons, List.range_succ_eq_map, List.map_cons, List.map_map, Nat.add_zero]
    refine congrArg _ (List.map_congr_left fun i _ => ?_)
    rw [Function.comp_apply, Nat.succ_eq_add_one, Nat.add_assoc, Nat.add_comm 1]

/-- **Nobody is turned away** while no key is requested more often than its queue
is long: every request gets a value queued under its key, and no fresh value is
handed out. -/
theorem serve_served (fresh : ℕ → ν) (n : ℕ) {queues : κ → List ν} {ks : List κ}
    (h : ∀ k, ks.count k ≤ (queues k).length) :
    List.Forall₂ (fun k v => v ∈ queues k) ks (serve fresh n queues ks).1 ∧
      (serve fresh n queues ks).2 = n := by
  induction ks generalizing queues with
  | nil => exact ⟨.nil, rfl⟩
  | cons k ks ih =>
    cases hq : queues k with
    | nil =>
      have hk := h k
      rw [hq, List.count_cons_self] at hk
      simp at hk
    | cons v rest =>
      have hrest : ∀ j, ks.count j ≤ (Function.update queues k rest j).length := by
        intro j
        have hj := h j
        by_cases hjk : j = k
        · subst hjk
          rw [hq, List.count_cons_self, List.length_cons] at hj
          rw [Function.update_self]
          omega
        · rw [List.count_cons_of_ne (Ne.symm hjk)] at hj
          rw [Function.update_of_ne hjk]
          exact hj
      obtain ⟨hall, hcount⟩ := ih hrest
      simp only [serve, hq]
      refine ⟨.cons (by rw [hq]; exact List.mem_cons_self) (hall.imp ?_), hcount⟩
      intro j w hw
      by_cases hjk : j = k
      · subst hjk
        rw [Function.update_self] at hw
        rw [hq]
        exact List.mem_cons_of_mem _ hw
      · rwa [Function.update_of_ne hjk] at hw

/-- **No queued value is handed out twice**, when it is queued once. The queued values
among those handed out are the ones `held` tells from the fresh ones. -/
theorem serve_nodup (fresh : ℕ → ν) (held : ν → Bool) (n : ℕ) (queues : κ → List ν) (ks : List κ)
    (hfresh : ∀ i, held (fresh i) = false) (hnodup : ∀ k, (queues k).Nodup)
    (hdisjoint : ∀ j k, j ≠ k → (queues j).Disjoint (queues k)) :
    ((serve fresh n queues ks).1.filter held).Nodup ∧
      ∀ v ∈ (serve fresh n queues ks).1, held v = true → ∃ k, v ∈ queues k := by
  induction ks generalizing n queues with
  | nil => exact ⟨.nil, fun v hv => (nomatch hv)⟩
  | cons k ks ih =>
    cases hq : queues k with
    | nil =>
      obtain ⟨hrest, hqueued⟩ := ih (n + 1) queues hnodup hdisjoint
      simp only [serve, hq, List.filter_cons, hfresh n, Bool.false_eq_true, if_false]
      refine ⟨hrest, fun v hv hheld => ?_⟩
      rcases List.mem_cons.mp hv with rfl | hv
      · rw [hfresh n] at hheld
        cases hheld
      · exact hqueued v hv hheld
    | cons v rest =>
      have hself := hnodup k
      rw [hq, List.nodup_cons] at hself
      have hmem : ∀ j w, w ∈ Function.update queues k rest j → w ∈ queues j ∧ w ≠ v := by
        intro j w hw
        by_cases hjk : j = k
        · subst hjk
          rw [Function.update_self] at hw
          rw [hq]
          exact ⟨List.mem_cons_of_mem v hw, fun heq => hself.1 (heq ▸ hw)⟩
        · rw [Function.update_of_ne hjk] at hw
          refine ⟨hw, fun heq => ?_⟩
          exact hdisjoint j k hjk hw (by rw [hq, heq]; exact List.mem_cons_self)
      have hnodup' : ∀ j, (Function.update queues k rest j).Nodup := by
        intro j
        by_cases hjk : j = k
        · subst hjk
          rw [Function.update_self]
          exact hself.2
        · rw [Function.update_of_ne hjk]
          exact hnodup j
      obtain ⟨hrest, hqueued⟩ := ih n _ hnodup' fun i j hij w hi hj =>
        hdisjoint i j hij (hmem i w hi).1 (hmem j w hj).1
      simp only [serve, hq, List.filter_cons]
      refine ⟨?_, fun w hw hheld => ?_⟩
      · split
        · refine List.nodup_cons.mpr ⟨fun hv => ?_, hrest⟩
          obtain ⟨hv, hheld⟩ := List.mem_filter.mp hv
          obtain ⟨j, hj⟩ := hqueued v hv hheld
          exact (hmem j v hj).2 rfl
        · exact hrest
      · rcases List.mem_cons.mp hw with rfl | hw
        · exact ⟨k, by rw [hq]; exact List.mem_cons_self⟩
        · obtain ⟨j, hj⟩ := hqueued w hw hheld
          exact ⟨j, (hmem j w hj).1⟩

/-- **Every key is served from the front of its queue**: of the values handed out for a key, the
queued ones are the oldest of its queue, as many as there were requests for it. -/
theorem serve_taken (fresh : ℕ → ν) (held : ν → Bool) (n : ℕ) (queues : κ → List ν) (ks : List κ)
    (hfresh : ∀ i, held (fresh i) = false) (hheld : ∀ k, ∀ v ∈ queues k, held v = true) (k : κ) :
    (((ks.zip (serve fresh n queues ks).1).filter fun request => request.1 = k).map
        Prod.snd).filter held = (queues k).take (ks.count k) := by
  induction ks generalizing n queues with
  | nil => rfl
  | cons j ks ih =>
    cases hq : queues j with
    | nil =>
      have hrest := ih (n + 1) queues hheld
      simp only [serve, hq, List.zip_cons_cons, List.filter_cons]
      by_cases hjk : j = k
      · subst hjk
        rw [hq, List.take_nil] at hrest
        simp only [decide_true, if_true, List.map_cons, List.filter_cons, hfresh n,
          Bool.false_eq_true, if_false, hrest, hq, List.take_nil]
      · simp only [hjk, decide_false, Bool.false_eq_true, if_false, hrest,
          List.count_cons_of_ne hjk]
    | cons v rest =>
      have hupdate : ∀ i, ∀ w ∈ Function.update queues j rest i, held w = true := by
        intro i w hw
        by_cases hij : i = j
        · subst hij
          rw [Function.update_self] at hw
          exact hheld i w (hq ▸ List.mem_cons_of_mem v hw)
        · rw [Function.update_of_ne hij] at hw
          exact hheld i w hw
      have hrest := ih n _ hupdate
      simp only [serve, hq, List.zip_cons_cons, List.filter_cons]
      by_cases hjk : j = k
      · subst hjk
        rw [Function.update_self] at hrest
        have hv : held v = true := hheld j v (hq ▸ List.mem_cons_self)
        simp only [decide_true, if_true, List.map_cons, List.filter_cons, hv, hrest, hq,
          List.count_cons_self, List.take_succ_cons]
      · rw [Function.update_of_ne (Ne.symm hjk)] at hrest
        simp only [hjk, decide_false, Bool.false_eq_true, if_false, hrest,
          List.count_cons_of_ne hjk]

theorem serve_map_eq {γ : Type*} {fresh fresh' : ℕ → ν} {f : ν → γ}
    (hfresh : ∀ i j, f (fresh i) = f (fresh' j)) (n m : ℕ) (queues : κ → List ν) (ks : List κ) :
    (serve fresh n queues ks).1.map f = (serve fresh' m queues ks).1.map f := by
  induction ks generalizing n m queues with
  | nil => rfl
  | cons k ks ih =>
    cases hq : queues k with
    | nil => simp only [serve, hq, List.map_cons, hfresh n m, ih (n + 1) (m + 1)]
    | cons v rest => simp only [serve, hq, List.map_cons, ih n m]

/-- **Everyone gets its own value exactly when its queue brings it up in time**:
the items of every key, in the order of their requests, stand at the front of
the key's queue. -/
theorem serve_eq_map_iff {fresh : ℕ → ν} {n : ℕ} {queues : κ → List ν} (key : ι → κ) (own : ι → ν)
    {items : List ι} (h : ∀ k, (items.map key).count k ≤ (queues k).length) :
    (serve fresh n queues (items.map key)).1 = items.map own ↔
      ∀ k, (items.filter fun i => key i = k).map own <+: queues k := by
  induction items generalizing queues with
  | nil => simp [serve]
  | cons i items ih =>
    cases hq : queues (key i) with
    | nil =>
      have hk := h (key i)
      rw [hq, List.map_cons, List.count_cons_self] at hk
      simp at hk
    | cons v rest =>
      have hrest : ∀ j, (items.map key).count j ≤ (Function.update queues (key i) rest j).length := by
        intro j
        have hj := h j
        rw [List.map_cons] at hj
        by_cases hji : j = key i
        · subst hji
          rw [hq, List.count_cons_self, List.length_cons] at hj
          rw [Function.update_self]
          omega
        · rw [List.count_cons_of_ne (Ne.symm hji)] at hj
          rw [Function.update_of_ne hji]
          exact hj
      simp only [List.map_cons, serve, hq, List.cons.injEq, ih hrest]
      constructor
      · rintro ⟨rfl, hall⟩ k
        by_cases hk : key i = k
        · subst hk
          have hself := hall (key i)
          rw [Function.update_self] at hself
          simp only [List.filter_cons, decide_true, if_true, List.map_cons, hq]
          exact List.cons_prefix_cons.mpr ⟨rfl, hself⟩
        · have hother := hall k
          rw [Function.update_of_ne (Ne.symm hk)] at hother
          simpa only [List.filter_cons, hk, decide_false, Bool.false_eq_true, if_false] using hother
      · intro hall
        have hself := hall (key i)
        simp only [List.filter_cons, decide_true, if_true, List.map_cons, hq] at hself
        obtain ⟨hv, hprefix⟩ := List.cons_prefix_cons.mp hself
        refine ⟨hv.symm, ?_⟩
        intro k
        by_cases hk : k = key i
        · subst hk
          rw [Function.update_self]
          exact hprefix
        · have hother := hall k
          rw [Function.update_of_ne hk]
          simpa only [List.filter_cons, Ne.symm hk, decide_false, Bool.false_eq_true, if_false]
            using hother

end Queues
