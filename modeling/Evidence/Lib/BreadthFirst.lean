/-
The **breadth-first layer**: a walk over a graph that marks a key when it is queued.

The front of a queue is popped, and each of its successors that was not seen before is
marked, found and queued. A step moves keys from the unseen to the queue, so the pops are
bounded by the targets of all edges (`measure_foldl_meet`); when the queue is empty the
keys seen are closed under successors, so the keys found are those other than the root
that a path of at least one edge reaches (`run_start`), each of them once.
-/
import Mathlib.Data.Finset.Card
import Mathlib.Data.List.Nodup
import Mathlib.Logic.Relation

set_option autoImplicit false

namespace BreadthFirst

variable {κ : Type*} [DecidableEq κ]

/-- A walk: the queue, the keys seen, and the keys found, in their order. -/
structure Walk (κ : Type*) where
  queue : List κ
  seen : Finset κ
  found : List κ

/-- A walk that has yet to leave its root. -/
def Walk.start (root : κ) : Walk κ := ⟨[root], {root}, []⟩

/-- A successor that was not seen before is marked, found and queued. -/
def Walk.meet (w : Walk κ) (child : κ) : Walk κ :=
  if child ∈ w.seen then w
  else ⟨w.queue ++ [child], insert child w.seen, w.found ++ [child]⟩

/-- Walk until the queue is empty, over at most `fuel` keys. -/
def run (next : κ → List κ) : ℕ → Walk κ → Option (List κ)
  | _, ⟨[], _, found⟩ => some found
  | 0, ⟨_ :: _, _, _⟩ => none
  | fuel + 1, ⟨k :: queue, seen, found⟩ =>
    run next fuel ((next k).foldl Walk.meet ⟨queue, seen, found⟩)

/-! ## One key's successors -/

/-- **What a pass over successors does**: those that were not seen are appended, each once,
to the queue and to the keys found, and all of them have been seen. -/
theorem foldl_meet (children : List κ) (w : Walk κ) :
    ∃ fresh, (children.foldl Walk.meet w).queue = w.queue ++ fresh ∧
      (children.foldl Walk.meet w).found = w.found ++ fresh ∧
      (∀ k, k ∈ (children.foldl Walk.meet w).seen ↔ k ∈ w.seen ∨ k ∈ children) ∧
      fresh.Nodup ∧ ∀ k, k ∈ fresh ↔ k ∈ children ∧ k ∉ w.seen := by
  induction children generalizing w with
  | nil =>
    refine ⟨[], ?_, ?_, ?_, List.nodup_nil, ?_⟩
    · rw [List.foldl_nil, List.append_nil]
    · rw [List.foldl_nil, List.append_nil]
    · intro k
      rw [List.foldl_nil, or_iff_left List.not_mem_nil]
    · intro k
      exact iff_of_false List.not_mem_nil fun h => List.not_mem_nil h.1
  | cons child children ih =>
    rw [List.foldl_cons]
    by_cases hseen : child ∈ w.seen
    · -- a successor seen before changes nothing
      have hmeet : w.meet child = w := if_pos hseen
      rw [hmeet]
      obtain ⟨fresh, hqueue, hfound, hseens, hnodup, hfresh⟩ := ih w
      refine ⟨fresh, hqueue, hfound, fun k => ?_, hnodup, fun k => ?_⟩
      · rw [hseens, List.mem_cons]
        constructor
        · exact Or.imp_right .inr
        · rintro (h | rfl | h)
          · exact .inl h
          · exact .inl hseen
          · exact .inr h
      · rw [hfresh, List.mem_cons]
        constructor
        · exact fun h => ⟨.inr h.1, h.2⟩
        · rintro ⟨rfl | h, hk⟩
          · exact absurd hseen hk
          · exact ⟨h, hk⟩
    · -- a new one comes first
      have hmeet : w.meet child = ⟨w.queue ++ [child], insert child w.seen, w.found ++ [child]⟩ :=
        if_neg hseen
      rw [hmeet]
      obtain ⟨fresh, hqueue, hfound, hseens, hnodup, hfresh⟩ :=
        ih ⟨w.queue ++ [child], insert child w.seen, w.found ++ [child]⟩
      have hnew : child ∉ fresh := fun h => ((hfresh child).mp h).2 (Finset.mem_insert_self _ _)
      refine ⟨child :: fresh, ?_, ?_, fun k => ?_, List.nodup_cons.mpr ⟨hnew, hnodup⟩,
        fun k => ?_⟩
      · rw [hqueue, List.append_assoc, List.singleton_append]
      · rw [hfound, List.append_assoc, List.singleton_append]
      · rw [hseens, Finset.mem_insert, List.mem_cons]
        tauto
      · rw [List.mem_cons, hfresh, Finset.mem_insert, not_or, List.mem_cons]
        constructor
        · rintro (rfl | ⟨h, -, hk⟩)
          · exact ⟨.inl rfl, hseen⟩
          · exact ⟨.inr h, hk⟩
        · rintro ⟨rfl | h, hk⟩
          · exact .inl rfl
          · by_cases heq : k = child
            · exact .inl heq
            · exact .inr ⟨h, heq, hk⟩

/-- What is left to do: the queue, and the targets not seen. -/
def Walk.measure (targets : Finset κ) (w : Walk κ) : ℕ :=
  w.queue.length + (targets \ w.seen).card

theorem measure_mk (targets : Finset κ) (queue : List κ) (seen : Finset κ) (found : List κ) :
    (Walk.mk queue seen found).measure targets = queue.length + (targets \ seen).card := rfl

/-- **Successors move from the unseen to the queue.** -/
theorem measure_foldl_meet {targets : Finset κ} {children : List κ}
    (hchildren : ∀ k ∈ children, k ∈ targets) (w : Walk κ) :
    (children.foldl Walk.meet w).measure targets = w.measure targets := by
  induction children generalizing w with
  | nil => rfl
  | cons child children ih =>
    rw [List.foldl_cons, ih fun k hk => hchildren k (List.mem_cons_of_mem _ hk), Walk.meet]
    by_cases hseen : child ∈ w.seen
    · rw [if_pos hseen]
    · have hmem : child ∈ targets \ w.seen :=
        Finset.mem_sdiff.mpr ⟨hchildren child List.mem_cons_self, hseen⟩
      have hcard := Finset.card_pos.mpr ⟨child, hmem⟩
      rw [if_neg hseen, Walk.measure, Walk.measure, List.length_append, List.length_singleton,
        Finset.sdiff_insert, Finset.card_erase_of_mem hmem]
      omega

/-! ## The whole walk -/

theorem run_mono {next : κ → List κ} {fuel fuel' : ℕ} (hle : fuel ≤ fuel') {w : Walk κ}
    {found : List κ} (h : run next fuel w = some found) : run next fuel' w = some found := by
  induction fuel generalizing fuel' w with
  | zero =>
    obtain ⟨_ | ⟨k, queue⟩, seen, found'⟩ := w
    · rw [run] at h ⊢
      exact h
    · rw [run] at h
      cases h
  | succ fuel ih =>
    obtain ⟨_ | ⟨k, queue⟩, seen, found'⟩ := w
    · rw [run] at h ⊢
      exact h
    · obtain ⟨fuel', rfl⟩ : ∃ n, fuel' = n + 1 := ⟨fuel' - 1, by omega⟩
      rw [run] at h ⊢
      exact ih (by omega) h

variable (next : κ → List κ) (root : κ)

/-- The keys a path of at least one edge leads to. -/
def Reaches (k : κ) : Prop := Relation.TransGen (fun a b => b ∈ next a) root k

/-- The invariant of a walk: of the root and the keys found, all seen, the successors of those
that left the queue have been seen, and what was found can be reached. -/
structure Invariant (w : Walk κ) : Prop where
  seen_iff : ∀ k, k ∈ w.seen ↔ k = root ∨ k ∈ w.found
  nodup : (root :: w.found).Nodup
  closed : ∀ k ∈ w.seen, k ∈ w.queue ∨ ∀ j ∈ next k, j ∈ w.seen
  queued : ∀ k ∈ w.queue, k ∈ w.seen
  reached : ∀ k ∈ w.found, Reaches next root k

omit [DecidableEq κ] in
theorem Invariant.start : Invariant next root (.start root) where
  seen_iff k := by
    rw [Walk.start, Finset.mem_singleton, or_iff_left List.not_mem_nil]
  nodup := List.nodup_singleton root
  closed k hk := .inl (List.mem_singleton.mpr (Finset.mem_singleton.mp hk))
  queued k hk := Finset.mem_singleton.mpr (List.mem_singleton.mp hk)
  reached k hk := absurd hk List.not_mem_nil

variable {next root}

/-- **A step keeps the invariant.** -/
theorem Invariant.step {k : κ} {queue : List κ} {seen : Finset κ} {found : List κ}
    (h : Invariant next root ⟨k :: queue, seen, found⟩) :
    Invariant next root ((next k).foldl Walk.meet ⟨queue, seen, found⟩) := by
  obtain ⟨fresh, hqueue, hfound, hseen, hnodup, hfresh⟩ := foldl_meet (next k) ⟨queue, seen, found⟩
  have hk : k ∈ seen := h.queued k List.mem_cons_self
  have hroot : ∀ j ∈ next k, Reaches next root j := by
    intro j hj
    rcases (h.seen_iff k).mp hk with rfl | hmem
    · exact .single hj
    · exact (h.reached k hmem).tail hj
  refine ⟨fun j => ?_, ?_, fun j hj => ?_, fun j hj => ?_, fun j hj => ?_⟩
  · rw [hseen, hfound, List.mem_append, ← or_assoc, ← h.seen_iff j, hfresh]
    by_cases hj : j ∈ seen
    · exact iff_of_true (.inl hj) (.inl hj)
    · exact or_congr_right (and_iff_left hj).symm
  · rw [hfound, ← List.cons_append]
    refine h.nodup.append hnodup ?_
    intro j hj hjfresh
    exact ((hfresh j).mp hjfresh).2 ((h.seen_iff j).mpr (List.mem_cons.mp hj))
  · rw [hqueue]
    by_cases hjk : j = k
    · -- the key that was popped
      refine .inr fun i hi => (hseen i).mpr (.inr ?_)
      rw [← hjk]
      exact hi
    · rcases (hseen j).mp hj with hjseen | hjnext
      · rcases h.closed j hjseen with hjqueue | hjclosed
        · exact .inl (List.mem_append_left _ ((List.mem_cons.mp hjqueue).resolve_left hjk))
        · exact .inr fun i hi => (hseen i).mpr (.inl (hjclosed i hi))
      · by_cases hjseen : j ∈ seen
        · rcases h.closed j hjseen with hjqueue | hjclosed
          · exact .inl (List.mem_append_left _ ((List.mem_cons.mp hjqueue).resolve_left hjk))
          · exact .inr fun i hi => (hseen i).mpr (.inl (hjclosed i hi))
        · exact .inl (List.mem_append_right _ ((hfresh j).mpr ⟨hjnext, hjseen⟩))
  · rw [hqueue] at hj
    rcases List.mem_append.mp hj with hjqueue | hjfresh
    · exact (hseen j).mpr (.inl (h.queued j (List.mem_cons_of_mem k hjqueue)))
    · exact (hseen j).mpr (.inr ((hfresh j).mp hjfresh).1)
  · rw [hfound] at hj
    rcases List.mem_append.mp hj with hjfound | hjfresh
    · exact h.reached j hjfound
    · exact hroot j ((hfresh j).mp hjfresh).1

/-- **When the queue is empty, what was found is what can be reached.** -/
theorem Invariant.found_iff {seen : Finset κ} {found : List κ}
    (h : Invariant next root ⟨[], seen, found⟩) {k : κ} :
    k ∈ found ↔ k ≠ root ∧ Reaches next root k := by
  have hclosed : ∀ j ∈ seen, ∀ i ∈ next j, i ∈ seen := fun j hj =>
    (h.closed j hj).resolve_left List.not_mem_nil
  constructor
  · intro hk
    exact ⟨fun heq => (List.nodup_cons.mp h.nodup).1 (heq ▸ hk), h.reached k hk⟩
  · rintro ⟨hne, hreach⟩
    have hseen : k ∈ seen := by
      induction hreach with
      | single hedge => exact hclosed root ((h.seen_iff root).mpr (.inl rfl)) _ hedge
      | tail hpath hedge ih =>
        rename_i j _
        by_cases hj : j = root
        · exact hclosed j ((h.seen_iff j).mpr (.inl hj)) _ hedge
        · exact hclosed j (ih hj) _ hedge
    exact ((h.seen_iff k).mp hseen).resolve_left hne

theorem run_of_measure_le {targets : Finset κ} (hnext : ∀ k, ∀ j ∈ next k, j ∈ targets)
    {fuel : ℕ} {w : Walk κ} (hinv : Invariant next root w) (hfuel : w.measure targets ≤ fuel) :
    ∃ found, run next fuel w = some found ∧ found.Nodup ∧
      ∀ k, k ∈ found ↔ k ≠ root ∧ Reaches next root k := by
  induction fuel generalizing w with
  | zero =>
    obtain ⟨_ | ⟨k, queue⟩, seen, found⟩ := w
    · exact ⟨found, by rw [run], (List.nodup_cons.mp hinv.nodup).2, fun k => hinv.found_iff⟩
    · rw [Walk.measure, List.length_cons] at hfuel
      omega
  | succ fuel ih =>
    obtain ⟨_ | ⟨k, queue⟩, seen, found⟩ := w
    · exact ⟨found, by rw [run], (List.nodup_cons.mp hinv.nodup).2, fun k => hinv.found_iff⟩
    · rw [run]
      refine ih hinv.step ?_
      rw [measure_mk, List.length_cons] at hfuel
      rw [measure_foldl_meet (hnext k), measure_mk]
      omega

/-- **From a root the walk ends and finds, each once, the other keys that can be reached.** -/
theorem run_start {targets : Finset κ} (hnext : ∀ k, ∀ j ∈ next k, j ∈ targets) (root : κ) :
    ∃ found, (∀ fuel, targets.card + 1 ≤ fuel → run next fuel (.start root) = some found) ∧
      found.Nodup ∧ ∀ k, k ∈ found ↔ k ≠ root ∧ Reaches next root k := by
  have hmeasure : (Walk.start root).measure targets ≤ targets.card + 1 := by
    have hcard := Finset.card_le_card (@Finset.sdiff_subset _ _ targets {root})
    rw [Walk.start, measure_mk, List.length_singleton]
    omega
  obtain ⟨found, hrun, hnodup, hfound⟩ := run_of_measure_le hnext (.start next root) hmeasure
  exact ⟨found, fun fuel hfuel => run_mono hfuel hrun, hnodup, hfound⟩

end BreadthFirst
