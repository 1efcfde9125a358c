/-
The **parent-walk layer**: following parent links up to a root.

A forest is often stored flat: a lookup from keys to nodes, and in each node the
key of its parent. A function that needs the ancestors of a node walks up the
links, remembers the keys it has visited so that a cycle cannot trap it, and
stops at a root, at a key that resolves to nothing, or at a key it has already
seen. `climb` is that walk and `Stop` is how it ended.

What the walk is for is a relation that knows nothing of visited sets:
`Lineage get up o vs` says that `vs` are the nodes met on the way from the key
`o` to a root, nearest first. The walk ends at a root exactly when there is a
lineage, and then it returns that lineage (`climb_eq_root_iff`). A lineage is
unique and meets no key twice, which is why the visited set never stops a walk
that has somewhere to go.
-/
import Mathlib.Data.List.Nodup
import Mathlib.Data.List.Perm.Subperm

set_option autoImplicit false

namespace Climb

variable {κ ν : Type*}

/-- How a walk ended. -/
inductive Stop (κ : Type*) where
  /-- A node without a parent. -/
  | root
  /-- A key that resolves to nothing. -/
  | missing (key : κ)
  /-- A key the walk had already met. -/
  | revisit (key : κ)
  /-- The step budget ran out. -/
  | exhausted
deriving DecidableEq

/-- `vs` are the nodes met on the way from the key `o` to a root, nearest first. -/
inductive Lineage (get : κ → Option ν) (up : ν → Option κ) : Option κ → List ν → Prop where
  | root : Lineage get up none []
  | step {k : κ} {v : ν} {vs : List ν} (hget : get k = some v) (hup : Lineage get up (up v) vs) :
      Lineage get up (some k) (v :: vs)

/-- Walk up from the key `o`, at most `fuel` links, meeting no key of `visited`. -/
def climb [DecidableEq κ] (get : κ → Option ν) (up : ν → Option κ) :
    ℕ → List κ → Option κ → List ν × Stop κ
  | _, _, none => ([], .root)
  | 0, _, some _ => ([], .exhausted)
  | fuel + 1, visited, some k =>
    match get k with
    | none => ([], .missing k)
    | some v =>
      if k ∈ visited then ([], .revisit k)
      else
        let rest := climb get up fuel (k :: visited) (up v)
        (v :: rest.1, rest.2)

variable {get : κ → Option ν} {up : ν → Option κ} {key : ν → κ}

/-! ## Lineages -/

theorem Lineage.of_nil {o : Option κ} (h : Lineage get up o []) : o = none := by
  cases h
  rfl

theorem Lineage.of_cons {o : Option κ} {v : ν} {vs : List ν} (h : Lineage get up o (v :: vs)) :
    ∃ k, o = some k ∧ get k = some v ∧ Lineage get up (up v) vs := by
  cases h with
  | step hget hup => exact ⟨_, rfl, hget, hup⟩

/-- **There is one way up.** -/
theorem Lineage.unique {o : Option κ} {vs ws : List ν} (hv : Lineage get up o vs)
    (hw : Lineage get up o ws) : vs = ws := by
  induction hv generalizing ws with
  | root => cases hw; rfl
  | step hget _ ih =>
    cases hw with
    | step hget' hup' =>
      rw [hget] at hget'
      cases hget'
      rw [ih hup']

/-- The lineage of a node met on the way is the part of the way above it. -/
theorem Lineage.of_append {o : Option κ} {vs ws : List ν} {v : ν}
    (h : Lineage get up o (vs ++ v :: ws)) : Lineage get up (up v) ws := by
  induction vs generalizing o with
  | nil => cases h with | step _ hup => exact hup
  | cons u us ih => cases h with | step _ hup => exact ih hup

/-- Every node met on the way is stored under its key. -/
theorem Lineage.get_key (hkey : ∀ k v, get k = some v → key v = k) {o : Option κ} {vs : List ν}
    (h : Lineage get up o vs) : ∀ v ∈ vs, get (key v) = some v := by
  induction h with
  | root => intro v hv; cases hv
  | step hget _ ih =>
    intro v hv
    rcases List.mem_cons.mp hv with rfl | hv
    · rw [hkey _ _ hget]
      exact hget
    · exact ih v hv

/-- **A lineage meets no key twice.** The part of the way above a key is
determined by the key, so a repeated key would lie above itself. -/
theorem Lineage.nodup (hkey : ∀ k v, get k = some v → key v = k) {o : Option κ} {vs : List ν}
    (h : Lineage get up o vs) : (vs.map key).Nodup := by
  induction h with
  | root => exact List.nodup_nil
  | @step k v vs hget hup ih =>
    rw [List.map_cons, List.nodup_cons]
    refine ⟨?_, ih⟩
    intro hmem
    obtain ⟨w, hw, hwv⟩ := List.mem_map.mp hmem
    have hself : w = v := by
      have hgw := hup.get_key hkey w hw
      rw [hwv, hkey k v hget, hget] at hgw
      exact (Option.some.inj hgw).symm
    subst hself
    obtain ⟨as, bs, rfl⟩ := List.append_of_mem hw
    have hlen := congrArg List.length (hup.unique hup.of_append)
    simp only [List.length_append, List.length_cons] at hlen
    omega

theorem Lineage.length_le (hkey : ∀ k v, get k = some v → key v = k) (dom : List κ)
    (hdom : ∀ k v, get k = some v → k ∈ dom) {o : Option κ} {vs : List ν}
    (h : Lineage get up o vs) : vs.length ≤ dom.length := by
  have hsub : vs.map key ⊆ dom := by
    intro k hk
    obtain ⟨v, hv, rfl⟩ := List.mem_map.mp hk
    exact hdom _ v (h.get_key hkey v hv)
  simpa using ((h.nodup hkey).subperm hsub).length_le

/-- A renaming of keys that the lookup and the links respect carries lineages
over. -/
theorem Lineage.map {κ' ν' : Type*} {get' : κ' → Option ν'} {up' : ν' → Option κ'} (ρ : κ → κ')
    (f : ν → ν') (hget : ∀ k v, get k = some v → get' (ρ k) = some (f v))
    (hup : ∀ k v, get k = some v → up' (f v) = (up v).map ρ) {o : Option κ} {vs : List ν}
    (h : Lineage get up o vs) : Lineage get' up' (o.map ρ) (vs.map f) := by
  induction h with
  | root => exact .root
  | step hk _ ih =>
    refine .step (hget _ _ hk) ?_
    rw [hup _ _ hk]
    exact ih

/-! ## The walk -/

variable [DecidableEq κ]

theorem lineage_of_climb {fuel : ℕ} {visited : List κ} {o : Option κ} {vs : List ν}
    (h : climb get up fuel visited o = (vs, .root)) : Lineage get up o vs := by
  induction fuel generalizing visited o vs with
  | zero =>
    cases o with
    | none =>
      simp only [climb, Prod.mk.injEq, and_true] at h
      subst h
      exact .root
    | some k => simp [climb] at h
  | succ fuel ih =>
    cases o with
    | none =>
      simp only [climb, Prod.mk.injEq, and_true] at h
      subst h
      exact .root
    | some k =>
      cases hget : get k with
      | none => simp [climb, hget] at h
      | some v =>
        by_cases hk : k ∈ visited
        · simp [climb, hget, hk] at h
        · simp only [climb, hget, hk, if_false, Prod.mk.injEq] at h
          obtain ⟨rfl, hstop⟩ := h
          exact .step hget (ih (Prod.ext rfl hstop))

theorem climb_of_lineage (hkey : ∀ k v, get k = some v → key v = k) {o : Option κ} {vs : List ν}
    (h : Lineage get up o vs) {fuel : ℕ} {visited : List κ} (hfuel : vs.length ≤ fuel)
    (havoid : ∀ v ∈ vs, key v ∉ visited) : climb get up fuel visited o = (vs, .root) := by
  induction h generalizing fuel visited with
  | root => cases fuel <;> rfl
  | @step k v vs hget hup ih =>
    obtain ⟨n, rfl⟩ : ∃ n, fuel = n + 1 := ⟨fuel - 1, by simp only [List.length_cons] at hfuel; omega⟩
    have hk : k ∉ visited := by
      rw [← hkey k v hget]
      exact havoid v List.mem_cons_self
    have hrest : climb get up n (k :: visited) (up v) = (vs, .root) := by
      refine ih (by simpa using hfuel) ?_
      intro w hw
      rw [List.mem_cons, not_or]
      refine ⟨?_, havoid w (List.mem_cons_of_mem _ hw)⟩
      -- the key of `v` does not come back further up
      have hnodup := (Lineage.step hget hup).nodup hkey
      rw [List.map_cons, List.nodup_cons, hkey k v hget] at hnodup
      intro hwk
      exact hnodup.1 (hwk ▸ List.mem_map_of_mem hw)
    simp only [climb, hget, hk, if_false, hrest]

/-- A walk over a view of the nodes that keeps the links meets the views of the same nodes. -/
theorem climb_view {ν' : Type*} {get' : κ → Option ν'} {up' : ν' → Option κ} (view : ν → ν')
    (hget : ∀ k, get' k = (get k).map view) (hup : ∀ v, up' (view v) = up v) (fuel : ℕ)
    (visited : List κ) (o : Option κ) :
    climb get' up' fuel visited o =
      ((climb get up fuel visited o).1.map view, (climb get up fuel visited o).2) := by
  induction fuel generalizing visited o with
  | zero => cases o <;> rfl
  | succ fuel ih =>
    cases o with
    | none => rfl
    | some k =>
      cases hfound : get k with
      | none => simp only [climb, hget, hfound, Option.map_none, List.map_nil]
      | some v =>
        by_cases hk : k ∈ visited
        · simp only [climb, hget, hfound, Option.map_some, if_pos hk, List.map_nil]
        · simp only [climb, hget, hfound, Option.map_some, if_neg hk, hup, ih, List.map_cons]

/-- **With enough fuel the walk ends at a root exactly when there is a lineage**
that avoids the keys it was told to, and then it returns that lineage. -/
theorem climb_eq_root_iff (hkey : ∀ k v, get k = some v → key v = k) (dom : List κ)
    (hdom : ∀ k v, get k = some v → k ∈ dom) {visited : List κ} {o : Option κ} {fuel : ℕ}
    (hfuel : dom.length ≤ fuel)
    (havoid : ∀ vs, Lineage get up o vs → ∀ v ∈ vs, key v ∉ visited) {vs : List ν} :
    climb get up fuel visited o = (vs, .root) ↔ Lineage get up o vs := by
  constructor
  · exact lineage_of_climb
  · intro h
    have hlen := h.length_le hkey dom hdom
    exact climb_of_lineage hkey h (by omega) (havoid vs h)

end Climb
