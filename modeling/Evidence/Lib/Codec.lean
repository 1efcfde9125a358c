/-
The **encoding layer**: when the output of an encoder can be read back out of
the text it was written into.

An encoder is a function to lists, of bytes or of characters, and encoders are
written one after another with nothing around the whole. What makes such a text
unambiguous is a property of each part: from `enc a ++ s` one can recover both
what was encoded and what follows. `ReadsBack view enc` says exactly that, up
to a `view` of the encoded value, so that an encoder that drops part of its
input can still be used where the dropped part does not matter. The lemmas below
are the ways such encoders are put together: fixed widths, runs of a character
class, optional fields, closed lists, lists between separators.
-/
import Mathlib.Data.List.Perm.Basic

set_option autoImplicit false

namespace Codec

variable {α β γ : Type*}

/-- From `enc a ++ s` one recovers the `view` of `a` and the rest `s`. -/
def ReadsBack (view : α → γ) (enc : α → List β) : Prop :=
  ∀ a b s t, enc a ++ s = enc b ++ t → view a = view b ∧ s = t

/-- From `enc a ++ s` one recovers the `view` of `a` and the rest `s`, provided
the rest is one that may follow. -/
def ReadsBefore (follows : List β → Prop) (view : α → γ) (enc : α → List β) : Prop :=
  ∀ a b s t, follows s → follows t → enc a ++ s = enc b ++ t → view a = view b ∧ s = t

theorem ReadsBack.before {view : α → γ} {enc : α → List β} (h : ReadsBack view enc)
    (follows : List β → Prop) : ReadsBefore follows view enc :=
  fun a b s t _ _ => h a b s t

/-- A decoder that undoes the encoder in front of any rest is a proof that the
encoder reads back. -/
theorem ReadsBack.of_decoder {view : α → γ} {enc : α → List β}
    (dec : List β → Option (γ × List β))
    (hdec : ∀ a s, dec (enc a ++ s) = some (view a, s)) : ReadsBack view enc := by
  intro a b s t h
  have hab : some (view a, s) = some (view b, t) := by rw [← hdec a s, ← hdec b t, h]
  simpa using hab

theorem ReadsBack.view_eq {view : α → γ} {enc : α → List β} (h : ReadsBack view enc)
    {a b : α} (hab : enc a = enc b) : view a = view b :=
  (h a b [] [] (by rw [hab])).1

/-! ## Runs of a class

The first symbol outside a class ends a run of it. -/

/-- A run of symbols in `p` ends in front of `s`. -/
def Stops (p : β → Bool) (s : List β) : Prop := s.head?.any p = false

instance (p : β → Bool) (s : List β) : Decidable (Stops p s) :=
  inferInstanceAs (Decidable (_ = _))

theorem Stops.append {p : β → Bool} {s : List β} (h : Stops p s) (hne : s ≠ []) (u : List β) :
    Stops p (s ++ u) := by
  rw [Stops, List.head?_append_of_ne_nil _ hne]
  exact h

/-- Two runs of symbols in `p`, each followed by nothing or by a symbol outside
`p`, are equal as soon as the whole texts are. -/
theorem run_inj (p : β → Bool) {xs ys s t : List β} (hx : ∀ x ∈ xs, p x = true)
    (hy : ∀ y ∈ ys, p y = true) (hs : Stops p s) (ht : Stops p t) (h : xs ++ s = ys ++ t) :
    xs = ys ∧ s = t := by
  induction xs generalizing ys with
  | nil =>
    cases ys with
    | nil => exact ⟨rfl, h⟩
    | cons y ys =>
      rw [List.nil_append] at h
      rw [h] at hs
      exact absurd (hy y List.mem_cons_self) (Bool.not_eq_true _ ▸ hs)
  | cons x xs ih =>
    cases ys with
    | nil =>
      rw [List.nil_append] at h
      rw [← h] at ht
      exact absurd (hx x List.mem_cons_self) (Bool.not_eq_true _ ▸ ht)
    | cons y ys =>
      simp only [List.cons_append, List.cons.injEq] at h
      obtain ⟨rfl, hrest⟩ := h
      obtain ⟨rfl, hst⟩ := ih (fun z hz => hx z (List.mem_cons_of_mem _ hz))
        (fun z hz => hy z (List.mem_cons_of_mem _ hz)) hrest
      exact ⟨rfl, hst⟩

/-- Texts that start differently are different. -/
theorem append_ne {k l : List β} (hkl : ¬ k <+: l) (hlk : ¬ l <+: k) (s u : List β) :
    k ++ s ≠ l ++ u := by
  intro h
  rcases List.prefix_or_prefix_of_prefix ⟨s, rfl⟩ (h ▸ ⟨u, rfl⟩ : l <+: k ++ s) with h' | h'
  · exact hkl h'
  · exact hlk h'

/-- A text over a class of symbols reads back in front of a symbol outside it. -/
theorem ReadsBefore.of_run {view : α → γ} {enc : α → List β} (p : β → Bool)
    (hp : ∀ a, ∀ c ∈ enc a, p c = true) (hinj : ∀ a b, enc a = enc b → view a = view b) :
    ReadsBefore (Stops p) view enc := by
  intro a b s t hs ht h
  obtain ⟨henc, hst⟩ := run_inj p (hp a) (hp b) hs ht h
  exact ⟨hinj a b henc, hst⟩

/-- Such a text reads back in front of a fixed closing text. -/
theorem ReadsBefore.closed {view : α → γ} {enc : α → List β} {p : β → Bool}
    (henc : ReadsBefore (Stops p) view enc) {close : List β} (hclose : Stops p close)
    (hne : close ≠ []) {a b : α} {s t : List β}
    (h : enc a ++ (close ++ s) = enc b ++ (close ++ t)) : view a = view b ∧ s = t := by
  obtain ⟨hab, hrest⟩ := henc a b _ _ (hclose.append hne s) (hclose.append hne t) h
  exact ⟨hab, List.append_cancel_left hrest⟩

/-! ## Optional fields -/

/-- An optional field: nothing at all when absent. -/
def optional (enc : α → List β) : Option α → List β
  | none => []
  | some a => enc a

/-- An optional field reads back when what follows it cannot be taken for the
field itself. -/
theorem optional_inj {view : α → γ} {enc : α → List β} (henc : ReadsBack view enc)
    {o o' : Option α} {s t : List β} (hs : ∀ a u, s ≠ enc a ++ u) (ht : ∀ a u, t ≠ enc a ++ u)
    (h : optional enc o ++ s = optional enc o' ++ t) : o.map view = o'.map view ∧ s = t := by
  cases o with
  | none =>
    cases o' with
    | none => exact ⟨rfl, h⟩
    | some b => exact absurd h (hs b t)
  | some a =>
    cases o' with
    | none => exact absurd h.symm (ht a s)
    | some b =>
      obtain ⟨hab, hst⟩ := henc a b s t h
      exact ⟨by simp only [Option.map_some, hab], hst⟩

/-! ## Lists -/

/-- What may follow a part may follow a list of parts in front of it. -/
theorem follows_flatMap {enc : α → List β} {follows : List β → Prop}
    (hnext : ∀ a u, follows (enc a ++ u)) (xs : List α) {u : List β} (hu : follows u) :
    follows (xs.flatMap enc ++ u) := by
  cases xs with
  | nil => exact hu
  | cons x xs =>
    rw [List.flatMap_cons, List.append_assoc]
    exact hnext x _

/-- **A list of parts reads back as a whole**, each part in front of what may follow it,
when a text that no part can begin closes the list. -/
theorem flatMap_inj_before {view : α → γ} {enc : α → List β} {follows : List β → Prop}
    (henc : ReadsBefore follows view enc) (hnext : ∀ a u, follows (enc a ++ u)) {xs ys : List α}
    {s t : List β} (hfs : follows s) (hft : follows t) (hs : ∀ a u, s ≠ enc a ++ u)
    (ht : ∀ a u, t ≠ enc a ++ u) (h : xs.flatMap enc ++ s = ys.flatMap enc ++ t) :
    xs.map view = ys.map view ∧ s = t := by
  induction xs generalizing ys with
  | nil =>
    cases ys with
    | nil => exact ⟨rfl, h⟩
    | cons y ys =>
      simp only [List.flatMap_nil, List.nil_append, List.flatMap_cons, List.append_assoc] at h
      exact absurd h (hs y _)
  | cons x xs ih =>
    cases ys with
    | nil =>
      simp only [List.flatMap_nil, List.nil_append, List.flatMap_cons, List.append_assoc] at h
      exact absurd h.symm (ht x _)
    | cons y ys =>
      simp only [List.flatMap_cons, List.append_assoc] at h
      obtain ⟨hxy, hrest⟩ :=
        henc x y _ _ (follows_flatMap hnext xs hfs) (follows_flatMap hnext ys hft) h
      obtain ⟨hmap, hst⟩ := ih hrest
      exact ⟨by simp only [List.map_cons, hxy, hmap], hst⟩

/-- A list of parts that each read back and are never empty reads back as a
whole, when a text that no part can begin closes it. -/
theorem flatMap_inj {view : α → γ} {enc : α → List β} (henc : ReadsBack view enc)
    {xs ys : List α} {s t : List β} (hs : ∀ a u, s ≠ enc a ++ u) (ht : ∀ a u, t ≠ enc a ++ u)
    (h : xs.flatMap enc ++ s = ys.flatMap enc ++ t) : xs.map view = ys.map view ∧ s = t :=
  flatMap_inj_before (henc.before fun _ => True) (fun _ _ => trivial) trivial trivial hs ht h

/-- A list of parts followed by nothing. -/
theorem flatMap_inj_nil {view : α → γ} {enc : α → List β} (henc : ReadsBack view enc)
    (hne : ∀ a, enc a ≠ []) {xs ys : List α} (h : xs.flatMap enc = ys.flatMap enc) :
    xs.map view = ys.map view := by
  have hnil : ∀ a u, ([] : List β) ≠ enc a ++ u := by
    intro a u hu
    exact hne a (List.append_eq_nil_iff.mp hu.symm).1
  exact (flatMap_inj henc hnil hnil (s := []) (t := []) (congrArg (· ++ []) h)).1

/-- A list of a known number of parts, each of which reads back. -/
theorem flatMap_inj_length {view : α → γ} {enc : α → List β} {xs ys : List α} {s t : List β}
    (henc : ∀ x ∈ xs, ∀ y ∈ ys, ∀ u v, enc x ++ u = enc y ++ v → view x = view y ∧ u = v)
    (hlen : xs.length = ys.length) (h : xs.flatMap enc ++ s = ys.flatMap enc ++ t) :
    xs.map view = ys.map view ∧ s = t := by
  induction xs generalizing ys with
  | nil =>
    cases ys with
    | nil => exact ⟨rfl, h⟩
    | cons y ys => simp only [List.length_nil, List.length_cons] at hlen; omega
  | cons x xs ih =>
    cases ys with
    | nil => simp only [List.length_nil, List.length_cons] at hlen; omega
    | cons y ys =>
      simp only [List.flatMap_cons, List.append_assoc] at h
      obtain ⟨hxy, hrest⟩ := henc x List.mem_cons_self y List.mem_cons_self _ _ h
      obtain ⟨hmap, hst⟩ := ih (fun x' hx' y' hy' =>
        henc x' (List.mem_cons_of_mem _ hx') y' (List.mem_cons_of_mem _ hy'))
        (by simpa using hlen) hrest
      exact ⟨by simp only [List.map_cons, hxy, hmap], hst⟩

/-- What an encoder writes for a list depends on the views, if it does for each
part. -/
theorem flatMap_congr_view {view : α → γ} {enc : α → List β}
    (henc : ∀ a b, view a = view b → enc a = enc b) {xs ys : List α}
    (h : xs.map view = ys.map view) : xs.flatMap enc = ys.flatMap enc := by
  induction xs generalizing ys with
  | nil =>
    cases ys with
    | nil => rfl
    | cons y ys => cases h
  | cons x xs ih =>
    cases ys with
    | nil => cases h
    | cons y ys =>
      rw [List.map_cons, List.map_cons, List.cons.injEq] at h
      rw [List.flatMap_cons, List.flatMap_cons, henc x y h.1, ih h.2]

/-- A list written with `sep` between its parts. -/
def separated (enc : α → List β) (sep : List β) : List α → List β
  | [] => []
  | x :: xs => enc x ++ xs.flatMap (fun y => sep ++ enc y)

/-- A separated list reads back when the text that closes it can be taken
neither for a part nor for a separator. -/
theorem separated_inj {view : α → γ} {enc : α → List β} {sep : List β}
    {follows : List β → Prop} (henc : ReadsBefore follows view enc)
    (hsep : ∀ u, follows (sep ++ u)) {xs ys : List α} {s t : List β}
    (hfs : follows s) (hft : follows t)
    (hs : ∀ a u, s ≠ enc a ++ u) (ht : ∀ a u, t ≠ enc a ++ u)
    (hs' : ∀ u, s ≠ sep ++ u) (ht' : ∀ u, t ≠ sep ++ u)
    (h : separated enc sep xs ++ s = separated enc sep ys ++ t) :
    xs.map view = ys.map view ∧ s = t := by
  -- the parts behind the first one, each led by a separator
  have hnext : ∀ z u, follows ((sep ++ enc z) ++ u) := by
    intro z u
    rw [List.append_assoc]
    exact hsep _
  have hpart : ReadsBefore follows view fun z => sep ++ enc z := by
    intro a b u v hu hv huv
    rw [List.append_assoc, List.append_assoc] at huv
    exact henc a b u v hu hv (List.append_cancel_left huv)
  have hclose : ∀ {u : List β}, (∀ v, u ≠ sep ++ v) → ∀ a v, u ≠ (sep ++ enc a) ++ v := by
    intro u hu a v
    rw [List.append_assoc]
    exact hu _
  cases xs with
  | nil =>
    cases ys with
    | nil => exact ⟨rfl, h⟩
    | cons y ys =>
      simp only [separated, List.nil_append, List.append_assoc] at h
      exact absurd h (hs y _)
  | cons x xs =>
    cases ys with
    | nil =>
      simp only [separated, List.nil_append, List.append_assoc] at h
      exact absurd h.symm (ht x _)
    | cons y ys =>
      simp only [separated, List.append_assoc] at h
      obtain ⟨hxy, hrest⟩ :=
        henc x y _ _ (follows_flatMap hnext xs hfs) (follows_flatMap hnext ys hft) h
      obtain ⟨hmap, hst⟩ :=
        flatMap_inj_before hpart hnext hfs hft (hclose hs') (hclose ht') hrest
      exact ⟨by simp only [List.map_cons, hxy, hmap], hst⟩

end Codec
