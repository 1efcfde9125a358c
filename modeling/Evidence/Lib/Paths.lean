/-
The **lexical-path layer**: a Unix path as the list of its components.

A path is cut at its slashes; what lies between two of them counts unless it is empty or a dot.
Only in front are the root and a dot components of their own. Two paths are equal when their
components are, whatever their spelling.

The components of a path can be written out with slashes between them, and any part of them
from the back is read again as it was (`components_text`): so a text made of components
determines them.
-/
import Evidence.Lib.Segments

set_option autoImplicit false

namespace Paths

/-- A component of a path. -/
inductive Component where
  | RootDir
  | CurDir
  | ParentDir
  | Normal (name : List Char)
deriving DecidableEq

/-- How a component is written. -/
def Component.text : Component → List Char
  | RootDir => ['/']
  | CurDir => ['.']
  | ParentDir => ['.', '.']
  | Normal name => name

/-- The component that a segment between slashes is, if it counts. -/
def segment_component (segment : List Char) : Option Component :=
  if segment = [] ∨ segment = ['.'] then none
  else if segment = ['.', '.'] then some .ParentDir
  else some (.Normal segment)

/-- The component in front: the root, or a dot. -/
def lead (path : List Char) : List Component :=
  if path.head? = some '/' then [.RootDir]
  else if (path.splitOn '/').head? = some ['.'] then [.CurDir]
  else []

def components (path : List Char) : List Component :=
  lead path ++ (path.splitOn '/').filterMap segment_component

/-- What is left of a path behind another one, as components. -/
def stripped (base path : List Char) : Option (List Component) :=
  if components base <+: components path then
    some ((components path).drop (components base).length)
  else none

/-- A path put behind another one; an absolute one takes its place. -/
def join (base path : List Char) : List Char :=
  if path.head? = some '/' then path
  else if base = [] ∨ base.getLast? = some '/' then base ++ path
  else base ++ '/' :: path

/-- Components written with slashes between them. -/
def text (parts : List Component) : List Char :=
  ['/'].intercalate (parts.map Component.text)

/-! ## What the components of a path are -/

/-- A component that can stand behind others. -/
def Inner (c : Component) : Prop :=
  '/' ∉ c.text ∧ segment_component c.text = some c

theorem text_of_segment {segment : List Char} {c : Component}
    (h : segment_component segment = some c) : c.text = segment := by
  unfold segment_component at h
  split_ifs at h with hnone hparent
  · rw [Option.some.injEq] at h
    rw [← h, hparent]
    rfl
  · rw [Option.some.injEq] at h
    rw [← h]
    rfl

theorem inner_of_segment {path : List Char} {c : Component}
    (h : c ∈ (path.splitOn '/').filterMap segment_component) : Inner c := by
  obtain ⟨segment, hsegment, hc⟩ := List.mem_filterMap.mp h
  rw [Inner, text_of_segment hc]
  exact ⟨(Segments.of_mem_splitOn hsegment).1, hc⟩

/-- A list that some path can have as its components. -/
def Canonical : List Component → Prop
  | [] => True
  | c :: rest => (c = .RootDir ∨ c = .CurDir ∨ Inner c) ∧ ∀ d ∈ rest, Inner d

theorem canonical_of_inner {parts : List Component} (h : ∀ c ∈ parts, Inner c) :
    Canonical parts := by
  cases parts with
  | nil => exact trivial
  | cons c rest =>
    exact ⟨.inr (.inr (h c List.mem_cons_self)), fun d hd => h d (List.mem_cons_of_mem c hd)⟩

theorem components_canonical (path : List Char) : Canonical (components path) := by
  unfold components lead
  split_ifs with hroot hdot
  · exact ⟨.inl rfl, fun d hd => inner_of_segment hd⟩
  · exact ⟨.inr (.inl rfl), fun d hd => inner_of_segment hd⟩
  · exact canonical_of_inner fun c hc => inner_of_segment hc

/-- Components from the back of a path are a path. -/
theorem Canonical.drop {parts : List Component} (h : Canonical parts) (n : ℕ) :
    Canonical (parts.drop n) := by
  cases parts with
  | nil =>
    rw [List.drop_nil]
    exact trivial
  | cons c rest =>
    cases n with
    | zero => exact h
    | succ n => exact canonical_of_inner fun d hd => h.2 d (List.mem_of_mem_drop hd)

/-! ## Components read again -/

/-- The segments of components without a slash. -/
theorem splitOn_text {parts : List Component} (hne : parts ≠ [])
    (h : ∀ c ∈ parts, '/' ∉ c.text) : (text parts).splitOn '/' = parts.map Component.text := by
  refine List.splitOn_intercalate '/' ?_ (fun hnil => hne (List.map_eq_nil_iff.mp hnil))
  intro segment hsegment
  obtain ⟨c, hc, rfl⟩ := List.mem_map.mp hsegment
  exact h c hc

theorem filterMap_text {parts : List Component} (h : ∀ c ∈ parts, Inner c) :
    (parts.map Component.text).filterMap segment_component = parts := by
  induction parts with
  | nil => rfl
  | cons c rest ih =>
    rw [List.map_cons, List.filterMap_cons, (h c List.mem_cons_self).2,
      ih fun d hd => h d (List.mem_cons_of_mem c hd)]

theorem segments_of_inner {parts : List Component} (h : ∀ c ∈ parts, Inner c) :
    ((text parts).splitOn '/').filterMap segment_component = parts := by
  by_cases hnil : parts = []
  · subst hnil
    rfl
  · rw [splitOn_text hnil fun c hc => (h c hc).1, filterMap_text h]

theorem text_cons (c : Component) (rest : List Component) :
    text (c :: rest) = c.text ++ (if rest = [] then [] else '/' :: text rest) := by
  cases rest with
  | nil => rw [if_pos rfl, List.append_nil, text, List.map_singleton, List.intercalate_singleton]
  | cons d rest =>
    rw [if_neg (List.cons_ne_nil d rest), text, List.map_cons, List.map_cons,
      List.intercalate_cons_cons, text, List.map_cons, List.append_assoc, List.singleton_append]

/-- An inner component is neither empty nor a dot, and has no slash in front. -/
theorem Inner.head {c : Component} (h : Inner c) :
    c.text ≠ ['.'] ∧ ∃ first others, c.text = first :: others ∧ first ≠ '/' := by
  obtain ⟨hslash, hsegment⟩ := h
  unfold segment_component at hsegment
  split_ifs at hsegment with hnone hparent
  · refine ⟨fun hdot => hnone (.inr hdot), ?_⟩
    rw [hparent]
    exact ⟨'.', ['.'], rfl, by decide⟩
  · refine ⟨fun hdot => hnone (.inr hdot), ?_⟩
    cases htext : c.text with
    | nil => exact absurd (.inl htext) hnone
    | cons first others =>
      refine ⟨first, others, rfl, ?_⟩
      rintro rfl
      rw [htext] at hslash
      exact hslash List.mem_cons_self

theorem lead_of_inner {parts : List Component} (h : ∀ c ∈ parts, Inner c) :
    lead (text parts) = [] := by
  cases parts with
  | nil => rfl
  | cons c rest =>
    obtain ⟨hdot, first, others, htext, hslash⟩ := (h c List.mem_cons_self).head
    have hsplit := splitOn_text (List.cons_ne_nil c rest) fun d hd => (h d hd).1
    have hroot : ¬ (text (c :: rest)).head? = some '/' := by
      rw [text_cons, htext, List.cons_append, List.head?_cons, Option.some.injEq]
      exact hslash
    have hcur : ¬ ((text (c :: rest)).splitOn '/').head? = some ['.'] := by
      rw [hsplit, List.map_cons, List.head?_cons, Option.some.injEq]
      exact hdot
    rw [lead, if_neg hroot, if_neg hcur]

/-- **Components that some path has are read again from their text.** -/
theorem components_text {parts : List Component} (h : Canonical parts) :
    components (text parts) = parts := by
  cases parts with
  | nil => rfl
  | cons c rest =>
    obtain ⟨hc, hrest⟩ := h
    rcases hc with rfl | rfl | hinner
    · -- the root: the text goes on with a slash of its own
      have hsegments : ((text (.RootDir :: rest)).splitOn '/').filterMap segment_component =
          rest := by
        by_cases hnil : rest = []
        · subst hnil
          rfl
        · have htext : text (.RootDir :: rest) = [] ++ '/' :: ([] ++ '/' :: text rest) := by
            rw [text_cons, if_neg hnil]
            rfl
          rw [htext, List.splitOn_append_cons_self, List.splitOn_append_cons_self,
            List.splitOn_nil, List.filterMap_append, List.filterMap_append,
            segments_of_inner hrest]
          rfl
      have hlead : lead (text (.RootDir :: rest)) = [.RootDir] := by
        rw [lead, if_pos]
        rw [text_cons]
        rfl
      rw [components, hlead, hsegments, List.singleton_append]
    · -- a dot in front
      have hslash : ∀ d ∈ Component.CurDir :: rest, '/' ∉ d.text := by
        intro d hd
        rcases List.mem_cons.mp hd with rfl | hd
        · decide
        · exact (hrest d hd).1
      have hsplit := splitOn_text (List.cons_ne_nil .CurDir rest) hslash
      have hlead : lead (text (.CurDir :: rest)) = [.CurDir] := by
        have hroot : ¬ (text (.CurDir :: rest)).head? = some '/' := by
          rw [text_cons]
          exact fun h => absurd (Option.some.inj h) (by decide)
        rw [lead, if_neg hroot, if_pos]
        rw [hsplit]
        rfl
      rw [components, hlead, hsplit, List.map_cons, List.filterMap_cons, filterMap_text hrest]
      rfl
    · have hall : ∀ d ∈ c :: rest, Inner d := List.forall_mem_cons.mpr ⟨hinner, hrest⟩
      rw [components, lead_of_inner hall, segments_of_inner hall, List.nil_append]

/-! ## Paths put together -/

/-- What is in front does not depend on what stands behind the first slash. -/
theorem lead_append_slash (base rest rest' : List Char) :
    lead (base ++ '/' :: rest) = lead (base ++ '/' :: rest') := by
  have hhead : ∀ rest : List Char, (base ++ '/' :: rest).head? = (base ++ ['/']).head? := by
    intro rest
    cases base <;> rfl
  have hfirst : ∀ rest : List Char,
      ((base ++ '/' :: rest).splitOn '/').head? = (base.splitOn '/').head? := by
    intro rest
    rw [List.splitOn_append_cons_self]
    cases hsplit : base.splitOn '/' with
    | nil => exact absurd hsplit (List.splitOn_ne_nil '/' base)
    | cons first others => rfl
  unfold lead
  rw [hhead rest, hhead rest', hfirst rest, hfirst rest']

/-- What is in front of a path that goes on behind a slash. -/
theorem lead_append {base : List Char} (hne : base ≠ []) (rest : List Char) :
    lead (base ++ '/' :: rest) = lead base := by
  have hhead : (base ++ '/' :: rest).head? = base.head? := by
    cases base with
    | nil => exact absurd rfl hne
    | cons c base => rfl
  have hfirst : ((base ++ '/' :: rest).splitOn '/').head? = (base.splitOn '/').head? := by
    rw [List.splitOn_append_cons_self]
    cases hsplit : base.splitOn '/' with
    | nil => exact absurd hsplit (List.splitOn_ne_nil '/' base)
    | cons first others => rfl
  unfold lead
  rw [hhead, hfirst]

/-- **A relative path put behind another one** goes on with its components. -/
theorem components_join {base path : List Char} (hrelative : path.head? ≠ some '/')
    (hlead : lead path = []) :
    components (join base path) = components base ++ components path := by
  rw [join, if_neg hrelative]
  by_cases hnil : base = []
  · subst hnil
    rw [if_pos (.inl rfl)]
    rfl
  by_cases hslash : base.getLast? = some '/'
  · rw [if_pos (.inr hslash)]
    obtain ⟨front, rfl⟩ := List.getLast?_eq_some_iff.mp hslash
    rw [List.append_assoc, List.singleton_append, components, components, components, hlead,
      lead_append_slash front path [], List.splitOn_append_cons_self,
      List.splitOn_append_cons_self, List.filterMap_append, List.filterMap_append,
      List.splitOn_nil]
    rw [List.append_assoc, List.append_assoc]
    rfl
  · rw [if_neg (not_or.mpr ⟨hnil, hslash⟩), components, components, components, hlead,
      lead_append hnil, List.splitOn_append_cons_self, List.filterMap_append, List.nil_append,
      List.append_assoc]

end Paths
