/-
The file tree a bundle is: directories, regular files and symbolic links under
one root, and how the operating system resolves a path in it.

A name is what the file system stores, cut the way `Utf8Chunks` cuts it: into
scalar values and maximal invalid byte sequences. `to_string_lossy` replaces the
latter, so two names may have one text. Resolution follows links wherever they
stand in a path, up to the system's limit; a link that leaves the root is
answered by `outside`, which is whatever the rest of the file system holds.
-/
import Mathlib.Data.List.Nodup
import Evidence.Lines

set_option autoImplicit false

namespace Evidence.Bundle

/-! ## Names and paths -/

inductive OsPiece where
  | Valid (c : Char)
  | Invalid (bytes : List UInt8)
deriving DecidableEq

/-- A file name. -/
abbrev OsName := List OsPiece

/-- A path below the root, name by name. -/
abbrev RelPath := List OsName

def os_name (text : List Char) : OsName := text.map .Valid

def OsPiece.lossy : OsPiece → Char
  | Valid c => c
  | Invalid _ => '\uFFFD'

def OsPiece.bytes : OsPiece → List UInt8
  | Valid c => str_bytes (String.singleton c)
  | Invalid bytes => bytes

/-- The bytes of a name, by which paths are ordered. -/
def name_bytes (name : OsName) : List UInt8 := name.flatMap OsPiece.bytes

/-- `path.to_string_lossy()`: the names with slashes between them. -/
def to_string_lossy (path : RelPath) : List Char :=
  ['/'].intercalate (path.map fun name => name.map OsPiece.lossy)

/-- `replace('\\', "/")`. -/
def replace_backslash (text : List Char) : List Char :=
  text.map fun c => if c = '\\' then '/' else c

/-- `normalize_bundle_path`: the path with forward slashes. -/
def normalize_bundle_path (path : RelPath) : List Char := replace_backslash (to_string_lossy path)

theorem replace_backslash_eq_self {text : List Char} (h : '\\' ∉ text) :
    replace_backslash text = text := by
  unfold replace_backslash
  conv_rhs => rw [← List.map_id text]
  apply List.map_congr_left
  intro c hc
  have hne : c ≠ '\\' := fun heq => h (heq ▸ hc)
  rw [if_neg hne, id_eq]

theorem not_mem_replace_backslash (text : List Char) : '\\' ∉ replace_backslash text := by
  intro h
  obtain ⟨c, -, hc⟩ := List.mem_map.mp h
  split at hc
  · exact absurd hc (by decide)
  · next hne => exact hne hc

/-- A UTF-8 name is what its text spells. -/
theorem os_name_lossy {name : OsName} (h : ∀ piece ∈ name, ∃ c, piece = .Valid c) :
    os_name (name.map OsPiece.lossy) = name := by
  unfold os_name
  rw [List.map_map]
  conv_rhs => rw [← List.map_id name]
  apply List.map_congr_left
  intro piece hpiece
  obtain ⟨c, rfl⟩ := h piece hpiece
  rfl

/-- What a directory may hold an entry under. -/
def IsName (name : OsName) : Prop :=
  name ≠ [] ∧ name ≠ os_name ['.'] ∧ name ≠ os_name ['.', '.'] ∧ .Valid '/' ∉ name

instance (name : OsName) : Decidable (IsName name) := inferInstanceAs (Decidable (_ ∧ _))

/-! ## Trees -/

/-- What a path names without following a link in its last place. -/
inductive Node where
  | File (content : List UInt8)
  | Dir
  | Symlink (target : OsName)
deriving DecidableEq

/-- What a path resolves to. -/
inductive Found where
  | File (content : List UInt8)
  | Dir
deriving DecidableEq

/-- A finite tree under a root. -/
structure FileTree where
  entries : List (RelPath × Node)
  /-- What the file system holds at a path that leaves the root: one whose first
  component is empty (an absolute path) or `..`. -/
  outside : List OsName → Option Found
  nodup : (entries.map Prod.fst).Nodup
  named : ∀ entry ∈ entries, entry.1 ≠ [] ∧ ∀ name ∈ entry.1, IsName name
  parents : ∀ entry ∈ entries, entry.1.dropLast ≠ [] → (entry.1.dropLast, .Dir) ∈ entries

namespace FileTree

variable (t : FileTree)

/-- The entry at a path. -/
def get (path : RelPath) : Option Node := (t.entries.find? (·.1 == path)).map Prod.snd

theorem get_eq_some_iff {t : FileTree} {path : RelPath} {node : Node} :
    t.get path = some node ↔ (path, node) ∈ t.entries := by
  unfold get
  constructor
  · intro h
    obtain ⟨entry, hfind, rfl⟩ := Option.map_eq_some_iff.mp h
    have hpath := List.find?_some hfind
    rw [beq_iff_eq] at hpath
    rw [← hpath]
    exact List.mem_of_find?_eq_some hfind
  · intro hmem
    cases hfind : t.entries.find? (·.1 == path) with
    | none => exact absurd (beq_self_eq_true path) (List.find?_eq_none.mp hfind _ hmem)
    | some entry =>
      have hpath := List.find?_some hfind
      rw [beq_iff_eq] at hpath
      rw [List.inj_on_of_nodup_map t.nodup (List.mem_of_find?_eq_some hfind) hmem hpath]
      rfl

/-- What lies on the way to an entry is a directory. -/
theorem get_ancestor {t : FileTree} {path rest : RelPath} {node : Node}
    (hmem : (path ++ rest, node) ∈ t.entries) (hpath : path ≠ []) (hrest : rest ≠ []) :
    t.get path = some .Dir := by
  induction rest using List.reverseRecOn generalizing node with
  | nil => exact absurd rfl hrest
  | append_singleton rest name ih =>
    have hdrop : (path ++ (rest ++ [name])).dropLast = path ++ rest := by
      rw [← List.append_assoc, List.dropLast_concat]
    have hparent := t.parents _ hmem
    rw [hdrop] at hparent
    have hdir := hparent fun h => hpath (List.append_eq_nil_iff.mp h).1
    by_cases hnil : rest = []
    · rw [hnil, List.append_nil] at hdir
      exact get_eq_some_iff.mpr hdir
    · exact ih hdir hnil

/-! ## Resolution -/

/-- The components of a text, cut at its slashes. -/
def components (pieces : OsName) : List OsName := pieces.splitOn (.Valid '/')

/-- **A UTF-8 path is what its text spells.** -/
theorem components_to_string_lossy {path : RelPath} (hne : path ≠ [])
    (hnamed : ∀ name ∈ path, IsName name)
    (hutf8 : ∀ name ∈ path, ∀ piece ∈ name, ∃ c, piece = .Valid c) :
    components (os_name (to_string_lossy path)) = path := by
  have hname : ∀ name ∈ path, os_name (name.map OsPiece.lossy) = name :=
    fun name hmem => os_name_lossy (hutf8 name hmem)
  have htext : os_name (to_string_lossy path) = [.Valid '/'].intercalate path := by
    unfold os_name to_string_lossy
    rw [Segments.map_intercalate, List.map_map]
    have hmap : path.map ((·.map OsPiece.Valid) ∘ fun name => name.map OsPiece.lossy) = path := by
      conv_rhs => rw [← List.map_id path]
      exact List.map_congr_left hname
    rw [hmap]
    rfl
  rw [components, htext]
  exact List.splitOn_intercalate _ (fun name hmem => (hnamed name hmem).2.2.2) hne

/-- Walk down from a directory. `follow` resolves the target of a link together with the
components behind it. -/
def walk (follow : RelPath → List OsName → Option Found) : RelPath → List OsName → Option Found
  | _, [] => some .Dir
  | here, name :: rest =>
    if name = [] ∨ name = os_name ['.'] then walk follow here rest
    else if name = os_name ['.', '.'] then
      if here = [] then t.outside (name :: rest) else walk follow here.dropLast rest
    else
      match t.get (here ++ [name]) with
      | none => none
      | some (.File content) => if rest = [] then some (.File content) else none
      | some .Dir => walk follow (here ++ [name]) rest
      | some (.Symlink target) => follow here (components target ++ rest)

/-- Walk down over at most `limit` links. -/
def walk_links : ℕ → RelPath → List OsName → Option Found
  | 0 => t.walk fun _ _ => none
  | limit + 1 => t.walk fun here path =>
    if path.head? = some [] then t.outside path else walk_links limit here path

/-- The system's limit on links in one resolution. -/
def MAX_LINKS : ℕ := 40

/-- What a path below the root resolves to. -/
def resolve (path : List OsName) : Option Found := t.walk_links MAX_LINKS [] path

/-- What `root.join(filename)` resolves to. -/
def resolve_text (filename : List Char) : Option Found := t.resolve (components (os_name filename))

/-- `root.join(filename).exists()`. -/
def exists_text (filename : List Char) : Bool := (t.resolve_text filename).isSome

/-- `fs::read(root.join(filename))`, where it succeeds. -/
def read_text (filename : List Char) : Option (List UInt8) :=
  match t.resolve_text filename with
  | some (.File content) => some content
  | _ => none

/-- A path below the root can be read as a file. -/
def Readable (path : RelPath) (content : List UInt8) : Prop :=
  path ≠ [] ∧ (∀ name ∈ path, IsName name) ∧ t.resolve path = some (.File content)

/-- The regular files, as a walk that follows no link lists them. -/
def walk_files : List (RelPath × List UInt8) :=
  t.entries.filterMap fun entry =>
    match entry.2 with
    | .File content => some (entry.1, content)
    | _ => none

theorem mem_walk_files {t : FileTree} {path : RelPath} {content : List UInt8} :
    (path, content) ∈ t.walk_files ↔ t.get path = some (.File content) := by
  rw [walk_files, List.mem_filterMap, get_eq_some_iff]
  constructor
  · rintro ⟨⟨path', node⟩, hmem, hnode⟩
    cases node with
    | File content' =>
      obtain ⟨rfl, rfl⟩ := Prod.mk.injEq .. ▸ Option.some.inj hnode
      exact hmem
    | Dir => exact nomatch hnode
    | Symlink target => exact nomatch hnode
  · intro hmem
    exact ⟨_, hmem, rfl⟩

/-- **Induction along a path of the tree**: on the way to its node every name is the name of
a directory. -/
theorem path_induction {t : FileTree} {node : Node} {motive : RelPath → List OsName → Prop}
    (last : ∀ here name, IsName name → t.get (here ++ [name]) = some node → motive here [name])
    (down : ∀ here name rest, IsName name → t.get (here ++ [name]) = some .Dir →
      motive (here ++ [name]) rest → motive here (name :: rest))
    {here rest : RelPath} (hget : t.get (here ++ rest) = some node) (hrest : rest ≠ []) :
    motive here rest := by
  have hmem := get_eq_some_iff.mp hget
  induction rest generalizing here with
  | nil => exact absurd rfl hrest
  | cons name rest ih =>
    have hname : IsName name := (t.named _ hmem).2 name (by simp)
    by_cases hnil : rest = []
    · subst hnil
      exact last here name hname hget
    · rw [List.append_cons] at hget hmem
      exact down here name rest hname (get_ancestor hmem (by simp) hnil) (ih hget hnil hmem)

theorem walk_of_get {t : FileTree} (follow : RelPath → List OsName → Option Found)
    {here rest : RelPath} {content : List UInt8}
    (hget : t.get (here ++ rest) = some (.File content)) (hrest : rest ≠ []) :
    t.walk follow here rest = some (.File content) := by
  refine path_induction (motive := fun here rest => t.walk follow here rest = some (.File content))
    ?_ ?_ hget hrest
  · rintro here name ⟨hempty, hdot, hdots, -⟩ hget
    rw [walk, if_neg (not_or.mpr ⟨hempty, hdot⟩), if_neg hdots, hget]
    exact if_pos rfl
  · rintro here name rest ⟨hempty, hdot, hdots, -⟩ hdir ih
    rw [walk, if_neg (not_or.mpr ⟨hempty, hdot⟩), if_neg hdots, hdir]
    exact ih

theorem walk_of_link {t : FileTree} (follow : RelPath → List OsName → Option Found)
    {here rest : RelPath} {name target : OsName} (hname : IsName name)
    (hget : t.get (here ++ [name]) = some (.Symlink target)) :
    t.walk follow here (name :: rest) = follow here (components target ++ rest) := by
  rw [walk, if_neg (not_or.mpr ⟨hname.1, hname.2.1⟩), if_neg hname.2.2.1, hget]

theorem resolve_of_get {t : FileTree} {path : RelPath} {content : List UInt8}
    (hget : t.get path = some (.File content)) : t.resolve path = some (.File content) :=
  walk_of_get _ hget (t.named _ (get_eq_some_iff.mp hget)).1

end FileTree

end Evidence.Bundle
