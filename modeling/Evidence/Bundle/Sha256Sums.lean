/-
`hash.rs` -- writing `SHA256SUMS` over the files of a bundle.

One line per regular file, `<hash>  <path>`, in path order and with no escaping
of the path: whatever a name holds goes into the line, but for backslashes,
which become slashes. The three files of the metadata layer are left out at the
root, by their path.
-/
import Evidence.Bundle.FileTree
import Evidence.Corpus.Digest
import Evidence.Lib.Sorting

set_option autoImplicit false

namespace Evidence.Bundle

open Corpus Sorting

/-! ## The writer -/

/-- `HashError`, as far as a tree that can be read raises it. -/
inductive HashError where
  | Write (path : RelPath)
deriving DecidableEq

/-- A file at the root. -/
def root_path (name : String) : RelPath := [os_name name.toList]

/-- The paths of the metadata layer: the sums themselves, the index and the signature. -/
def META_PATHS : List RelPath :=
  [root_path "SHA256SUMS", root_path "index.json", root_path "BUNDLE.sig"]

/-- The files `write_sha256sums` hashes. -/
def hashed_files (t : FileTree) : List (RelPath × List UInt8) :=
  t.walk_files.filter fun file => !META_PATHS.contains file.1

/-- `PathBuf` order: by the bytes of the names. -/
def path_cmp : RelPath × List UInt8 → RelPath × List UInt8 → Ordering :=
  compareOn fun file => file.1.map name_bytes

section Write

variable [Sha256]

def sums_line (file : RelPath × List UInt8) : List Char :=
  (sha256 file.2).toList ++ "  ".toList ++ normalize_bundle_path file.1

def sha256sums_text (t : FileTree) : List Char :=
  ['\n'].intercalate ((sortBy path_cmp (hashed_files t)).map sums_line) ++ ['\n']

/-- Write the sums over a tree, and return the text: it is an error if a directory is in
their place. -/
def write_sha256sums (t : FileTree) : Except HashError (List Char) :=
  if t.get (root_path "SHA256SUMS") = some .Dir then .error (.Write (root_path "SHA256SUMS"))
  else .ok (sha256sums_text t)

end Write

/-! ## The tree that was written to -/

def FileTree.with_root_file (t : FileTree) (name : String) (content : List UInt8)
    (hname : IsName (os_name name.toList)) (hfree : t.get (root_path name) ≠ some .Dir) :
    FileTree where
  entries := (root_path name, .File content) :: t.entries.filter (·.1 ≠ root_path name)
  outside := t.outside
  nodup := by
    rw [List.map_cons, List.nodup_cons]
    refine ⟨fun h => ?_, (List.Nodup.filter _ t.nodup.of_map).map_on fun a ha b hb hab => ?_⟩
    · obtain ⟨entry, hentry, hpath⟩ := List.mem_map.mp h
      exact of_decide_eq_true (List.mem_filter.mp hentry).2 hpath
    · exact List.inj_on_of_nodup_map t.nodup (List.mem_of_mem_filter ha) (List.mem_of_mem_filter hb)
        hab
  named := by
    intro entry hentry
    rcases List.mem_cons.mp hentry with rfl | hentry
    · exact ⟨List.cons_ne_nil _ _, fun n hn => List.mem_singleton.mp hn ▸ hname⟩
    · exact t.named _ (List.mem_of_mem_filter hentry)
  parents := by
    intro entry hentry hparent
    rcases List.mem_cons.mp hentry with rfl | hentry
    · exact absurd rfl hparent
    · have hdir := t.parents _ (List.mem_of_mem_filter hentry) hparent
      refine List.mem_cons_of_mem _ (List.mem_filter.mpr ⟨hdir, decide_eq_true fun h => ?_⟩)
      have hpath : entry.1.dropLast = root_path name := h
      exact hfree (FileTree.get_eq_some_iff.mpr (hpath ▸ hdir))

theorem FileTree.get_with_root_file {t : FileTree} {name : String} {content : List UInt8}
    {hname : IsName (os_name name.toList)} {hfree : t.get (root_path name) ≠ some .Dir}
    (path : RelPath) :
    (t.with_root_file name content hname hfree).get path =
      if path = root_path name then some (.File content) else t.get path := by
  refine Option.ext fun node => ?_
  rw [get_eq_some_iff, with_root_file, List.mem_cons, List.mem_filter, decide_eq_true_eq]
  split
  · next hpath =>
    rw [hpath]
    constructor
    · rintro (h | ⟨-, h⟩)
      · rw [Prod.mk.injEq] at h
        rw [h.2]
      · exact absurd rfl h
    · intro h
      exact .inl (by rw [Option.some.inj h])
  · next hpath =>
    rw [get_eq_some_iff]
    constructor
    · rintro (h | ⟨h, -⟩)
      · exact absurd (congrArg Prod.fst h) hpath
      · exact h
    · exact fun h => .inr ⟨h, hpath⟩

end Evidence.Bundle
