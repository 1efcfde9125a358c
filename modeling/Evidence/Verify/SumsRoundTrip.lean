/-
What the verifier reads out of the sums the writer wrote.

The line format has no escapes. A name without a backslash, a line feed or a
carriage return at its end survives it: the hash in front has no blank, so the
first two blanks of a line are the separator, however many the name begins with.
Every other name is lost, because no name the verifier reads has a backslash or
a line feed in it, and because each carriage return at the end of a name would
have to come from a longer name of the same kind.
-/
import Mathlib.Data.Finset.Max
import Evidence.Verify.Sums

set_option autoImplicit false

namespace Evidence.Verify

open Corpus Evidence.Bundle Sorting

/-! ## Trees of regular files -/

/-- A tree of directories and regular files whose names are UTF-8. -/
structure RegularTree extends FileTree where
  regular : ∀ entry ∈ entries, ∀ target, entry.2 ≠ .Symlink target
  utf8 : ∀ entry ∈ entries, ∀ name ∈ entry.1, ∀ piece ∈ name, ∃ c, piece = .Valid c

def path_text (path : RelPath) : List Char := to_string_lossy path

/-- A path the sums can carry: it has no backslash and no line feed, and does not end in a
carriage return. -/
def Plain (path : RelPath) : Prop :=
  '\\' ∉ path_text path ∧ '\n' ∉ path_text path ∧ (path_text path).getLast? ≠ some '\r'

section RoundTrip

variable [Sha256]

/-- The verifier reads back what the writer wrote: no error, exactly the hashed files, and
no file besides. -/
def RoundTrips (t written : FileTree) (text : List Char) : Prop :=
  ∃ listed, hash_sha256sums_entries written text [] = .ok (listed, []) ∧
    (∀ filename, filename ∈ listed ↔ ∃ file ∈ hashed_files t, filename = path_text file.1) ∧
    unexpected_files written listed = []

/-! ## Lines -/

theorem sha256_plain (content : List UInt8) {c : Char}
    (hc : c = ' ' ∨ c = '\n' ∨ c = '\\' ∨ c = '\r') : c ∉ (sha256 content).toList := by
  intro h
  have hlower := (digest_char (Sha256.sha256_hex content) h).2
  rcases hc with rfl | rfl | rfl | rfl <;> exact absurd hlower (by decide)

/-- The separator is the first double blank of a line. -/
theorem split_sums_line (content : List UInt8) (rest : List Char) :
    split_once "  ".toList ((sha256 content).toList ++ "  ".toList ++ rest) =
      some ((sha256 content).toList, rest) := by
  rw [List.append_assoc, show "  ".toList = ' ' :: " ".toList by simp,
    split_once_append (sha256_plain content (.inl rfl))]
  simp [split_once]

/-! ## Plain paths -/

omit [Sha256] in
/-- A UTF-8 path is what its text spells. -/
theorem components_path_text {path : RelPath} (hne : path ≠ [])
    (hnamed : ∀ name ∈ path, IsName name)
    (hutf8 : ∀ name ∈ path, ∀ piece ∈ name, ∃ c, piece = .Valid c) :
    FileTree.components (os_name (path_text path)) = path :=
  FileTree.components_to_string_lossy hne hnamed hutf8

omit [Sha256] in
/-- Its text is safe to join, unless it begins with a backslash. -/
theorem is_safe_path_text {path : RelPath} (hne : path ≠ [])
    (hnamed : ∀ name ∈ path, IsName name)
    (hutf8 : ∀ name ∈ path, ∀ piece ∈ name, ∃ c, piece = .Valid c)
    (hplain : '\\' ∉ path_text path) : is_safe_bundle_path (path_text path) = true := by
  have hspell : ∀ name ∈ path, os_name (name.map OsPiece.lossy) = name := by
    intro name hmem
    exact os_name_lossy (hutf8 name hmem)
  have hslash : ∀ name ∈ path.map (·.map OsPiece.lossy), '/' ∉ name := by
    intro text htext hmem
    obtain ⟨name, hname, rfl⟩ := List.mem_map.mp htext
    have hpiece : OsPiece.Valid '/' ∈ os_name (name.map OsPiece.lossy) :=
      List.mem_map.mpr ⟨'/', hmem, rfl⟩
    rw [hspell name hname] at hpiece
    exact (hnamed name hname).2.2.2 hpiece
  have hsplit : (path_text path).splitOn '/' = path.map (·.map OsPiece.lossy) :=
    List.splitOn_intercalate '/' hslash (by simpa using hne)
  have hdots : ((path_text path).splitOn '/').all (· != ['.', '.']) = true := by
    rw [hsplit, List.all_eq_true]
    intro text htext
    obtain ⟨name, hname, rfl⟩ := List.mem_map.mp htext
    rw [bne_iff_ne]
    intro hdots
    apply (hnamed name hname).2.2.1
    rw [← hdots]
    exact (hspell name hname).symm
  have hhead : ∀ c, (path_text path).head? = some c → c ≠ '/' := by
    obtain ⟨first, others, rfl⟩ := List.exists_cons_of_ne_nil hne
    obtain ⟨piece, pieces, rfl⟩ :=
      List.exists_cons_of_ne_nil (hnamed first List.mem_cons_self).1
    have hfirst := hslash _ (List.mem_map.mpr ⟨_, List.mem_cons_self, rfl⟩)
    have htext : (path_text ((piece :: pieces) :: others)).head? = some piece.lossy := by
      unfold path_text to_string_lossy
      cases others <;> rfl
    rintro c hc rfl
    rw [htext] at hc
    exact hfirst (Option.some.inj hc ▸ List.mem_cons_self)
  have hback : (path_text path).head? ≠ some '\\' := fun h => hplain (List.mem_of_head? h)
  rw [is_safe_bundle_path, hdots, Bool.and_true, Bool.and_eq_true, bne_iff_ne, bne_iff_ne]
  exact ⟨fun h => hhead _ h rfl, hback⟩

/-! ## Reading a line -/

/-- A digest passes the format check. -/
theorem sha256_format (content : List UInt8) :
    str_len (sha256 content) = 64 ∧ (sha256 content).toList.all is_ascii_hexdigit = true := by
  have hvalid := Sha256.sha256_hex content
  refine ⟨?_, List.all_eq_true.mpr fun c hc => ?_⟩
  · rw [is_valid_digest_hex, Bool.and_eq_true, beq_iff_eq] at hvalid
    exact hvalid.1
  · obtain ⟨hascii, hlower⟩ := digest_char hvalid hc
    have hmod : c.toNat % 2 ^ 8 = c.toNat := Nat.mod_eq_of_lt (by omega)
    simp only [is_lower_hex, is_ascii_digit, Bool.or_eq_true, Bool.and_eq_true, decide_eq_true_eq,
      UInt8.le_iff_toNat_le, UInt8.toNat_ofNat', hmod] at hlower
    simp only [is_ascii_hexdigit, Char.isDigit, Bool.or_eq_true, Bool.and_eq_true,
      decide_eq_true_eq, ge_iff_le, Char.le_def, UInt32.le_iff_toNat_le]
    have hval : c.val.toNat = c.toNat := rfl
    have hliterals : (0x30 : UInt8).toNat = 48 ∧ (0x39 : UInt8).toNat = 57 ∧
        (0x61 : UInt8).toNat = 97 ∧ (0x66 : UInt8).toNat = 102 := ⟨rfl, rfl, rfl, rfl⟩
    have hletters : '0'.val.toNat = 48 ∧ '9'.val.toNat = 57 ∧
        'a'.val.toNat = 97 ∧ 'f'.val.toNat = 102 := ⟨rfl, rfl, rfl, rfl⟩
    omega

/-- **A line of a file that is there** lists its name and adds no error. -/
theorem check_line_listed {w : FileTree} {filename : List Char} {content : List UInt8}
    (hsafe : is_safe_bundle_path filename = true)
    (hread : w.resolve_text filename = some (.File content)) (checked : Checked) :
    check_line w checked ((sha256 content).toList ++ "  ".toList ++ filename) =
      .ok (insert filename checked.1, checked.2) := by
  obtain ⟨hlen, hhex⟩ := sha256_format content
  have hexists : w.exists_text filename = true := by
    rw [FileTree.exists_text, hread]
    rfl
  have hcontent : w.read_text filename = some content := by
    rw [FileTree.read_text, hread]
  have hnonempty : ((sha256 content).toList ++ "  ".toList ++ filename).isEmpty = false := by
    simp
  rw [check_line, hnonempty, if_neg Bool.false_ne_true]
  simp only [split_sums_line, String.ofList_toList, hlen, hhex, hsafe, hexists, hcontent, ne_eq,
    not_true_eq_false, Bool.true_eq_false, or_self, if_false, Bool.not_true, Bool.false_eq_true]

/-! ## The files the sums are over -/

variable {t : RegularTree}

omit [Sha256] in
theorem mem_hashed_files {t : FileTree} {path : RelPath} {content : List UInt8} :
    (path, content) ∈ hashed_files t ↔ t.get path = some (.File content) ∧ path ∉ META_PATHS := by
  rw [hashed_files, List.mem_filter, FileTree.mem_walk_files, Bool.not_eq_true',
    ← Bool.not_eq_true, List.contains_iff_mem]

omit [Sha256] in
theorem get_of_mem_hashed {t : FileTree} {file : RelPath × List UInt8}
    (h : file ∈ hashed_files t) : t.get file.1 = some (.File file.2) :=
  (mem_hashed_files.mp h).1

omit [Sha256] in
theorem RegularTree.of_mem_hashed {file : RelPath × List UInt8}
    (h : file ∈ hashed_files t.toFileTree) :
    (file.1, .File file.2) ∈ t.entries ∧ file.1 ∉ META_PATHS :=
  ⟨FileTree.get_eq_some_iff.mp (get_of_mem_hashed h), (mem_hashed_files.mp h).2⟩

omit [Sha256] in
theorem RegularTree.path_of_mem_hashed {file : RelPath × List UInt8}
    (h : file ∈ hashed_files t.toFileTree) :
    file.1 ≠ [] ∧ (∀ name ∈ file.1, IsName name) ∧
      ∀ name ∈ file.1, ∀ piece ∈ name, ∃ c, piece = .Valid c := by
  have hmem := (RegularTree.of_mem_hashed h).1
  obtain ⟨hne, hnamed⟩ := t.named _ hmem
  exact ⟨hne, hnamed, t.utf8 _ hmem⟩

variable {w : FileTree}

/-- A tree with the same regular files, but for the metadata layer. -/
def SameFiles (t w : FileTree) : Prop :=
  ∀ path, path ∉ META_PATHS → ∀ content,
    w.get path = some (.File content) ↔ t.get path = some (.File content)

theorem check_line_file (hsame : SameFiles t.toFileTree w) {file : RelPath × List UInt8}
    (hfile : file ∈ hashed_files t.toFileTree) (hplain : Plain file.1) (checked : Checked) :
    check_line w checked (sums_line file) =
      .ok (insert (path_text file.1) checked.1, checked.2) := by
  obtain ⟨hmem, hmeta⟩ := RegularTree.of_mem_hashed hfile
  obtain ⟨hne, hnamed, hutf8⟩ := RegularTree.path_of_mem_hashed hfile
  have hget : w.get file.1 = some (.File file.2) :=
    (hsame _ hmeta _).mpr (FileTree.get_eq_some_iff.mpr hmem)
  have hread : w.resolve_text (path_text file.1) = some (.File file.2) := by
    rw [FileTree.resolve_text, components_path_text hne hnamed hutf8]
    exact FileTree.resolve_of_get hget
  have hsafe := is_safe_path_text hne hnamed hutf8 hplain.1
  have hline : sums_line file = (sha256 file.2).toList ++ "  ".toList ++ path_text file.1 := by
    rw [sums_line, normalize_bundle_path, ← path_text, replace_backslash_eq_self hplain.1]
  rw [hline]
  exact check_line_listed hsafe hread checked

/-- **Reading the lines of plain paths** lists them all and finds no error. -/
theorem check_lines_files (hsame : SameFiles t.toFileTree w)
    {files : List (RelPath × List UInt8)} (hfiles : ∀ file ∈ files, file ∈ hashed_files t.toFileTree)
    (hplain : ∀ file ∈ files, Plain file.1) (checked : Checked) :
    ∃ listed, (files.map sums_line).foldlM (check_line w) checked = .ok (listed, checked.2) ∧
      ∀ filename, filename ∈ listed ↔
        filename ∈ checked.1 ∨ ∃ file ∈ files, filename = path_text file.1 := by
  induction files generalizing checked with
  | nil => exact ⟨checked.1, rfl, fun filename => by simp⟩
  | cons file files ih =>
    have hstep := check_line_file hsame (hfiles file List.mem_cons_self)
      (hplain file List.mem_cons_self) checked
    obtain ⟨listed, hrun, hlisted⟩ := ih (fun f hf => hfiles f (List.mem_cons_of_mem _ hf))
      (fun f hf => hplain f (List.mem_cons_of_mem _ hf))
      (insert (path_text file.1) checked.1, checked.2)
    refine ⟨listed, ?_, fun filename => ?_⟩
    · rw [List.map_cons, List.foldlM_cons, hstep]
      exact hrun
    · rw [hlisted, Finset.mem_insert]
      simp only [List.mem_cons, exists_eq_or_imp]
      tauto

/-! ## Lines of the text -/

theorem sums_line_no_break {file : RelPath × List UInt8} (h : '\n' ∉ path_text file.1) :
    '\n' ∉ sums_line file := by
  have hnormal : '\n' ∉ normalize_bundle_path file.1 := by
    intro hmem
    obtain ⟨c, hc, hline⟩ := List.mem_map.mp hmem
    by_cases hback : c = '\\'
    · rw [if_pos hback] at hline
      exact absurd hline (by decide)
    · rw [if_neg hback] at hline
      exact h (hline ▸ hc)
  exact List.not_mem_append (List.not_mem_append (sha256_plain _ (.inr (.inl rfl))) (by decide)) hnormal

theorem lines_sha256sums_text {t : FileTree}
    (hplain : ∀ file ∈ hashed_files t, '\n' ∉ path_text file.1) :
    lines (sha256sums_text t) =
      if hashed_files t = [] then [[]]
      else (sortBy path_cmp (hashed_files t)).map fun file => strip_cr (sums_line file) := by
  have hlines : ∀ line ∈ (sortBy path_cmp (hashed_files t)).map sums_line, '\n' ∉ line := by
    intro line hline
    obtain ⟨file, hfile, rfl⟩ := List.mem_map.mp hline
    exact sums_line_no_break (hplain file (mem_sortBy.mp hfile))
  unfold sha256sums_text
  by_cases hnone : hashed_files t = []
  · rw [if_pos hnone, hnone]
    rfl
  · have hsome : (sortBy path_cmp (hashed_files t)).map sums_line ≠ [] := by
      intro h
      rw [List.map_eq_nil_iff] at h
      have hperm := @sortBy_perm _ path_cmp (hashed_files t)
      rw [h] at hperm
      exact hnone hperm.nil_eq.symm
    rw [if_neg hnone, Segments.intercalate_append_sep '\n' hsome, lines_flatMap hlines,
      List.map_map]
    rfl

/-! ## Every plain tree makes the round trip -/

theorem strip_cr_sums_line {file : RelPath × List UInt8} (hplain : Plain file.1)
    (hne : path_text file.1 ≠ []) : strip_cr (sums_line file) = sums_line file := by
  rw [strip_cr, if_neg]
  rw [sums_line, normalize_bundle_path, ← path_text, replace_backslash_eq_self hplain.1,
    List.getLast?_append_of_ne_nil _ hne]
  exact hplain.2.2

omit [Sha256] in
theorem path_text_ne_nil {path : RelPath} (hne : path ≠ []) (hnamed : ∀ name ∈ path, IsName name) :
    path_text path ≠ [] := by
  obtain ⟨first, others, rfl⟩ := List.exists_cons_of_ne_nil hne
  obtain ⟨piece, pieces, rfl⟩ := List.exists_cons_of_ne_nil (hnamed first List.mem_cons_self).1
  unfold path_text to_string_lossy
  cases others <;> exact List.cons_ne_nil _ _

theorem round_trips_of_plain (hsame : SameFiles t.toFileTree w)
    (hplain : ∀ file ∈ hashed_files t.toFileTree, Plain file.1) :
    RoundTrips t.toFileTree w (sha256sums_text t.toFileTree) := by
  have hlines := lines_sha256sums_text fun file hfile => (hplain file hfile).2.1
  have hkept : ∀ file ∈ sortBy path_cmp (hashed_files t.toFileTree),
      strip_cr (sums_line file) = sums_line file := by
    intro file hfile
    have hhashed := mem_sortBy.mp hfile
    obtain ⟨hne, hnamed, -⟩ := RegularTree.path_of_mem_hashed hhashed
    exact strip_cr_sums_line (hplain file hhashed) (path_text_ne_nil hne hnamed)
  obtain ⟨listed, hrun, hlisted⟩ := @check_lines_files _ _ _ hsame
    (sortBy path_cmp (hashed_files t.toFileTree)) (fun file hfile => mem_sortBy.mp hfile)
    (fun file hfile => hplain file (mem_sortBy.mp hfile)) (∅, [])
  have hnames : ∀ filename, filename ∈ listed ↔
      ∃ file ∈ hashed_files t.toFileTree, filename = path_text file.1 := by
    intro filename
    rw [hlisted]
    simp only [Finset.notMem_empty, false_or, mem_sortBy]
  refine ⟨listed, ?_, hnames, ?_⟩
  · unfold hash_sha256sums_entries
    rw [hlines]
    by_cases hnone : hashed_files t.toFileTree = []
    · rw [if_pos hnone]
      rw [hnone] at hrun
      exact hrun
    · rw [if_neg hnone, List.map_congr_left hkept]
      exact hrun
  · unfold unexpected_files
    rw [List.filterMap_eq_nil_iff]
    rintro ⟨path, content⟩ hfile
    have hget := FileTree.mem_walk_files.mp hfile
    simp only
    by_cases hmeta : path ∈ META_PATHS
    · have hknown : KNOWN_META_FILES.contains (replace_backslash (to_string_lossy path)) = true := by
        have hall : ∀ path ∈ META_PATHS,
            KNOWN_META_FILES.contains (replace_backslash (to_string_lossy path)) = true := by
          decide
        exact hall path hmeta
      rw [hknown]
      split <;> rfl
    · have hhashed : (path, content) ∈ hashed_files t.toFileTree := by
        refine List.mem_filter.mpr ⟨?_, ?_⟩
        · exact FileTree.mem_walk_files.mpr ((hsame path hmeta content).mp hget)
        · simpa using hmeta
      have hpath : Plain path := hplain _ hhashed
      rw [if_pos]
      rw [← path_text, replace_backslash_eq_self hpath.1, hnames]
      exact ⟨_, hhashed, rfl⟩

/-! ## No other tree does -/

theorem check_line_lists {checked checked' : Checked} {line filename : List Char}
    (h : check_line w checked line = .ok checked') (hmem : filename ∈ checked'.1) :
    filename ∈ checked.1 ∨ ∃ hash, split_once "  ".toList line = some (hash, filename) := by
  unfold check_line at h
  split at h
  · rw [Except.ok.inj h]
    exact .inl hmem
  · split at h
    · rw [← Except.ok.inj h] at hmem
      exact .inl hmem
    · next hash name hsplit =>
      have hinsert : checked'.1 = checked.1 ∨ checked'.1 = insert name checked.1 := by
        split at h
        · exact .inl (by rw [← Except.ok.inj h])
        · split at h
          · exact .inl (by rw [← Except.ok.inj h])
          · simp only at h
            split at h
            · exact .inr (by rw [← Except.ok.inj h])
            · split at h
              · exact nomatch h
              · split at h
                · exact .inr (by rw [← Except.ok.inj h])
                · exact .inr (by rw [← Except.ok.inj h])
      rcases hinsert with hsame | hinsert
      · exact .inl (hsame ▸ hmem)
      · rw [hinsert, Finset.mem_insert] at hmem
        rcases hmem with rfl | hmem
        · exact .inr ⟨hash, hsplit⟩
        · exact .inl hmem

theorem listed_of_lines {ls : List (List Char)} {checked checked' : Checked} {filename : List Char}
    (h : ls.foldlM (check_line w) checked = .ok checked') (hmem : filename ∈ checked'.1) :
    filename ∈ checked.1 ∨
      ∃ line ∈ ls, ∃ hash, split_once "  ".toList line = some (hash, filename) := by
  induction ls generalizing checked with
  | nil => exact .inl (Except.ok.inj h ▸ hmem)
  | cons line ls ih =>
    rw [List.foldlM_cons] at h
    cases hstep : check_line w checked line with
    | error e =>
      rw [hstep] at h
      exact nomatch h
    | ok next =>
      rw [hstep] at h
      rcases ih h with hnext | ⟨line', hline', hash, hsplit⟩
      · rcases check_line_lists hstep hnext with hbefore | ⟨hash, hsplit⟩
        · exact .inl hbefore
        · exact .inr ⟨line, List.mem_cons_self, hash, hsplit⟩
      · exact .inr ⟨line', List.mem_cons_of_mem line hline', hash, hsplit⟩

theorem sha256sums_text_no_backslash (t : FileTree) : '\\' ∉ sha256sums_text t := by
  have hlines : ∀ line ∈ (sortBy path_cmp (hashed_files t)).map sums_line, '\\' ∉ line := by
    intro line hline
    obtain ⟨file, -, rfl⟩ := List.mem_map.mp hline
    exact List.not_mem_append (List.not_mem_append (sha256_plain _ (.inr (.inr (.inl rfl))))
      (by decide)) (not_mem_replace_backslash _)
  exact List.not_mem_append (Segments.not_mem_intercalate (by decide) hlines) (by decide)

/-- **Every path that some line of the sums names is plain.** -/
theorem plain_of_named {t : FileTree}
    (hline : ∀ file ∈ hashed_files t, ∃ line ∈ lines (sha256sums_text t),
      ∃ hash, split_once "  ".toList line = some (hash, path_text file.1)) :
    ∀ file ∈ hashed_files t, Plain file.1 := by
  have hclean : ∀ file ∈ hashed_files t,
      '\\' ∉ path_text file.1 ∧ '\n' ∉ path_text file.1 := by
    intro file hfile
    obtain ⟨line, hmem, hash, hsplit⟩ := hline file hfile
    obtain ⟨hbreak, hsub⟩ := of_mem_lines hmem
    have hname : path_text file.1 ⊆ line := by
      rw [split_once_eq_some hsplit]
      exact List.subset_append_right _ _
    exact ⟨fun hc => sha256sums_text_no_backslash t (hsub (hname hc)),
      fun hc => hbreak (hname hc)⟩
  -- so each is another's but for a carriage return at its end
  have hcut : ∀ file ∈ hashed_files t, ∃ other ∈ hashed_files t,
      path_text file.1 = strip_cr (path_text other.1) := by
    intro file hfile
    obtain ⟨line, hmem, hash, hsplit⟩ := hline file hfile
    rw [lines_sha256sums_text fun file hfile => (hclean file hfile).2,
      if_neg (List.ne_nil_of_mem hfile)] at hmem
    obtain ⟨other, hother, rfl⟩ := List.mem_map.mp hmem
    have hhashed := mem_sortBy.mp hother
    obtain ⟨hne, hnamed⟩ := t.named _ (FileTree.get_eq_some_iff.mp (get_of_mem_hashed hhashed))
    rw [sums_line, normalize_bundle_path, ← path_text,
      replace_backslash_eq_self (hclean other hhashed).1,
      strip_cr_append _ (path_text_ne_nil hne hnamed), split_sums_line, Option.some.injEq,
      Prod.mk.injEq] at hsplit
    exact ⟨other, hhashed, hsplit.2.symm⟩
  -- a longest path that ends in one has no longer path to come from
  have hreturn : ∀ file ∈ hashed_files t, (path_text file.1).getLast? ≠ some '\r' := by
    intro file hfile hend
    have hsome : ((hashed_files t).filter
        fun file => (path_text file.1).getLast? == some '\r').toFinset.Nonempty :=
      ⟨file, List.mem_toFinset.mpr (List.mem_filter.mpr ⟨hfile, beq_iff_eq.mpr hend⟩)⟩
    obtain ⟨longest, hlongest, hmax⟩ :=
      Finset.exists_max_image _ (fun file => (path_text file.1).length) hsome
    rw [List.mem_toFinset, List.mem_filter, beq_iff_eq] at hlongest
    obtain ⟨other, hother, hcut⟩ := hcut longest hlongest.1
    by_cases hreturn : (path_text other.1).getLast? = some '\r'
    · have hle := hmax other
        (List.mem_toFinset.mpr (List.mem_filter.mpr ⟨hother, beq_iff_eq.mpr hreturn⟩))
      have hpos : path_text other.1 ≠ [] := by
        intro hnil
        rw [hnil] at hreturn
        exact nomatch hreturn
      have hlen := List.length_pos_iff.mpr hpos
      rw [strip_cr, if_pos hreturn] at hcut
      rw [hcut, List.length_dropLast] at hle
      omega
    · rw [strip_cr, if_neg hreturn] at hcut
      rw [hcut] at hlongest
      exact hreturn hlongest.2
  intro file hfile
  obtain ⟨hback, hbreak⟩ := hclean file hfile
  exact ⟨hback, hbreak, hreturn file hfile⟩

theorem plain_of_round_trips (h : RoundTrips t.toFileTree w (sha256sums_text t.toFileTree)) :
    ∀ file ∈ hashed_files t.toFileTree, Plain file.1 := by
  obtain ⟨listed, hrun, hnames, -⟩ := h
  refine plain_of_named fun file hfile => ?_
  have hlisted := (hnames (path_text file.1)).mpr ⟨file, hfile, rfl⟩
  rcases listed_of_lines hrun hlisted with hnone | hsome
  · exact absurd hnone (Finset.notMem_empty _)
  · exact hsome

/-! ## The claim -/

omit [Sha256] in
theorem sums_name : IsName (os_name "SHA256SUMS".toList) := by decide

theorem free_of_write {t : FileTree} {text : List Char} (h : write_sha256sums t = .ok text) :
    t.get (root_path "SHA256SUMS") ≠ some .Dir := by
  unfold write_sha256sums at h
  split at h
  · exact nomatch h
  · next hfree => exact hfree

/-- **The sums make the round trip exactly when every path is plain.** -/
theorem sha256sums_round_trip {text : List Char}
    (hwrite : write_sha256sums t.toFileTree = .ok text) :
    RoundTrips t.toFileTree
        (t.toFileTree.with_root_file "SHA256SUMS" (str_bytes (String.ofList text)) sums_name
          (free_of_write hwrite)) text ↔
      ∀ file ∈ hashed_files t.toFileTree, Plain file.1 := by
  have htext : text = sha256sums_text t.toFileTree := by
    rw [write_sha256sums, if_neg (free_of_write hwrite)] at hwrite
    exact (Except.ok.inj hwrite).symm
  subst htext
  constructor
  · exact plain_of_round_trips
  · refine round_trips_of_plain fun path hpath content => ?_
    rw [FileTree.get_with_root_file, if_neg]
    rintro rfl
    exact hpath (by decide)

end RoundTrip

/-! ## A name with a line feed -/

section Examples

attribute [local instance] fips180

def one_file (name : String) (content : List UInt8) (hname : IsName (os_name name.toList)) :
    RegularTree where
  entries := [(root_path name, .File content)]
  outside := fun _ => none
  nodup := List.nodup_singleton _
  named := by
    intro entry hentry
    rw [List.mem_singleton] at hentry
    rw [hentry]
    exact ⟨List.cons_ne_nil _ _, fun n hn => List.mem_singleton.mp hn ▸ hname⟩
  parents := by
    intro entry hentry hparent
    rw [List.mem_singleton] at hentry
    rw [hentry] at hparent
    exact absurd rfl hparent
  regular := by
    intro entry hentry target h
    rw [List.mem_singleton] at hentry
    rw [hentry] at h
    exact nomatch h
  utf8 := by
    intro entry hentry n hn piece hpiece
    rw [List.mem_singleton] at hentry
    rw [hentry] at hn
    rw [List.mem_singleton.mp hn] at hpiece
    obtain ⟨c, -, rfl⟩ := List.mem_map.mp hpiece
    exact ⟨c, rfl⟩

/-- The sums of a tree with one plain file. -/
theorem sha256sums_round_trip_one :
    RoundTrips (one_file "env.json" [] (by decide)).toFileTree
        ((one_file "env.json" [] (by decide)).toFileTree.with_root_file "SHA256SUMS"
          (str_bytes (String.ofList (sha256sums_text (one_file "env.json" [] (by decide)).toFileTree)))
          sums_name (free_of_write rfl))
        (sha256sums_text (one_file "env.json" [] (by decide)).toFileTree) ↔
      ∀ file ∈ hashed_files (one_file "env.json" [] (by decide)).toFileTree, Plain file.1 :=
  sha256sums_round_trip rfl

/-- **A line feed does not come back**: the line of a name with one in it is read as two,
the first of which names a file that is not there. -/
theorem sha256sums_cuts_name :
    ¬ ∀ (t : RegularTree) (text : List Char)
      (hwrite : write_sha256sums t.toFileTree = .ok text),
      RoundTrips t.toFileTree
        (t.toFileTree.with_root_file "SHA256SUMS" (str_bytes (String.ofList text)) sums_name
          (free_of_write hwrite)) text := by
  intro hclaim
  have htrip := hclaim (one_file "a\nb" [] (by decide)) _ rfl
  have hplain := plain_of_round_trips htrip (root_path "a\nb", []) (by decide)
  exact absurd hplain.2.1 (by decide)

end Examples

end Evidence.Verify
