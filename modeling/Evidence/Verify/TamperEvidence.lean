/-
What a passing verification says of a bundle that carries another's signature.

The signature is over the two files of the metadata layer, so both are the signed
bundle's; the sums are, and with them every hash that is checked. What is left open
is which paths the two passes over the tree look at. The first reads the paths the
sums name, resolved by the operating system; the second sees the regular files, each
by a text that stands for it. A path that is read through a link is seen by neither
unless the sums name it, and a file whose text is not its own name is taken for the
one its text names. `Unaliased` excludes the two, and the sums of names that do not
come back; nothing else has to be excluded.
-/
import Mathlib.Algebra.Order.BigOperators.Group.List
import Mathlib.Algebra.Order.Ring.Nat
import Evidence.Verify.Bundle
import Evidence.Verify.SumsRoundTrip

set_option autoImplicit false

namespace Evidence.Verify

open Corpus Evidence.Bundle Check Sorting

/-! ## The guarantee -/

/-- A path whose names are UTF-8. -/
def Utf8 (path : RelPath) : Prop := ∀ name ∈ path, ∀ piece ∈ name, ∃ c, piece = .Valid c

/-- Some line of the sums names the path. -/
def Lists (text : List Char) (path : RelPath) : Prop :=
  ∃ line ∈ lines text, ∃ hash filename,
    split_once "  ".toList line = some (hash, filename) ∧
      FileTree.components (os_name filename) = path

section Guarantee

variable [Sha256]

structure Sealed [Ed25519] (b : FileTree) (key : SigningKey) (sig : List UInt8) : Prop where
  sums : read_bytes b "SHA256SUMS" = some (str_bytes (String.ofList (sha256sums_text b)))
  signed : sign_bundle b key = .ok sig

/-- Nothing was added to a sealed bundle, removed from it or changed. -/
structure TamperEvident (b b' : FileTree) : Prop where
  sums : b'.read_text "SHA256SUMS".toList = b.read_text "SHA256SUMS".toList
  index : b'.read_text "index.json".toList = b.read_text "index.json".toList
  unchanged : ∀ path content, b'.Readable path content → path ∉ META_PATHS →
    Lists (sha256sums_text b) path ∧ (path, content) ∈ hashed_files b
  kept : ∀ file ∈ hashed_files b, b'.Readable file.1 file.2

/-- No file of either bundle is seen by the text of another, and no path outside the sums
is read through a link. -/
structure Unaliased (b b' : FileTree) : Prop where
  plain : ∀ file ∈ hashed_files b, Utf8 file.1 ∧ Plain file.1
  regular : ∀ file ∈ b'.walk_files, Utf8 file.1 ∧ '\\' ∉ path_text file.1
  linked : ∀ path content, b'.Readable path content → b'.get path ≠ some (.File content) →
    path ∈ META_PATHS ∨ ∃ hashed, (path, hashed) ∈ hashed_files b

end Guarantee

/-! ## Names in the sums -/

theorem path_text_components {filename : List Char} {path : RelPath}
    (h : FileTree.components (os_name filename) = path) :
    Utf8 path ∧ path_text path = filename := by
  subst h
  constructor
  · intro name hname piece hpiece
    obtain ⟨c, -, rfl⟩ := List.mem_map.mp ((Segments.of_mem_splitOn hname).2 hpiece)
    exact ⟨c, rfl⟩
  · have hjoin : [OsPiece.Valid '/'].intercalate (FileTree.components (os_name filename)) =
        os_name filename := List.intercalate_splitOn _
    have hlossy : (os_name filename).map OsPiece.lossy = filename := by
      rw [os_name, List.map_map]
      exact List.map_id' filename
    unfold path_text to_string_lossy
    conv_rhs => rw [← hlossy, ← hjoin, Segments.map_intercalate]
    rfl

theorem utf8_of_meta {path : RelPath} (h : path ∈ META_PATHS) :
    Utf8 path ∧ '\\' ∉ path_text path := by
  have hspell : ∀ name : String, Utf8 (root_path name) := by
    intro name n hn piece hpiece
    rw [List.mem_singleton.mp hn] at hpiece
    obtain ⟨c, -, rfl⟩ := List.mem_map.mp hpiece
    exact ⟨c, rfl⟩
  have htext : ∀ path ∈ META_PATHS, '\\' ∉ path_text path := by decide
  refine ⟨?_, htext path h⟩
  simp only [META_PATHS, List.mem_cons, List.not_mem_nil, or_false] at h
  rcases h with rfl | rfl | rfl
  · exact hspell _
  · exact hspell _
  · exact hspell _

theorem meta_of_known {path : RelPath} (hne : path ≠ []) (hnamed : ∀ name ∈ path, IsName name)
    (hutf8 : Utf8 path) (h : KNOWN_META_FILES.contains (path_text path) = true) :
    path ∈ META_PATHS := by
  have hknown : ∀ text ∈ KNOWN_META_FILES,
      FileTree.components (os_name text) ∈ META_PATHS := by decide
  rw [← components_path_text hne hnamed hutf8]
  exact hknown _ (List.contains_iff_mem.mp h)

section Names

variable [Sha256] {b : FileTree}

theorem no_backslash_of_lists {path : RelPath} (h : Lists (sha256sums_text b) path) :
    Utf8 path ∧ '\\' ∉ path_text path := by
  obtain ⟨line, hline, hash, filename, hsplit, hpath⟩ := h
  obtain ⟨hutf8, htext⟩ := path_text_components hpath
  refine ⟨hutf8, fun hback => sha256sums_text_no_backslash b ?_⟩
  have hmem : '\\' ∈ line := by
    rw [split_once_eq_some hsplit]
    exact List.mem_append_right _ (htext ▸ hback)
  exact (of_mem_lines hline).2 hmem

theorem mem_lines_sums (hplain : ∀ file ∈ hashed_files b, Plain file.1) {line : List Char}
    (hne : line ≠ []) :
    line ∈ lines (sha256sums_text b) ↔ ∃ file ∈ hashed_files b, line = sums_line file := by
  have hkept : ∀ file ∈ hashed_files b, strip_cr (sums_line file) = sums_line file := by
    intro file hfile
    obtain ⟨hpath, hnamed⟩ := b.named _ (FileTree.get_eq_some_iff.mp (get_of_mem_hashed hfile))
    exact strip_cr_sums_line (hplain file hfile) (path_text_ne_nil hpath hnamed)
  rw [lines_sha256sums_text fun file hfile => (hplain file hfile).2.1]
  by_cases hnone : hashed_files b = []
  · rw [if_pos hnone, hnone]
    simp [hne]
  · rw [if_neg hnone, List.mem_map]
    constructor
    · rintro ⟨file, hfile, rfl⟩
      exact ⟨file, mem_sortBy.mp hfile, hkept file (mem_sortBy.mp hfile)⟩
    · rintro ⟨file, hfile, rfl⟩
      exact ⟨file, mem_sortBy.mpr hfile, hkept file hfile⟩

theorem split_plain_line {file : RelPath × List UInt8} (hplain : Plain file.1) :
    split_once "  ".toList (sums_line file) =
      some ((sha256 file.2).toList, path_text file.1) := by
  rw [sums_line, split_sums_line, normalize_bundle_path, ← path_text,
    replace_backslash_eq_self hplain.1]

theorem sums_line_ne_nil (file : RelPath × List UInt8) : sums_line file ≠ [] := by
  simp [sums_line]

theorem lists_of_hashed (hplain : ∀ file ∈ hashed_files b, Plain file.1)
    {file : RelPath × List UInt8} (hfile : file ∈ hashed_files b) (hutf8 : Utf8 file.1) :
    Lists (sha256sums_text b) file.1 := by
  obtain ⟨hne, hnamed⟩ := b.named _ (FileTree.get_eq_some_iff.mp (get_of_mem_hashed hfile))
  exact ⟨sums_line file, (mem_lines_sums hplain (sums_line_ne_nil file)).mpr ⟨file, hfile, rfl⟩,
    _, _, split_plain_line (hplain file hfile), components_path_text hne hnamed hutf8⟩

end Names

/-! ## The signature -/

section Signature

variable [Ed25519]

theorem valid_of_check_signature {bundle : FileTree} {key : VerifyingKey}
    (h : check_signature bundle (some key) = .ok []) :
    verify_bundle_signature bundle key = .ok true := by
  unfold check_signature at h
  simp only at h
  split at h
  · simp at h
  · obtain ⟨valid, hvalid, hresult⟩ := bind_ok_iff.mp h
    rw [mapError_ok_iff] at hvalid
    cases valid with
    | true => exact hvalid
    | false => simp at hresult

/-- **What is signed is what is read**: a bundle that verifies against the signature of a
sealed one has its sums and its index. -/
theorem read_of_signature {b b' : FileTree} {key : SigningKey} {sig : List UInt8}
    (hsign : sign_bundle b key = .ok sig) (hsig : read_bytes b' "BUNDLE.sig" = some sig)
    (hforge : ∀ message made, envelope b = .ok made →
      Ed25519.verify (Ed25519.verifying_key key) message (Ed25519.sign key made) = true →
      message = made)
    (hvalid : verify_bundle_signature b' (Ed25519.verifying_key key) = .ok true) :
    read_bytes b' "SHA256SUMS" = read_bytes b "SHA256SUMS" ∧
      read_bytes b' "index.json" = read_bytes b "index.json" := by
  obtain ⟨message, made, hmessage, hmade, hverify⟩ :=
    (verify_bundle_signature_signed hsign hsig).mp hvalid
  have hsame := hforge message made hmade hverify
  subst hsame
  unfold envelope at hmessage hmade
  simp only [bind_ok_iff, read_envelope_input_ok] at hmessage hmade
  obtain ⟨sums', hsums', index', hindex', henvelope'⟩ := hmessage
  obtain ⟨sums, hsums, index, hindex, henvelope⟩ := hmade
  have hbytes : envelope_bytes sums' index' = envelope_bytes sums index :=
    (Except.ok.inj henvelope').trans (Except.ok.inj henvelope).symm
  obtain ⟨rfl, rfl⟩ := envelope_bytes_inj (read_bytes_eq_some.mp hsums').2
    (read_bytes_eq_some.mp hsums).2 hbytes
  exact ⟨hsums'.trans hsums.symm, hindex'.trans hindex.symm⟩

end Signature

/-! ## The two directions -/

section Directions

variable [Sha256] {b b' : FileTree} {listed : Finset (List Char)}

/-- **A guarantee that holds excludes the aliases.** -/
theorem unaliased_of_tamperEvident (h : TamperEvident b b') : Unaliased b b' := by
  have hlists : ∀ file ∈ hashed_files b, Lists (sha256sums_text b) file.1 :=
    fun file hfile => (h.unchanged _ _ (h.kept file hfile) (mem_hashed_files.mp hfile).2).1
  constructor
  · intro file hfile
    refine ⟨(no_backslash_of_lists (hlists file hfile)).1, plain_of_named ?_ file hfile⟩
    intro other hother
    obtain ⟨line, hline, hash, filename, hsplit, hpath⟩ := hlists other hother
    exact ⟨line, hline, hash, by rw [(path_text_components hpath).2, hsplit]⟩
  · intro file hfile
    have hget := FileTree.mem_walk_files.mp hfile
    by_cases hmeta : file.1 ∈ META_PATHS
    · exact utf8_of_meta hmeta
    · obtain ⟨hne, hnamed⟩ := b'.named _ (FileTree.get_eq_some_iff.mp hget)
      have hreadable : b'.Readable file.1 file.2 := ⟨hne, hnamed, FileTree.resolve_of_get hget⟩
      exact no_backslash_of_lists (h.unchanged _ _ hreadable hmeta).1
  · intro path content hreadable _
    by_cases hmeta : path ∈ META_PATHS
    · exact .inl hmeta
    · exact .inr ⟨content, (h.unchanged path content hreadable hmeta).2⟩

theorem readable_of_entries (hplain : ∀ file ∈ hashed_files b, Utf8 file.1 ∧ Plain file.1)
    (hentries : hash_sha256sums_entries b' (sha256sums_text b) [] = .ok (listed, []))
    (hcollision : ∀ file ∈ hashed_files b, ∀ content, b'.Readable file.1 content →
      sha256 content = sha256 file.2 → content = file.2)
    {file : RelPath × List UInt8} (hfile : file ∈ hashed_files b) :
    b'.Readable file.1 file.2 := by
  obtain ⟨hne, hnamed⟩ := b.named _ (FileTree.get_eq_some_iff.mp (get_of_mem_hashed hfile))
  have hline := (mem_lines_sums (fun file hfile => (hplain file hfile).2)
    (sums_line_ne_nil file)).mpr ⟨file, hfile, rfl⟩
  obtain ⟨hash, filename, content, hsplit, hread, hhash, -⟩ :=
    (hash_sha256sums_entries_ok hentries).1 _ hline (sums_line_ne_nil file)
  rw [split_plain_line (hplain file hfile).2, Option.some.injEq, Prod.mk.injEq] at hsplit
  obtain ⟨rfl, rfl⟩ := hsplit
  rw [FileTree.resolve_text, components_path_text hne hnamed (hplain file hfile).1] at hread
  rw [String.ofList_toList] at hhash
  have hreadable : b'.Readable file.1 content := ⟨hne, hnamed, hread⟩
  rwa [← hcollision file hfile content hreadable hhash]

/-- A regular file whose text is its own name is one of the sealed bundle, or of the
metadata layer. -/
theorem hashed_of_walked (hplain : ∀ file ∈ hashed_files b, Utf8 file.1 ∧ Plain file.1)
    (hentries : hash_sha256sums_entries b' (sha256sums_text b) [] = .ok (listed, []))
    (hwalk : unexpected_files b' listed = []) {path : RelPath} {content : List UInt8}
    (hget : b'.get path = some (.File content)) (hutf8 : Utf8 path)
    (hback : '\\' ∉ path_text path) :
    path ∈ META_PATHS ∨ ∃ hashed, (path, hashed) ∈ hashed_files b := by
  obtain ⟨hne, hnamed⟩ := b'.named _ (FileTree.get_eq_some_iff.mp hget)
  have hseen := List.filterMap_eq_nil_iff.mp hwalk _ (FileTree.mem_walk_files.mpr hget)
  have htext : replace_backslash (to_string_lossy path) = path_text path :=
    replace_backslash_eq_self hback
  simp only [htext] at hseen
  split at hseen
  · next hlisted =>
    obtain ⟨line, hline, hash, hsplit⟩ := (hash_sha256sums_entries_ok hentries).2 _ hlisted
    have hsome : line ≠ [] := by
      rintro rfl
      simp [split_once] at hsplit
    obtain ⟨file, hfile, rfl⟩ :=
      (mem_lines_sums (fun file hfile => (hplain file hfile).2) hsome).mp hline
    rw [split_plain_line (hplain file hfile).2, Option.some.injEq, Prod.mk.injEq] at hsplit
    obtain ⟨hfilene, hfilenamed⟩ :=
      b.named _ (FileTree.get_eq_some_iff.mp (get_of_mem_hashed hfile))
    -- Two UTF-8 paths of one text are one path.
    have hsame : file.1 = path := by
      rw [← components_path_text hfilene hfilenamed (hplain file hfile).1, hsplit.2,
        components_path_text hne hnamed hutf8]
    exact .inr ⟨file.2, hsame ▸ hfile⟩
  · split at hseen
    · next hknown => exact .inl (meta_of_known hne hnamed hutf8 hknown)
    · cases hseen

end Directions

/-! ## The claim -/

section Claim

variable [Sha256] [Ed25519]

/-- **A bundle that passes under the signature of a sealed one is that bundle, exactly
when no file of the two is seen by another's text and no path outside the sums is read
through a link.** The signature is assumed to verify for nothing but what was signed, and
the hash not to collide on what the two bundles hold at one path. -/
theorem tamper_evidence_iff {passes : Passes} {b b' : FileTree} {key : SigningKey}
    {sig : List UInt8} (hsealed : Sealed b key sig)
    (hsig : read_bytes b' "BUNDLE.sig" = some sig)
    (hpass : verify_bundle_with_key passes b' (some (Ed25519.verifying_key key)) = .ok .Pass)
    (hforge : ∀ message made, envelope b = .ok made →
      Ed25519.verify (Ed25519.verifying_key key) message (Ed25519.sign key made) = true →
      message = made)
    (hcollision : ∀ file ∈ hashed_files b, ∀ content, b'.Readable file.1 content →
      sha256 content = sha256 file.2 → content = file.2) :
    TamperEvident b b' ↔ Unaliased b b' := by
  refine ⟨unaliased_of_tamperEvident, fun h => ?_⟩
  have hpassed := (verify_pass_iff passes b').mp hpass
  obtain ⟨hsums, hindex⟩ := read_of_signature hsealed.signed hsig hforge
    (valid_of_check_signature hpassed.signature)
  obtain ⟨index_content, index, hcontent, -, -, -, -, -, sums, listed, hread, hentries, -, -,
    hwalk⟩ := hpassed.index
  -- The sums that were checked are the sealed bundle's.
  have htext : sums = String.ofList (sha256sums_text b) := by
    unfold read_file read_to_string at hread
    rw [hsums, hsealed.sums, Option.bind_some, from_utf8_str_bytes] at hread
    exact (Except.ok.inj hread).symm
  rw [htext, String.toList_ofList] at hentries
  have hkept : ∀ file ∈ hashed_files b, b'.Readable file.1 file.2 :=
    fun file hfile => readable_of_entries h.plain hentries hcollision hfile
  have htexts : ∀ {filename : String} {content : List UInt8},
      read_bytes b filename = some content → read_bytes b' filename = read_bytes b filename →
      b'.read_text filename.toList = b.read_text filename.toList := by
    intro filename content hb hsame
    rw [hb] at hsame
    rw [(read_bytes_eq_some.mp hsame).1, (read_bytes_eq_some.mp hb).1]
  refine ⟨htexts hsealed.sums hsums, ?_, fun path content hreadable hmeta => ?_, hkept⟩
  · have hsome : ∃ content, read_bytes b "index.json" = some content := by
      unfold read_file read_to_string at hcontent
      rw [hindex] at hcontent
      cases hb : read_bytes b "index.json" with
      | none =>
        rw [hb] at hcontent
        exact nomatch hcontent
      | some content => exact ⟨content, rfl⟩
    obtain ⟨content, hb⟩ := hsome
    exact htexts hb hindex
  · have hhashed : ∃ hashed, (path, hashed) ∈ hashed_files b := by
      by_cases hget : b'.get path = some (.File content)
      · obtain ⟨hutf8, hback⟩ := h.regular _ (FileTree.mem_walk_files.mpr hget)
        rcases hashed_of_walked h.plain hentries hwalk hget hutf8 hback with hin | hsome
        · exact absurd hin hmeta
        · exact hsome
      · rcases h.linked path content hreadable hget with hin | hsome
        · exact absurd hin hmeta
        · exact hsome
    obtain ⟨hashed, hmem⟩ := hhashed
    -- What is read at the path is what was hashed there.
    have hsame : hashed = content := by
      have hboth := (hkept _ hmem).2.2.symm.trans hreadable.2.2
      rw [Option.some.injEq, Found.File.injEq] at hboth
      exact hboth
    subst hsame
    exact ⟨lists_of_hashed (fun file hfile => (h.plain file hfile).2) hmem
      (h.plain _ hmem).1, hmem⟩

end Claim

/-! ## A small bundle -/

section Examples

attribute [local instance] fips180

@[reducible] def one_message : Ed25519 where
  SigningKey := List UInt8
  VerifyingKey := List UInt8
  verifying_key := id
  sign := fun _ _ => List.replicate 64 0
  sign_length := fun _ _ => List.length_replicate
  verify := fun key message _ => decide (message = key)

attribute [local instance] one_message

/-- A tree without directories. -/
def flat_tree (named : List (String × Bundle.Node)) (hnodup : (named.map (root_path ·.1)).Nodup)
    (hnames : ∀ entry ∈ named, IsName (os_name entry.1.toList)) : FileTree where
  entries := named.map fun entry => (root_path entry.1, entry.2)
  outside := fun _ => none
  nodup := by rwa [List.map_map]
  named := by
    intro entry hentry
    obtain ⟨entry', hmem, rfl⟩ := List.mem_map.mp hentry
    exact ⟨List.cons_ne_nil _ _, fun n hn => List.mem_singleton.mp hn ▸ hnames _ hmem⟩
  parents := by
    intro entry hentry hparent
    obtain ⟨entry', -, rfl⟩ := List.mem_map.mp hentry
    exact absurd rfl hparent

theorem flat_tree_get {named : List (String × Bundle.Node)} {hnodup hnames} {path : RelPath}
    {node : Bundle.Node} : (flat_tree named hnodup hnames).get path = some node ↔
      ∃ name, (name, node) ∈ named ∧ root_path name = path := by
  rw [FileTree.get_eq_some_iff, flat_tree, List.mem_map]
  constructor
  · rintro ⟨entry, hentry, heq⟩
    rw [Prod.mk.injEq] at heq
    exact ⟨entry.1, heq.2 ▸ hentry, heq.1⟩
  · rintro ⟨name, hname, rfl⟩
    exact ⟨(name, node), hname, rfl⟩

/-- The files that are hashed in a small bundle, all of them empty. -/
def small_names : List String :=
  ["inputs_hashes.json", "outputs_hashes.json", "commands.json", "env.json",
    "deterministic-manifest.json"]

def small_files (sums sig : List UInt8) : List (String × Bundle.Node) :=
  small_names.map (fun name => (name, .File [])) ++
    [("index.json", .File []), ("SHA256SUMS", .File sums), ("BUNDLE.sig", .File sig)]

/-- A link to one of them. -/
def small_link (linked : Bool) : List (String × Bundle.Node) :=
  if linked then [("latest.json", .Symlink (os_name "env.json".toList))] else []

def all_names : List String :=
  small_names ++ ["index.json", "SHA256SUMS", "BUNDLE.sig", "latest.json"]

theorem small_sublist (sums sig : List UInt8) (linked : Bool) :
    ((small_files sums sig ++ small_link linked).map Prod.fst).Sublist all_names := by
  have hfiles : (small_files sums sig).map Prod.fst =
      small_names ++ ["index.json", "SHA256SUMS", "BUNDLE.sig"] := by
    simp [small_files, Function.comp_def]
  have hlink : ((small_link linked).map Prod.fst).Sublist ["latest.json"] := by
    cases linked <;> decide
  rw [List.map_append, hfiles, List.append_assoc]
  exact (List.Sublist.refl _).append ((List.Sublist.refl _).append hlink)

def small_bundle (sums sig : List UInt8) (linked : Bool) : FileTree :=
  flat_tree (small_files sums sig ++ small_link linked)
    (by
      have hnodup : (all_names.map root_path).Nodup := by decide
      have hsub := (small_sublist sums sig linked).map root_path
      rw [List.map_map] at hsub
      exact hnodup.sublist hsub)
    (by
      have hnamed : ∀ name ∈ all_names, IsName (os_name name.toList) := by decide
      exact fun entry hentry =>
        hnamed _ ((small_sublist sums sig linked).subset (List.mem_map_of_mem hentry)))

section Small

variable {sums sig : List UInt8} {linked : Bool}

theorem small_get_file {path : RelPath} {content : List UInt8} :
    (small_bundle sums sig linked).get path = some (.File content) ↔
      ∃ name, (name, .File content) ∈ small_files sums sig ∧ root_path name = path := by
  rw [small_bundle, flat_tree_get]
  have hlink : ∀ name, (name, Bundle.Node.File content) ∉ small_link linked := by
    intro name
    cases linked <;> simp [small_link]
  simp only [List.mem_append, hlink, or_false]

theorem small_resolve {name : String} {content : List UInt8}
    (h : (name, .File content) ∈ small_files sums sig) :
    (small_bundle sums sig linked).resolve_text name.toList = some (.File content) := by
  have hspell : ∀ name ∈ all_names,
      FileTree.components (os_name name.toList) = root_path name := by decide
  have hname : name ∈ all_names :=
    (small_sublist sums sig linked).subset
      (List.mem_map_of_mem (f := Prod.fst) (List.mem_append_left _ h))
  rw [FileTree.resolve_text, hspell name hname]
  exact FileTree.resolve_of_get (small_get_file.mpr ⟨name, h, rfl⟩)

theorem small_exists {name : String} {content : List UInt8}
    (h : (name, .File content) ∈ small_files sums sig) :
    (small_bundle sums sig linked).exists_text name.toList = true := by
  rw [FileTree.exists_text, small_resolve h, Option.isSome_some]

theorem small_read {name : String} {content : List UInt8}
    (h : (name, .File content) ∈ small_files sums sig) (hlen : content.length ≤ VEC_MAX) :
    read_bytes (small_bundle sums sig linked) name = some content := by
  refine read_bytes_eq_some.mpr ⟨?_, hlen⟩
  rw [FileTree.read_text, small_resolve h]

theorem hashed_small :
    hashed_files (small_bundle sums sig linked) =
      small_names.map fun name => (root_path name, []) := by
  have hwalk : (small_bundle sums sig linked).walk_files =
      (small_names.map fun name => (root_path name, [])) ++
        [(root_path "index.json", []), (root_path "SHA256SUMS", sums),
          (root_path "BUNDLE.sig", sig)] := by
    cases linked <;> rfl
  have hunlisted : ∀ name ∈ small_names, (!META_PATHS.contains (root_path name)) = true := by
    decide
  rw [hashed_files, hwalk, List.filter_append, List.filter_eq_self.mpr, List.filter_eq_nil_iff.mpr,
    List.append_nil]
  · intro file hfile
    have hmeta : file.1 ∈ META_PATHS := by
      simp only [List.mem_cons, List.not_mem_nil, or_false] at hfile
      rcases hfile with rfl | rfl | rfl
      · exact List.mem_cons_of_mem _ List.mem_cons_self
      · exact List.mem_cons_self
      · exact List.mem_cons_of_mem _ (List.mem_cons_of_mem _ List.mem_cons_self)
    rw [List.contains_iff_mem.mpr hmeta]
    exact Bool.false_ne_true
  · intro file hfile
    obtain ⟨name, hname, rfl⟩ := List.mem_map.mp hfile
    exact hunlisted name hname

def small_sums : List UInt8 :=
  str_bytes (String.ofList (sha256sums_text (small_bundle [] [] false)))

theorem small_line_length {file : RelPath × List UInt8}
    (hfile : file ∈ hashed_files (small_bundle [] [] false)) :
    (sums_line file ++ ['\n']).length ≤ 128 := by
  have hname : ∀ file ∈ small_names.map fun name => (root_path name, ([] : List UInt8)),
      (normalize_bundle_path file.1).length ≤ 32 := by decide
  have hshort := hname file (hashed_small ▸ hfile)
  have hhash := (str_len_bounds (sha256 file.2)).1
  rw [(sha256_format file.2).1] at hhash
  have hblanks : "  ".toList.length + ['\n'].length = 3 := by decide
  rw [sums_line, List.length_append, List.length_append, List.length_append]
  omega

theorem small_sums_length : small_sums.length ≤ VEC_MAX := by
  have hperm := @sortBy_perm _ path_cmp (hashed_files (small_bundle [] [] false))
  have hcount := hperm.length_eq
  rw [hashed_small, List.length_map] at hcount
  have hsome : (sortBy path_cmp (hashed_files (small_bundle [] [] false))).map sums_line ≠ [] := by
    intro hnil
    rw [List.map_eq_nil_iff, hashed_small] at hnil
    rw [hnil] at hcount
    exact nomatch hcount
  have hlength : (sha256sums_text (small_bundle [] [] false)).length ≤ 640 := by
    rw [sha256sums_text, Segments.intercalate_append_sep _ hsome, List.length_flatMap]
    refine (List.sum_le_card_nsmul _ 128 fun n hn => ?_).trans ?_
    · obtain ⟨line, hline, rfl⟩ := List.mem_map.mp hn
      obtain ⟨file, hfile, rfl⟩ := List.mem_map.mp hline
      exact small_line_length (mem_sortBy.mp hfile)
    · rw [List.length_map, List.length_map, hashed_small, hcount]
      decide
  have htext := (str_len_bounds (String.ofList (sha256sums_text (small_bundle [] [] false)))).2
  rw [String.toList_ofList] at htext
  have hmax : 4 * 640 ≤ VEC_MAX := by decide
  rw [small_sums, length_str_bytes]
  omega

/-- The one message the key of the small bundle is for. -/
def small_key : List UInt8 := envelope_bytes small_sums []

/-- What signing writes. -/
def small_sig : List UInt8 :=
  str_bytes (String.ofList (hex_encode (List.replicate 64 0) ++ ['\n']))

theorem small_sig_length : small_sig.length ≤ VEC_MAX := by
  have htext := (str_len_bounds (String.ofList (hex_encode (List.replicate 64 0) ++ ['\n']))).2
  have hlength : (hex_encode (List.replicate 64 0) ++ ['\n']).length = 129 := by
    decide +kernel
  have hmax : 4 * 129 ≤ VEC_MAX := by decide
  rw [String.toList_ofList, hlength] at htext
  rw [small_sig, length_str_bytes]
  omega

end Small

/-- The small bundle with its sums and its signature. -/
def sealed_bundle (linked : Bool) : FileTree := small_bundle small_sums small_sig linked

section Sealed

variable {linked : Bool}

theorem hashed_sealed :
    hashed_files (sealed_bundle linked) = small_names.map fun name => (root_path name, []) :=
  hashed_small

theorem sealed_sums : read_bytes (sealed_bundle linked) "SHA256SUMS" = some small_sums :=
  small_read (by simp [small_files]) small_sums_length

theorem sealed_index : read_bytes (sealed_bundle linked) "index.json" = some [] :=
  small_read (by simp [small_files]) (Nat.zero_le _)

theorem sealed_sig : read_bytes (sealed_bundle linked) "BUNDLE.sig" = some small_sig :=
  small_read (by simp [small_files]) small_sig_length

theorem sealed_envelope : envelope (sealed_bundle linked) = .ok small_key := by
  have hsums : read_envelope_input (sealed_bundle linked) "SHA256SUMS" = .ok small_sums :=
    read_envelope_input_ok.mpr sealed_sums
  have hindex : read_envelope_input (sealed_bundle linked) "index.json" = .ok [] :=
    read_envelope_input_ok.mpr sealed_index
  exact bind_ok_iff.mpr ⟨_, hsums, bind_ok_iff.mpr ⟨_, hindex, by rw [small_key]⟩⟩

theorem sealed_signed : sign_bundle (sealed_bundle linked) small_key = .ok small_sig := by
  rw [sign_bundle, sealed_envelope]
  rfl

theorem sealed_sealed : Sealed (sealed_bundle linked) small_key small_sig where
  sums := by
    rw [sealed_sums, small_sums, sha256sums_text, sha256sums_text, hashed_small, hashed_sealed]
  signed := sealed_signed

/-- Passes that find nothing. -/
def no_passes : Passes where
  parse_index := fun _ => some ⟨sha256 small_sums, []⟩
  index_checks := fun _ _ => []
  check_recipe_manifest := fun _ _ => .ok []
  consistency_checks := fun _ _ _ => []

/-- The small bundle without the link, as a tree of regular files. -/
def sealed_regular : RegularTree where
  toFileTree := sealed_bundle false
  regular := by
    intro entry hentry target htarget
    obtain ⟨named, hnamed, rfl⟩ := List.mem_map.mp hentry
    have hfile : ∀ entry ∈ small_files small_sums small_sig, ∀ target,
        entry.2 ≠ .Symlink target := by
      rintro ⟨name, node⟩ hmem target rfl
      simp [small_files] at hmem
    rw [small_link, if_neg Bool.false_ne_true, List.append_nil] at hnamed
    exact hfile _ hnamed target htarget
  utf8 := by
    intro entry hentry n hn piece hpiece
    obtain ⟨named, -, rfl⟩ := List.mem_map.mp hentry
    rw [List.mem_singleton.mp hn] at hpiece
    obtain ⟨c, -, rfl⟩ := List.mem_map.mp hpiece
    exact ⟨c, rfl⟩

theorem sealed_passes :
    verify_bundle_with_key no_passes (sealed_bundle linked) (some small_key) = .ok .Pass := by
  have hplain : ∀ file ∈ hashed_files sealed_regular.toFileTree, Plain file.1 := by
    have hnames : ∀ name ∈ small_names, '\\' ∉ path_text (root_path name) ∧
        '\n' ∉ path_text (root_path name) ∧
        (path_text (root_path name)).getLast? ≠ some '\r' := by decide
    intro file (hfile : file ∈ hashed_files (sealed_bundle false))
    rw [hashed_sealed] at hfile
    obtain ⟨name, hname, rfl⟩ := List.mem_map.mp hfile
    exact hnames name hname
  have hsame : SameFiles sealed_regular.toFileTree (sealed_bundle linked) := by
    intro path _ content
    exact small_get_file.trans small_get_file.symm
  obtain ⟨listed, hrun, hlisted, hwalk⟩ := round_trips_of_plain hsame hplain
  have hindex : "index.json".toList ∉ listed := by
    have hnames : ∀ name ∈ small_names, "index.json".toList ≠ path_text (root_path name) := by
      decide
    intro hmem
    obtain ⟨file, hfile, htext⟩ := (hlisted _).mp hmem
    change file ∈ hashed_files (sealed_bundle false) at hfile
    rw [hashed_sealed] at hfile
    obtain ⟨name, hname, rfl⟩ := List.mem_map.mp hfile
    exact hnames name hname htext
  have hsums : small_sums =
      str_bytes (String.ofList (sha256sums_text sealed_regular.toFileTree)) := by
    have hread := (@sealed_sealed false).sums
    rw [sealed_sums] at hread
    exact Option.some.inj hread
  have hread : ∀ {name content}, read_bytes (sealed_bundle linked) name = some content →
      (sealed_bundle linked).read_text name.toList = some content :=
    fun h => (read_bytes_eq_some.mp h).1
  refine (verify_pass_iff _ _).mpr ⟨?_, ?_, ?_⟩
  -- the files, the sums, the signature
  · refine List.filterMap_eq_nil_iff.mpr fun f hf => if_pos ?_
    have hfiles : ∀ f ∈ REQUIRED_FILES, ∃ content,
        (f, Bundle.Node.File content) ∈ small_files small_sums small_sig := by
      simp [REQUIRED_FILES, small_files, small_names]
    obtain ⟨content, hcontent⟩ := hfiles f hf
    exact small_exists hcontent
  · refine ⟨"", ⟨sha256 small_sums, []⟩, ?_, rfl, rfl, rfl, ?_, rfl,
      String.ofList (sha256sums_text sealed_regular.toFileTree), listed, ?_, ?_, if_neg hindex,
      rfl, hwalk⟩
    · rw [read_file, read_to_string, sealed_index, Option.bind_some,
        show ([] : List UInt8) = str_bytes "" from rfl, from_utf8_str_bytes]
    · rw [sha256_file, hread sealed_sums]
    · rw [read_file, read_to_string, sealed_sums, Option.bind_some, hsums, from_utf8_str_bytes]
    · rw [String.toList_ofList]
      exact hrun
  · have hvalid : verify_bundle_signature (sealed_bundle linked) small_key = .ok true :=
      (verify_bundle_signature_signed (@sealed_signed linked) sealed_sig).mpr
        ⟨small_key, small_key, sealed_envelope, sealed_envelope, decide_eq_true rfl⟩
    have hexists : (sealed_bundle linked).exists_text "BUNDLE.sig".toList = true :=
      @small_exists _ _ _ _ small_sig (by simp [small_files])
    simp only [check_signature, hexists, hvalid]
    rfl

theorem sealed_forge (message made : List UInt8) (hmade : envelope (sealed_bundle false) = .ok made)
    (hverify : Ed25519.verify (Ed25519.verifying_key small_key) message
      (Ed25519.sign small_key made) = true) : message = made := by
  rw [sealed_envelope] at hmade
  rw [← Except.ok.inj hmade]
  exact of_decide_eq_true hverify

theorem sealed_contents (file : RelPath × List UInt8)
    (hfile : file ∈ hashed_files (sealed_bundle false)) (content : List UInt8)
    (hreadable : (sealed_bundle linked).Readable file.1 content) : content = file.2 := by
  have hget := get_of_mem_hashed hfile
  rw [sealed_bundle, small_get_file] at hget
  have hresolve := FileTree.resolve_of_get ((@small_get_file _ _ linked _ _).mpr hget)
  exact Found.File.inj (Option.some.inj (hreadable.2.2.symm.trans hresolve))

end Sealed

/-- The small bundle vouches for itself. -/
theorem tamper_evidence_iff_self :
    TamperEvident (sealed_bundle false) (sealed_bundle false) ↔
      Unaliased (sealed_bundle false) (sealed_bundle false) :=
  @tamper_evidence_iff _ _ no_passes _ _ small_key small_sig sealed_sealed sealed_sig sealed_passes
    sealed_forge
    fun file hfile content hreadable _ => sealed_contents file hfile content hreadable

/-- The link is read, and the sums say nothing of it. -/
theorem latest_readable : (sealed_bundle true).Readable (root_path "latest.json") [] := by
  have hnamed : ∀ name ∈ root_path "latest.json", IsName name := by decide
  have hlink : (sealed_bundle true).get ([] ++ root_path "latest.json") =
      some (.Symlink (os_name "env.json".toList)) := by
    rw [sealed_bundle, small_bundle, flat_tree_get]
    exact ⟨"latest.json", by simp [small_link], rfl⟩
  have henv : (sealed_bundle true).get ([] ++ root_path "env.json") = some (.File []) :=
    small_get_file.mpr ⟨"env.json", by simp [small_files, small_names], rfl⟩
  have hspell : FileTree.components (os_name "env.json".toList) = root_path "env.json" := by
    decide
  refine ⟨List.cons_ne_nil _ _, hnamed, ?_⟩
  rw [FileTree.resolve, FileTree.MAX_LINKS, FileTree.walk_links,
    root_path,
    FileTree.walk_of_link _ (hnamed _ List.mem_cons_self) hlink, List.append_nil, hspell]
  exact FileTree.walk_of_get _ henv (List.cons_ne_nil _ _)

/-- **An added link passes**: the walk takes only regular files, and the sums do not name it. -/
theorem tamper_evidence_fails :
    ¬ ∀ (passes : Passes) (b b' : FileTree) (key : SigningKey) (sig : List UInt8),
      Sealed b key sig → read_bytes b' "BUNDLE.sig" = some sig →
      verify_bundle_with_key passes b' (some (Ed25519.verifying_key key)) = .ok .Pass →
      (∀ message made, envelope b = .ok made →
        Ed25519.verify (Ed25519.verifying_key key) message (Ed25519.sign key made) = true →
        message = made) →
      (∀ file ∈ hashed_files b, ∀ content, b'.Readable file.1 content →
        sha256 content = sha256 file.2 → content = file.2) →
      TamperEvident b b' := by
  intro hclaim
  have hevident := hclaim no_passes (sealed_bundle false) (sealed_bundle true) small_key small_sig
    sealed_sealed sealed_sig sealed_passes sealed_forge
    fun file hfile content hreadable _ => sealed_contents file hfile content hreadable
  have hmeta : root_path "latest.json" ∉ META_PATHS := by decide
  have hhashed := (hevident.unchanged _ _ latest_readable hmeta).2
  rw [hashed_sealed] at hhashed
  exact absurd hhashed (by decide)

end Examples

end Evidence.Verify
