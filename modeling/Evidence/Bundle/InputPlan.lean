/-
`bundle/input_scope.rs` -- when the input plan has every input once.

The plan's entries come from three producers: the files of the packages and those that
control the workspace are walked to, and are written by the names on the way; what is
declared to be required is put in as the policy spells it. They are told apart as texts,
and two texts can lead to one file: `./a`, `a/./b` and `a//b` are spellings of paths too.
A declared path may also lead to a directory, or to a file that the walk of its package
passes over; and a name that is not UTF-8 is written with replacement characters.

The plan is exact if and only if the inputs are spelled as the walk spells them
(`input_plan_promise_iff`).
-/
import Evidence.Bundle.InputScope
import Evidence.Lib.Check

set_option autoImplicit false

namespace Evidence.Bundle

open Sorting

/-! ## Where a text leads -/

namespace FileTree

variable {t : FileTree}

/-- Every name of a path is UTF-8. -/
def Utf8 (path : RelPath) : Prop := ∀ name ∈ path, ∀ piece ∈ name, ∃ c, piece = .Valid c

theorem is_file_iff {path : RelPath} :
    t.is_file path = true ↔ ∃ content, t.get path = some (.File content) := by
  unfold is_file
  split
  · next content hget => exact ⟨fun _ => ⟨content, hget⟩, fun _ => rfl⟩
  · next hnot => exact ⟨fun h => absurd h Bool.false_ne_true, fun ⟨c, hget⟩ => (hnot c hget).elim⟩

theorem mem_walk_paths {path : RelPath} :
    path ∈ t.walk_files.map Prod.fst ↔ t.is_file path = true := by
  rw [is_file_iff, List.mem_map]
  constructor
  · rintro ⟨⟨path', content⟩, hmem, rfl⟩
    exact ⟨content, mem_walk_files.mp hmem⟩
  · rintro ⟨content, hget⟩
    exact ⟨(path, content), mem_walk_files.mpr hget, rfl⟩

/-- Names that the tree has on a path lead along it. -/
theorem locate_of_get {here rest : RelPath} {node : Node}
    (hget : t.get (here ++ rest) = some node) (hlink : ∀ target, node ≠ .Symlink target)
    (hrest : rest ≠ []) : t.locate here rest = some (here ++ rest) := by
  refine path_induction (motive := fun here rest => t.locate here rest = some (here ++ rest))
    ?_ ?_ hget hrest
  · rintro here name ⟨hempty, hdot, hdots, -⟩ hget
    rw [locate, if_neg (not_or.mpr ⟨hempty, hdot⟩), if_neg hdots, hget]
    cases node with
    | File content => exact if_pos rfl
    | Dir => rfl
    | Symlink target => exact absurd rfl (hlink target)
  · rintro here name rest ⟨hempty, hdot, hdots, -⟩ hdir ih
    rw [locate, if_neg (not_or.mpr ⟨hempty, hdot⟩), if_neg hdots, hdir,
      List.append_cons here name rest]
    exact ih

theorem utf8_of_locate {here path : RelPath} {names : List OsName}
    (h : t.locate here names = some path) (hhere : Utf8 here) (hnames : Utf8 names) :
    Utf8 path := by
  induction names generalizing here with
  | nil =>
    obtain rfl := Option.some.inj h
    exact hhere
  | cons name names ih =>
    obtain ⟨hname, hrest⟩ := List.forall_mem_cons.mp hnames
    have hdown : Utf8 (here ++ [name]) := by
      intro other hother
      rcases List.mem_append.mp hother with hother | hother
      · exact hhere other hother
      · rw [List.mem_singleton.mp hother]
        exact hname
    rw [locate] at h
    by_cases hskip : name = [] ∨ name = os_name ['.']
    · rw [if_pos hskip] at h
      exact ih h hhere hrest
    rw [if_neg hskip] at h
    by_cases hdots : name = os_name ['.', '.']
    · rw [if_pos hdots] at h
      by_cases hroot : here = []
      · rw [if_pos hroot] at h
        cases h
      · rw [if_neg hroot] at h
        exact ih h (fun other hother => hhere other (List.dropLast_subset here hother)) hrest
    rw [if_neg hdots] at h
    split at h
    · by_cases hnil : names = []
      · rw [if_pos hnil] at h
        obtain rfl := Option.some.inj h
        exact hdown
      · rw [if_neg hnil] at h
        cases h
    · exact ih h hdown hrest
    · cases h

theorem utf8_of_located {text : String} {path : RelPath} (h : t.located text = some path) :
    Utf8 path := by
  refine utf8_of_locate h (fun name hname => absurd hname List.not_mem_nil) ?_
  intro name hname piece hpiece
  obtain ⟨c, _, hc⟩ := List.mem_map.mp ((Segments.of_mem_splitOn hname).2 hpiece)
  exact ⟨c, hc.symm⟩

theorem located_text {path : RelPath} {node : Node} (hget : t.get path = some node)
    (hlink : ∀ target, node ≠ .Symlink target) (hutf8 : Utf8 path) :
    t.located (String.ofList (to_string_lossy path)) = some path := by
  obtain ⟨hne, hnamed⟩ := t.named _ (get_eq_some_iff.mp hget)
  rw [located, String.toList_ofList, components_to_string_lossy hne hnamed hutf8]
  have hlocate : t.locate [] path = some ([] ++ path) := locate_of_get hget hlink hne
  exact hlocate

end FileTree

namespace InputScope

open FileTree (Utf8)

variable {t : SourceTree} {root : String}

/-! ## What is walked to -/

/-- A path lies below a directory, or is it, and no directory between is excluded. -/
def Below (dir path : RelPath) : Prop :=
  ∃ below, path = dir ++ below ∧ ∀ name ∈ below.dropLast, is_excluded name = false

theorem mem_files_below {t : FileTree} {dir below : RelPath} :
    below ∈ files_below t dir ↔
      t.is_file (dir ++ below) = true ∧ ∀ name ∈ below.dropLast, is_excluded name = false := by
  rw [files_below, List.mem_filter, List.all_eq_true, List.mem_map]
  refine and_congr ?_ ?_
  · constructor
    · rintro ⟨path, hpath, rfl⟩
      obtain ⟨hmem, hprefix⟩ := List.mem_filter.mp hpath
      obtain ⟨rest, rfl⟩ := List.isPrefixOf_iff_prefix.mp hprefix
      rw [List.drop_left]
      exact FileTree.mem_walk_paths.mp hmem
    · intro hfile
      refine ⟨dir ++ below, List.mem_filter.mpr ⟨FileTree.mem_walk_paths.mpr hfile, ?_⟩,
        List.drop_left⟩
      exact List.isPrefixOf_iff_prefix.mpr (List.prefix_append _ _)
  · simp only [Bool.not_eq_true']

/-- The text that the walk writes for a path. -/
def text (path : RelPath) : String := String.ofList (to_string_lossy path)

/-- A directory of the tree: its root, or an entry. -/
def IsDir (t : FileTree) (path : RelPath) : Prop := path = [] ∨ t.get path = some .Dir

theorem get_nil (t : FileTree) : t.get [] = none := by
  cases hget : t.get [] with
  | none => rfl
  | some node => exact absurd rfl (t.named _ (FileTree.get_eq_some_iff.mp hget)).1

theorem not_file_of_dir {path : RelPath} (h : IsDir t.toFileTree path) :
    t.is_file path = false := by
  rw [← Bool.not_eq_true, FileTree.is_file_iff]
  rintro ⟨content, hget⟩
  rcases h with rfl | hdir
  · rw [get_nil] at hget
    cases hget
  · rw [hdir] at hget
    cases hget

theorem located_dir {dir : RelPath} (h : IsDir t.toFileTree dir) (hutf8 : Utf8 dir) :
    t.located (text dir) = some dir ∧ spec_names (text dir) = dir := by
  rcases h with rfl | hdir
  · exact ⟨rfl, rfl⟩
  · obtain ⟨hne, hnamed⟩ := t.named _ (FileTree.get_eq_some_iff.mp hdir)
    refine ⟨FileTree.located_text hdir (fun target => Node.noConfusion) hutf8, ?_⟩
    rw [spec_names, text, String.toList_ofList,
      FileTree.components_to_string_lossy hne hnamed hutf8]
    refine List.filter_eq_self.mpr fun name hname => ?_
    obtain ⟨hempty, hdot, _⟩ := hnamed name hname
    rw [Bool.not_eq_true', Bool.or_eq_false_iff, beq_eq_false_iff_ne, beq_eq_false_iff_ne]
    exact ⟨hempty, hdot⟩

/-- **A directory is enumerated to the files below it,** unless it is excluded itself. -/
theorem mem_walk_dir {dir : RelPath} (h : IsDir t.toFileTree dir) (hutf8 : Utf8 dir)
    {file : String} : file ∈ walk_spec t root (text dir) ↔
      is_excluded (os_name (file_name (Paths.join root.toList (text dir).toList))) = false ∧
        ∃ path, t.is_file path = true ∧ Below dir path ∧ text path = file := by
  obtain ⟨hlocated, hnames⟩ := located_dir h hutf8
  simp only [walk_spec, hlocated, hnames, not_file_of_dir h, Bool.false_eq_true, if_false]
  cases is_excluded (os_name (file_name (Paths.join root.toList (text dir).toList))) with
  | true => simp only [if_true, List.not_mem_nil, Bool.true_eq_false, false_and]
  | false =>
    simp only [Bool.false_eq_true, if_false, true_and, List.mem_map, mem_files_below]
    constructor
    · rintro ⟨below, ⟨hfile, hbetween⟩, rfl⟩
      exact ⟨dir ++ below, hfile, ⟨below, rfl, hbetween⟩, rfl⟩
    · rintro ⟨path, hfile, ⟨below, rfl, hbetween⟩, rfl⟩
      exact ⟨below, ⟨hfile, hbetween⟩, rfl⟩

/-! ## Control paths -/

theorem control_plain : ∀ spec ∈ WORKSPACE_CONTROL_PATHSPECS,
    IsName (os_name spec.toList) ∧ is_excluded (os_name spec.toList) = false ∧
      '\\' ∉ spec.toList ∧ spec.toList.head? ≠ some '/' ∧ Paths.lead spec.toList = [] ∧
      Paths.components spec.toList = [.Normal spec.toList] := by
  decide

theorem text_os_name (name : List Char) : text [os_name name] = String.ofList name := by
  rw [text, to_string_lossy, List.map_singleton, List.intercalate_singleton, os_name,
    List.map_map]
  have hid : (OsPiece.lossy ∘ OsPiece.Valid) = id := rfl
  rw [hid, List.map_id]

theorem utf8_os_name (name : List Char) : Utf8 [os_name name] := by
  intro other hother piece hpiece
  rw [List.mem_singleton.mp hother] at hpiece
  obtain ⟨c, _, hc⟩ := List.mem_map.mp hpiece
  exact ⟨c, hc.symm⟩

/-- **A control path is enumerated to the file it is, or to the files below it.** -/
theorem mem_walk_control {spec : String} (hspec : spec ∈ WORKSPACE_CONTROL_PATHSPECS)
    {file : String} : file ∈ walk_spec t root spec ↔
      ∃ path, t.is_file path = true ∧ Below [os_name spec.toList] path ∧ text path = file := by
  obtain ⟨hname, hexcluded, hslash, hhead, hlead, hcomponents⟩ := control_plain spec hspec
  have htext : text [os_name spec.toList] = spec := by
    rw [text_os_name, String.ofList_toList]
  -- a file below a control path makes the path a directory
  have hancestor : ∀ below : RelPath, below ≠ [] →
      t.is_file ([os_name spec.toList] ++ below) = true →
        t.get [os_name spec.toList] = some .Dir := by
    intro below hne hfile
    obtain ⟨content, hget⟩ := FileTree.is_file_iff.mp hfile
    exact FileTree.get_ancestor (FileTree.get_eq_some_iff.mp hget) (List.cons_ne_nil _ _) hne
  cases hget : t.get [os_name spec.toList] with
  | none =>
    -- neither the path nor a file below it is there
    have hnone : t.located spec = none := by
      have hnames := FileTree.components_to_string_lossy (List.cons_ne_nil _ _)
        (List.forall_mem_singleton.mpr hname) (utf8_os_name spec.toList)
      rw [← String.toList_ofList (l := to_string_lossy _), ← text, htext] at hnames
      rw [FileTree.located, hnames, FileTree.locate,
        if_neg (not_or.mpr ⟨hname.1, hname.2.1⟩), if_neg hname.2.2.1, List.nil_append, hget]
    simp only [walk_spec, hnone, List.not_mem_nil, false_iff]
    rintro ⟨path, hfile, ⟨below, rfl, _⟩, _⟩
    by_cases hne : below = []
    · rw [hne, List.append_nil, FileTree.is_file_iff, hget] at hfile
      obtain ⟨content, hcontent⟩ := hfile
      cases hcontent
    · rw [hancestor below hne hfile] at hget
      cases hget
  | some node =>
    cases node with
    | File content =>
      -- the control path is a file, and nothing lies below a file
      have hlocated := FileTree.located_text hget (fun target => Node.noConfusion)
        (utf8_os_name spec.toList)
      rw [← text, htext] at hlocated
      have hfile : t.is_file [os_name spec.toList] = true :=
        FileTree.is_file_iff.mpr ⟨content, hget⟩
      simp only [walk_spec, hlocated, hfile, if_true, List.mem_singleton,
        replace_backslash_eq_self hslash, String.ofList_toList]
      constructor
      · rintro rfl
        exact ⟨_, hfile, ⟨[], (List.append_nil _).symm, by simp⟩, htext⟩
      · rintro ⟨path, hpath, ⟨below, rfl, _⟩, rfl⟩
        by_cases hne : below = []
        · rw [hne, List.append_nil, htext]
        · rw [hancestor below hne hpath] at hget
          cases hget
    | Dir =>
      -- the control path is a directory, which is not excluded
      have hwalk : file ∈ walk_spec t root (text [os_name spec.toList]) ↔ _ :=
        mem_walk_dir (.inr hget) (utf8_os_name spec.toList)
      rw [htext] at hwalk
      rw [hwalk, and_iff_right]
      rw [file_name, Paths.components_join hhead hlead, hcomponents, List.getLast?_concat]
      exact hexcluded
    | Symlink target => exact absurd rfl (t.regular _ (FileTree.get_eq_some_iff.mp hget) target)

/-! ## Packages -/

/-- The manifest of a package is a file of the tree, in a directory. -/
def LiesAt (t : SourceTree) (metadata : RawMetadata) (pkg : RawPackage) (dir : RelPath) : Prop :=
  ∃ (names : List (List Char)) (file : List Char), dir = names.map os_name ∧
    Paths.components pkg.manifest_path.toList =
      Paths.components metadata.workspace_root.toList ++ (names ++ [file]).map .Normal ∧
    t.is_file (dir ++ [os_name file]) = true

def ManifestsLie (t : SourceTree) (metadata : RawMetadata) : Prop :=
  ∀ pkg ∈ metadata.packages, ∃ dir, LiesAt t metadata pkg dir

/-- A declared name and the directory of its package. -/
def UnitDir (t : SourceTree) (metadata : RawMetadata) (in_scope : List String) (name : String)
    (dir : RelPath) : Prop :=
  name ∈ in_scope ∧ ∃ pkg, (metadata.packages.find? fun p => p.name == name) = some pkg ∧
    LiesAt t metadata pkg dir

variable {metadata : RawMetadata} {pkg : RawPackage} {dir : RelPath} {in_scope : List String}

theorem LiesAt.isDir (h : LiesAt t metadata pkg dir) : IsDir t.toFileTree dir ∧ Utf8 dir := by
  obtain ⟨names, file, rfl, _, hfile⟩ := h
  refine ⟨?_, fun name hname => ?_⟩
  · by_cases hne : names.map os_name = []
    · exact .inl hne
    · obtain ⟨content, hget⟩ := FileTree.is_file_iff.mp hfile
      exact .inr (FileTree.get_ancestor (FileTree.get_eq_some_iff.mp hget) hne
        (List.cons_ne_nil _ _))
  · obtain ⟨chars, _, rfl⟩ := List.mem_map.mp hname
    exact utf8_os_name chars _ (List.mem_singleton_self _)

/-- A manifest lies in one directory. -/
theorem LiesAt.unique {dir' : RelPath} (h : LiesAt t metadata pkg dir)
    (h' : LiesAt t metadata pkg dir') : dir = dir' := by
  obtain ⟨names, file, rfl, hmanifest, _⟩ := h
  obtain ⟨names', file', rfl, hmanifest', _⟩ := h'
  rw [hmanifest] at hmanifest'
  have hparts := List.append_cancel_left hmanifest'
  have hnames : names ++ [file] = names' ++ [file'] :=
    List.map_injective_iff.mpr (fun _ _ heq => Paths.Component.Normal.inj heq) hparts
  rw [List.append_inj_left' hnames rfl]

theorem text_map_os_name (names : List (List Char)) :
    text (names.map os_name) = to_forward_slash (names.map .Normal) := by
  have hnames : names.map (fun name => (os_name name).map OsPiece.lossy) = names := by
    conv_rhs => rw [← List.map_id names]
    refine List.map_congr_left fun name _ => ?_
    rw [os_name, List.map_map]
    exact List.map_id name
  have htexts : names.map (fun name => (Paths.Component.Normal name).text) = names :=
    List.map_id names
  rw [text, to_string_lossy, to_forward_slash, Paths.text, List.map_map, List.map_map]
  simp only [Function.comp_def, hnames, htexts]

/-- **A package is resolved to the directory of its manifest.** -/
theorem resolve_one_eq {name : String}
    (hfind : (metadata.packages.find? fun p => p.name == name) = some pkg)
    (h : LiesAt t metadata pkg dir) :
    resolve_one name (Paths.components metadata.workspace_root.toList) metadata.packages =
      .ok ⟨name, text dir⟩ := by
  obtain ⟨names, file, rfl, hmanifest, _⟩ := h
  -- the manifest's name is taken off, and what is left begins with the root
  have hparent : parent (Paths.components pkg.manifest_path.toList) =
      Paths.components metadata.workspace_root.toList ++ names.map .Normal := by
    rw [hmanifest, List.map_append, List.map_singleton, ← List.append_assoc, parent,
      List.getLast?_concat, if_neg, List.dropLast_concat]
    exact fun heq => Paths.Component.noConfusion (Option.some.inj heq)
  rw [resolve_one, hfind]
  simp only [hparent, List.prefix_append, if_true, List.drop_left, text_map_os_name]

/-- **The units are the declared names with the directories of their packages.** -/
theorem mem_units (hlie : ManifestsLie t metadata) {units : List ResolvedUnit}
    (hunits : resolve_in_scope_units metadata in_scope = .ok units) {unit : ResolvedUnit} :
    unit ∈ units ↔
      ∃ dir, UnitDir t metadata in_scope unit.name dir ∧ unit.rel_dir = text dir := by
  rw [Check.mem_of_mapM_ok hunits]
  constructor
  · rintro ⟨name, hname, hresolve⟩
    cases hfind : metadata.packages.find? fun p => p.name == name with
    | none =>
      rw [resolve_one, hfind] at hresolve
      cases hresolve
    | some pkg =>
      obtain ⟨dir, hdir⟩ := hlie pkg (List.mem_of_find?_eq_some hfind)
      rw [resolve_one_eq hfind hdir] at hresolve
      obtain rfl := Except.ok.inj hresolve
      exact ⟨dir, ⟨hname, pkg, hfind, hdir⟩, rfl⟩
  · rintro ⟨dir, ⟨hname, pkg, hfind, hdir⟩, hrel⟩
    refine ⟨unit.name, hname, ?_⟩
    rw [resolve_one_eq hfind hdir, ← hrel]

/-! ## The entries -/

/-- What the three producers give, in the order they are put in. -/
def planned (unit_files : List (ResolvedUnit × List String))
    (required_files control_files : List String) : List InputEntry :=
  (unit_files.flatMap fun unit => unit.2.map fun f => ⟨f, .InScopeUnit unit.1.name⟩) ++
    (required_files.map fun f => ⟨f, .DeclaredRequired⟩) ++
      control_files.map fun f => ⟨f, .WorkspaceControl⟩

variable {unit_files : List (ResolvedUnit × List String)}
  {required_files control_files : List String} {plan : List InputEntry}

theorem insert_units_ok {by_path by_path' : Entries}
    (h : unit_files.foldlM insert_unit by_path = .ok by_path') :
    (∀ unit ∈ unit_files, unit.2 ≠ []) ∧
      by_path' = (unit_files.flatMap fun unit => unit.2.map fun f =>
        (⟨f, .InScopeUnit unit.1.name⟩ : InputEntry)).foldl Store.putNew by_path := by
  induction unit_files generalizing by_path with
  | nil =>
    obtain rfl := Except.ok.inj h
    exact ⟨fun unit hunit => absurd hunit List.not_mem_nil, rfl⟩
  | cons unit units ih =>
    rw [List.foldlM_cons] at h
    obtain ⟨next, hnext, hrest⟩ := Check.bind_ok_iff.mp h
    unfold insert_unit at hnext
    by_cases hempty : unit.2.isEmpty = true
    · rw [if_pos hempty] at hnext
      cases hnext
    · rw [if_neg hempty] at hnext
      obtain rfl := Except.ok.inj hnext
      obtain ⟨hunits, hfold⟩ := ih hrest
      refine ⟨List.forall_mem_cons.mpr ⟨fun hnil => hempty ?_, hunits⟩, ?_⟩
      · rw [hnil]
        rfl
      · rw [hfold, List.flatMap_cons, List.foldl_append, List.foldl_map]

/-- **An entry of the plan is the first that was put in for its path.** -/
theorem mem_plan (h : assemble_input_plan unit_files required_files control_files = .ok plan) :
    (∀ unit ∈ unit_files, unit.2 ≠ []) ∧
      (∀ entry, entry ∈ plan ↔
        ((planned unit_files required_files control_files).find? fun e =>
          decide (e.path = entry.path)) = some entry) ∧
      plan.Pairwise fun a b => compareOn InputEntry.path a b = .lt := by
  obtain ⟨by_path, hunits, hrest⟩ := Check.bind_ok_iff.mp h
  obtain ⟨hne, rfl⟩ := insert_units_ok hunits
  dsimp only at hrest
  split at hrest
  · cases hrest
  · obtain rfl := Except.ok.inj hrest
    refine ⟨hne, fun entry => ?_, Store.values_sorted _⟩
    rw [Store.mem_values, ← List.foldl_map (f := fun f => (⟨f, .DeclaredRequired⟩ : InputEntry)),
      ← List.foldl_map (f := fun f => (⟨f, .WorkspaceControl⟩ : InputEntry)),
      ← List.foldl_append, ← List.foldl_append, Store.get_foldl_putNew, Store.get_empty,
      Option.none_or, planned, List.append_assoc]

theorem plan_reasons (h : assemble_input_plan unit_files required_files control_files = .ok plan)
    {entry : InputEntry} (hentry : entry ∈ plan) :
    (∃ unit ∈ unit_files, entry.path ∈ unit.2 ∧ entry.reason = .InScopeUnit unit.1.name) ∨
      (∀ unit ∈ unit_files, entry.path ∉ unit.2) ∧
        ((entry.path ∈ required_files ∧ entry.reason = .DeclaredRequired) ∨
          entry.path ∉ required_files ∧ entry.path ∈ control_files ∧
            entry.reason = .WorkspaceControl) := by
  have hfind := ((mem_plan h).2.1 entry).mp hentry
  rw [planned, List.find?_append, List.find?_append, Option.or_eq_some_iff,
    Option.or_eq_some_iff, Option.or_eq_none_iff, List.find?_eq_none, List.find?_eq_none] at hfind
  have hnot_unit : (∀ e ∈ unit_files.flatMap fun unit => unit.2.map fun f =>
      (⟨f, .InScopeUnit unit.1.name⟩ : InputEntry), ¬ decide (e.path = entry.path) = true) →
      ∀ unit ∈ unit_files, entry.path ∉ unit.2 := by
    intro hnone unit hunit hmem
    refine hnone ⟨entry.path, .InScopeUnit unit.1.name⟩ ?_ (decide_eq_true rfl)
    exact List.mem_flatMap.mpr ⟨unit, hunit, List.mem_map.mpr ⟨_, hmem, rfl⟩⟩
  rcases hfind with (hfirst | ⟨hnone, hdeclared⟩) | ⟨⟨hnone, hundeclared⟩, hcontrol⟩
  · obtain ⟨unit, hunit, hmem⟩ := List.mem_flatMap.mp (List.mem_of_find?_eq_some hfirst)
    obtain ⟨f, hf, rfl⟩ := List.mem_map.mp hmem
    exact .inl ⟨unit, hunit, hf, rfl⟩
  · obtain ⟨f, hf, rfl⟩ := List.mem_map.mp (List.mem_of_find?_eq_some hdeclared)
    exact .inr ⟨hnot_unit hnone, .inl ⟨hf, rfl⟩⟩
  · obtain ⟨f, hf, rfl⟩ := List.mem_map.mp (List.mem_of_find?_eq_some hcontrol)
    refine .inr ⟨hnot_unit hnone, .inr ⟨fun hmem => ?_, hf, rfl⟩⟩
    exact hundeclared ⟨f, .DeclaredRequired⟩ (List.mem_map.mpr ⟨f, hmem, rfl⟩) (decide_eq_true rfl)

theorem exists_entry (h : assemble_input_plan unit_files required_files control_files = .ok plan)
    {path : String} (hpath : (∃ unit ∈ unit_files, path ∈ unit.2) ∨ path ∈ required_files ∨
      path ∈ control_files) : ∃ entry ∈ plan, entry.path = path := by
  have hmem : ∃ e ∈ planned unit_files required_files control_files, e.path = path := by
    simp only [planned, List.mem_append, List.mem_flatMap, List.mem_map]
    rcases hpath with ⟨unit, hunit, hf⟩ | hf | hf
    · exact ⟨_, .inl (.inl ⟨unit, hunit, path, hf, rfl⟩), rfl⟩
    · exact ⟨_, .inl (.inr ⟨path, hf, rfl⟩), rfl⟩
    · exact ⟨_, .inr ⟨path, hf, rfl⟩, rfl⟩
  obtain ⟨e, he, hepath⟩ := hmem
  cases hfind : (planned unit_files required_files control_files).find? fun e =>
      decide (e.path = path) with
  | none => exact absurd (decide_eq_true hepath) (List.find?_eq_none.mp hfind e he)
  | some entry =>
    have hfound := List.find?_some hfind
    have hentry : entry.path = path := of_decide_eq_true hfound
    refine ⟨entry, ((mem_plan h).2.1 entry).mpr ?_, hentry⟩
    rw [hentry]
    exact hfind

theorem entry_unique (h : assemble_input_plan unit_files required_files control_files = .ok plan)
    {entry entry' : InputEntry} (hentry : entry ∈ plan) (hentry' : entry' ∈ plan)
    (hpath : entry.path = entry'.path) : entry = entry' := by
  have hfind := ((mem_plan h).2.1 entry).mp hentry
  have hfind' := ((mem_plan h).2.1 entry').mp hentry'
  rw [hpath, hfind'] at hfind
  exact (Option.some.inj hfind).symm

/-! ## The plan of a workspace -/

/-- A file that the walk of an in-scope package comes to. -/
def UnitFile (t : SourceTree) (metadata : RawMetadata) (in_scope : List String)
    (path : RelPath) : Prop :=
  t.is_file path = true ∧ ∃ name dir, UnitDir t metadata in_scope name dir ∧ Below dir path

/-- A file that the walk of a control path comes to. -/
def ControlFile (t : SourceTree) (path : RelPath) : Prop :=
  t.is_file path = true ∧ ∃ spec ∈ WORKSPACE_CONTROL_PATHSPECS, Below [os_name spec.toList] path

/-- A regular file below an in-scope package directory or a control path, and not below a
directory `target` or `.git` there. -/
def InputFile (t : SourceTree) (metadata : RawMetadata) (in_scope : List String)
    (path : RelPath) : Prop :=
  UnitFile t metadata in_scope path ∨ ControlFile t path

/-- A package directory holds the path. -/
def Held (t : SourceTree) (metadata : RawMetadata) (in_scope : List String) (path : RelPath) :
    Prop :=
  ∃ name dir, UnitDir t metadata in_scope name dir ∧ dir <+: path

structure Assembled (t : SourceTree) (metadata : RawMetadata) (in_scope required : List String)
    (plan : List InputEntry) : Prop where
  listed : ∀ path, InputFile t metadata in_scope path → ∃ entry ∈ plan, entry.path = text path
  declared : ∀ p ∈ required, ∃ entry ∈ plan, entry.path = p
  reasons : ∀ entry ∈ plan,
    (∃ path name dir, t.is_file path = true ∧ UnitDir t metadata in_scope name dir ∧
      Below dir path ∧ text path = entry.path ∧ entry.reason = .InScopeUnit name) ∨
    (∀ path, UnitFile t metadata in_scope path → text path ≠ entry.path) ∧
      ((entry.path ∈ required ∧ entry.reason = .DeclaredRequired) ∨
        entry.path ∉ required ∧ (∃ path, ControlFile t path ∧ text path = entry.path) ∧
          entry.reason = .WorkspaceControl)
  unique : ∀ entry ∈ plan, ∀ entry' ∈ plan, entry.path = entry'.path → entry = entry'
  sorted : plan.Pairwise fun a b => compareOn InputEntry.path a b = .lt
  present : ∀ p ∈ required, (t.located p).isSome = true

variable {required : List String}

theorem mem_walk_pathspecs {pathspecs : List String} {file : String} :
    file ∈ walk_pathspecs t root pathspecs ↔ ∃ spec ∈ pathspecs, file ∈ walk_spec t root spec := by
  rw [walk_pathspecs, mem_destutter_ne, mem_sortBy, List.mem_flatMap]

/-- **What the plan is made of.** A unit without files is an error, so no unit's directory is
one that the walk passes over. -/
theorem assembled (hlie : ManifestsLie t metadata)
    (hok : build_input_plan_blocking t metadata in_scope required = .ok plan) :
    Assembled t metadata in_scope required plan := by
  obtain ⟨units, hunits, hrest⟩ := Check.bind_ok_iff.mp hok
  obtain ⟨hchecked, hplan⟩ := Check.seq_ok_iff.mp hrest
  have hnonempty := (mem_plan hplan).1
  have hunit_files : ∀ unit ∈ units, ∀ file,
      file ∈ walk_pathspecs t metadata.workspace_root [unit.rel_dir] ↔
        ∃ path dir, t.is_file path = true ∧ UnitDir t metadata in_scope unit.name dir ∧
          Below dir path ∧ text path = file := by
    intro unit hunit file
    obtain ⟨dir, hdir, hrel⟩ := (mem_units hlie hunits).mp hunit
    obtain ⟨hname, pkg, hfind, hlies⟩ := hdir
    have hsingle : ∀ file, file ∈ walk_pathspecs t metadata.workspace_root [unit.rel_dir] ↔
        file ∈ walk_spec t metadata.workspace_root (text dir) := by
      intro file
      rw [mem_walk_pathspecs, hrel]
      simp only [List.mem_singleton, exists_eq_left]
    obtain ⟨first, hfirst⟩ := List.exists_mem_of_ne_nil _
      (hnonempty (unit, _) (List.mem_map.mpr ⟨unit, hunit, rfl⟩))
    have hincluded := ((mem_walk_dir hlies.isDir.1 hlies.isDir.2).mp ((hsingle first).mp hfirst)).1
    rw [hsingle, mem_walk_dir hlies.isDir.1 hlies.isDir.2, and_iff_right hincluded]
    constructor
    · rintro ⟨path, hpath, hbelow, htext⟩
      exact ⟨path, dir, hpath, ⟨hname, pkg, hfind, hlies⟩, hbelow, htext⟩
    · rintro ⟨path, dir', hpath, ⟨_, pkg', hfind', hlies'⟩, hbelow, htext⟩
      obtain rfl := Option.some.inj (hfind.symm.trans hfind')
      obtain rfl := hlies.unique hlies'
      exact ⟨path, hpath, hbelow, htext⟩
  have hcontrol_files : ∀ file,
      file ∈ walk_pathspecs t metadata.workspace_root WORKSPACE_CONTROL_PATHSPECS ↔
        ∃ path, ControlFile t path ∧ text path = file := by
    intro file
    rw [mem_walk_pathspecs]
    constructor
    · rintro ⟨spec, hspec, hfile⟩
      obtain ⟨path, hpath, hbelow, htext⟩ := (mem_walk_control hspec).mp hfile
      exact ⟨path, ⟨hpath, spec, hspec, hbelow⟩, htext⟩
    · rintro ⟨path, ⟨hpath, spec, hspec, hbelow⟩, htext⟩
      exact ⟨spec, hspec, (mem_walk_control hspec).mpr ⟨path, hpath, hbelow, htext⟩⟩
  have hpresent : ∀ p ∈ required, (t.located p).isSome = true := by
    intro p hp
    have hcheck := Check.forM_ok_iff.mp hchecked p hp
    unfold check_required_input at hcheck
    split_ifs at hcheck with hescape hsome
    exact hsome
  refine ⟨?_, ?_, ?_, ?_, (mem_plan hplan).2.2, hpresent⟩
  · rintro path (⟨hpath, name, dir, hdir, hbelow⟩ | hcontrol)
    · refine exists_entry hplan (.inl ?_)
      have hunit : (⟨name, text dir⟩ : ResolvedUnit) ∈ units :=
        (mem_units hlie hunits).mpr ⟨dir, hdir, rfl⟩
      refine ⟨_, List.mem_map.mpr ⟨_, hunit, rfl⟩, ?_⟩
      exact (hunit_files _ hunit _).mpr ⟨path, dir, hpath, hdir, hbelow, rfl⟩
    · refine exists_entry hplan (.inr (.inr ?_))
      exact (hcontrol_files _).mpr ⟨path, hcontrol, rfl⟩
  · exact fun p hp => exists_entry hplan (.inr (.inl hp))
  · intro entry hentry
    rcases plan_reasons hplan hentry with ⟨unit_file, hmem, hfile, hreason⟩ | ⟨hnot, hrest⟩
    · obtain ⟨unit, hunit, rfl⟩ := List.mem_map.mp hmem
      obtain ⟨path, dir, hpath, hdir, hbelow, htext⟩ := (hunit_files unit hunit _).mp hfile
      exact .inl ⟨path, unit.name, dir, hpath, hdir, hbelow, htext, hreason⟩
    · refine .inr ⟨?_, ?_⟩
      · rintro path ⟨hpath, name, dir, hdir, hbelow⟩ htext
        have hunit : (⟨name, text dir⟩ : ResolvedUnit) ∈ units :=
        (mem_units hlie hunits).mpr ⟨dir, hdir, rfl⟩
        refine hnot _ (List.mem_map.mpr ⟨_, hunit, rfl⟩) ?_
        exact (hunit_files _ hunit _).mpr ⟨path, dir, hpath, hdir, hbelow, htext⟩
      · refine hrest.imp_right ?_
        rintro ⟨hundeclared, hcontrol, hreason⟩
        exact ⟨hundeclared, (hcontrol_files _).mp hcontrol, hreason⟩
  · exact fun entry hentry entry' hentry' => entry_unique hplan hentry hentry'

/-! ## The promise -/

/-- A path that leads to the file is declared. -/
def Declared (t : SourceTree) (required : List String) (path : RelPath) : Prop :=
  ∃ p ∈ required, t.located p = some path

/-- **The plan has every input once.** Every entry leads to a regular file, and no two to the
same; every input file and every declared input is led to; an entry has the reason of the
first producer that has its file; and the entries are sorted by path. -/
structure CoversOnce (t : SourceTree) (metadata : RawMetadata) (in_scope required : List String)
    (plan : List InputEntry) : Prop where
  regular : ∀ entry ∈ plan, ∃ path, t.located entry.path = some path ∧ t.is_file path = true
  once : ∀ entry ∈ plan, ∀ entry' ∈ plan, ∀ path, t.located entry.path = some path →
    t.located entry'.path = some path → entry = entry'
  covered : ∀ path, InputFile t metadata in_scope path →
    ∃ entry ∈ plan, t.located entry.path = some path
  declared : ∀ p ∈ required, ∃ path, t.located p = some path ∧
    ∃ entry ∈ plan, t.located entry.path = some path
  unit_reason : ∀ entry ∈ plan, ∀ path, t.located entry.path = some path →
    Held t metadata in_scope path → ∃ name dir, UnitDir t metadata in_scope name dir ∧
      dir <+: path ∧ entry.reason = .InScopeUnit name
  declared_reason : ∀ entry ∈ plan, ∀ path, t.located entry.path = some path →
    ¬ Held t metadata in_scope path → Declared t required path →
      entry.reason = .DeclaredRequired
  control_reason : ∀ entry ∈ plan, ∀ path, t.located entry.path = some path →
    ¬ Held t metadata in_scope path → ¬ Declared t required path →
      entry.reason = .WorkspaceControl
  sorted : plan.Pairwise fun a b => compareOn InputEntry.path a b = .lt

/-- The inputs are spelled as the walk spells them: the input files have UTF-8 names; what is
declared are regular files, an input file by the names on its path, any other file in one
way, and none that the walk of a package passes over. -/
structure Spelled (t : SourceTree) (metadata : RawMetadata) (in_scope required : List String) :
    Prop where
  utf8 : ∀ path, InputFile t metadata in_scope path → Utf8 path
  files : ∀ p ∈ required, ∀ path, t.located p = some path → t.is_file path = true
  walked : ∀ p ∈ required, ∀ path, t.located p = some path →
    InputFile t metadata in_scope path → p = text path
  once : ∀ p ∈ required, ∀ q ∈ required, ∀ path, t.located p = some path →
    t.located q = some path → p = q
  held : ∀ p ∈ required, ∀ path, t.located p = some path → Held t metadata in_scope path →
    UnitFile t metadata in_scope path

theorem located_input {path : RelPath} (hfile : t.is_file path = true) (hutf8 : Utf8 path) :
    t.located (text path) = some path := by
  obtain ⟨content, hget⟩ := FileTree.is_file_iff.mp hfile
  exact FileTree.located_text hget (fun target => Node.noConfusion) hutf8

theorem InputFile.is_file {path : RelPath} (h : InputFile t metadata in_scope path) :
    t.is_file path = true := h.elim And.left And.left

/-- The walk of a package comes to the control files that its directory holds. -/
theorem ControlFile.unit_file {path : RelPath} (h : ControlFile t path)
    (hheld : Held t metadata in_scope path) : UnitFile t metadata in_scope path := by
  obtain ⟨hfile, spec, hspec, below, rfl, hbetween⟩ := h
  obtain ⟨name, dir, hdir, rest, hrest⟩ := hheld
  refine ⟨hfile, name, dir, hdir, rest, hrest.symm, fun other hother => ?_⟩
  -- what is behind the directory is behind the control path, or the control path
  have hne : rest ≠ [] := by
    rintro rfl
    exact absurd hother List.not_mem_nil
  have hmem : other ∈ ([os_name spec.toList] ++ below).dropLast := by
    rw [← hrest, List.dropLast_append_of_ne_nil hne]
    exact List.mem_append_right _ hother
  by_cases hbelow : below = []
  · rw [hbelow] at hmem
    exact absurd hmem List.not_mem_nil
  · rw [List.dropLast_append_of_ne_nil hbelow] at hmem
    rcases List.mem_append.mp hmem with hmem | hmem
    · rw [List.mem_singleton.mp hmem]
      exact (control_plain spec hspec).2.1
    · exact hbetween other hmem

theorem CoversOnce.spelled (h : Assembled t metadata in_scope required plan)
    (hcovers : CoversOnce t metadata in_scope required plan) :
    Spelled t metadata in_scope required := by
  have hutf8 : ∀ path, InputFile t metadata in_scope path → Utf8 path := by
    intro path hpath
    obtain ⟨entry, _, hlocated⟩ := hcovers.covered path hpath
    exact FileTree.utf8_of_located hlocated
  refine ⟨hutf8, ?_, ?_, ?_, ?_⟩
  · intro p hp path hlocated
    obtain ⟨entry, hentry, rfl⟩ := h.declared p hp
    obtain ⟨path', hlocated', hfile⟩ := hcovers.regular entry hentry
    rw [hlocated] at hlocated'
    rw [Option.some.inj hlocated']
    exact hfile
  · intro p hp path hlocated hinput
    obtain ⟨entry, hentry, rfl⟩ := h.declared p hp
    obtain ⟨entry', hentry', htext⟩ := h.listed path hinput
    have hlocated' : t.located entry'.path = some path := by
      rw [htext]
      exact located_input hinput.is_file (hutf8 path hinput)
    rw [hcovers.once entry hentry entry' hentry' path hlocated hlocated', htext]
  · intro p hp q hq path hlocated hlocated'
    obtain ⟨entry, hentry, rfl⟩ := h.declared p hp
    obtain ⟨entry', hentry', rfl⟩ := h.declared q hq
    rw [hcovers.once entry hentry entry' hentry' path hlocated hlocated']
  · intro p hp path hlocated hheld
    obtain ⟨entry, hentry, rfl⟩ := h.declared p hp
    obtain ⟨name, _, _, _, hreason⟩ := hcovers.unit_reason entry hentry path hlocated hheld
    rcases h.reasons entry hentry with hunit | ⟨_, hother⟩
    · -- the entry is one of a unit: its text is that of a file the walk comes to
      obtain ⟨path', name', dir', hfile', hdir', hbelow', htext', _⟩ := hunit
      have hunit_file : UnitFile t metadata in_scope path' := ⟨hfile', name', dir', hdir', hbelow'⟩
      have hlocated' := located_input hfile' (hutf8 path' (.inl hunit_file))
      rw [htext', hlocated] at hlocated'
      rw [Option.some.inj hlocated']
      exact hunit_file
    · rcases hother with ⟨_, hdeclared⟩ | ⟨hundeclared, _⟩
      · rw [hdeclared] at hreason
        cases hreason
      · exact absurd hp hundeclared

theorem Assembled.source (h : Assembled t metadata in_scope required plan) {entry : InputEntry}
    (hentry : entry ∈ plan) :
    (∃ path, InputFile t metadata in_scope path ∧ text path = entry.path) ∨
      entry.path ∈ required := by
  rcases h.reasons entry hentry with hunit | ⟨_, hother⟩
  · obtain ⟨path, name, dir, hfile, hdir, hbelow, htext, _⟩ := hunit
    exact .inl ⟨path, .inl ⟨hfile, name, dir, hdir, hbelow⟩, htext⟩
  · rcases hother with ⟨hdeclared, _⟩ | ⟨_, ⟨path, hcontrol, htext⟩, _⟩
    · exact .inr hdeclared
    · exact .inl ⟨path, .inr hcontrol, htext⟩

theorem Spelled.path_of_text (h : Spelled t metadata in_scope required) {path path' : RelPath}
    {p : String} (hinput : InputFile t metadata in_scope path') (htext : text path' = p)
    (hlocated : t.located p = some path) : path' = path := by
  rw [← htext, located_input hinput.is_file (h.utf8 path' hinput)] at hlocated
  exact Option.some.inj hlocated

theorem Spelled.text_of (hspelled : Spelled t metadata in_scope required)
    (h : Assembled t metadata in_scope required plan) {entry : InputEntry} (hentry : entry ∈ plan)
    {path : RelPath} (hlocated : t.located entry.path = some path)
    (hinput : InputFile t metadata in_scope path) : entry.path = text path := by
  rcases h.source hentry with ⟨path', hinput', htext⟩ | hdeclared
  · rw [← htext, hspelled.path_of_text hinput' htext hlocated]
  · exact hspelled.walked entry.path hdeclared path hlocated hinput

/-- Two entries do not lead to one file. -/
theorem Spelled.unique (hspelled : Spelled t metadata in_scope required)
    (h : Assembled t metadata in_scope required plan) {entry entry' : InputEntry}
    (hentry : entry ∈ plan) (hentry' : entry' ∈ plan) {path : RelPath}
    (hlocated : t.located entry.path = some path)
    (hlocated' : t.located entry'.path = some path) : entry = entry' := by
  refine h.unique entry hentry entry' hentry' ?_
  by_cases hinput : InputFile t metadata in_scope path
  · rw [hspelled.text_of h hentry hlocated hinput, hspelled.text_of h hentry' hlocated' hinput]
  · -- no input file: both are declared
    have hdeclared : ∀ e ∈ plan, t.located e.path = some path → e.path ∈ required := by
      intro e he hlocated
      rcases h.source he with ⟨path', hinput', htext⟩ | hdeclared
      · rw [hspelled.path_of_text hinput' htext hlocated] at hinput'
        exact absurd hinput' hinput
      · exact hdeclared
    exact hspelled.once _ (hdeclared entry hentry hlocated) _ (hdeclared entry' hentry' hlocated')
      path hlocated hlocated'

/-- **An entry has the reason of the first producer that has its file.** -/
theorem Spelled.reason_of (hspelled : Spelled t metadata in_scope required)
    (h : Assembled t metadata in_scope required plan) {entry : InputEntry} (hentry : entry ∈ plan)
    {path : RelPath} (hlocated : t.located entry.path = some path) :
    (∃ name dir, UnitDir t metadata in_scope name dir ∧ dir <+: path ∧
        entry.reason = .InScopeUnit name) ∨
      (¬ Held t metadata in_scope path ∧ Declared t required path ∧
        entry.reason = .DeclaredRequired) ∨
      (¬ Held t metadata in_scope path ∧ ¬ Declared t required path ∧
        entry.reason = .WorkspaceControl) := by
  rcases h.reasons entry hentry with hunit | ⟨hnot, hother⟩
  · obtain ⟨path', name, dir, hfile, hdir, hbelow, htext, hreason⟩ := hunit
    have heq := hspelled.path_of_text (.inl ⟨hfile, name, dir, hdir, hbelow⟩) htext hlocated
    obtain ⟨below, rfl, _⟩ := hbelow
    exact .inl ⟨name, dir, hdir, heq ▸ List.prefix_append _ _, hreason⟩
  · -- a file of a unit has its text as the path of an entry, and that is another one
    have hno_unit : ¬ UnitFile t metadata in_scope path := fun hunit =>
      hnot path hunit (hspelled.text_of h hentry hlocated (.inl hunit)).symm
    rcases hother with ⟨hdeclared, hreason⟩ | ⟨hundeclared, ⟨path', hcontrol, htext⟩, hreason⟩
    · refine .inr (.inl ⟨fun hheld => hno_unit ?_, ⟨entry.path, hdeclared, hlocated⟩, hreason⟩)
      exact hspelled.held entry.path hdeclared path hlocated hheld
    · rw [hspelled.path_of_text (.inr hcontrol) htext hlocated] at hcontrol
      refine .inr (.inr ⟨fun hheld => hno_unit (hcontrol.unit_file hheld), ?_, hreason⟩)
      rintro ⟨p, hp, hp_located⟩
      have hp_text := hspelled.walked p hp path hp_located (.inr hcontrol)
      rw [← hspelled.text_of h hentry hlocated (.inr hcontrol)] at hp_text
      exact hundeclared (hp_text ▸ hp)

theorem Spelled.coversOnce (h : Assembled t metadata in_scope required plan)
    (hspelled : Spelled t metadata in_scope required) :
    CoversOnce t metadata in_scope required plan := by
  refine ⟨?_, ?_, ?_, ?_, ?_, ?_, ?_, h.sorted⟩
  · intro entry hentry
    rcases h.source hentry with ⟨path, hinput, htext⟩ | hdeclared
    · refine ⟨path, ?_, hinput.is_file⟩
      rw [← htext]
      exact located_input hinput.is_file (hspelled.utf8 path hinput)
    · obtain ⟨path, hlocated⟩ := Option.isSome_iff_exists.mp (h.present _ hdeclared)
      exact ⟨path, hlocated, hspelled.files _ hdeclared path hlocated⟩
  · intro entry hentry entry' hentry' path hlocated hlocated'
    exact hspelled.unique h hentry hentry' hlocated hlocated'
  · intro path hinput
    obtain ⟨entry, hentry, htext⟩ := h.listed path hinput
    refine ⟨entry, hentry, ?_⟩
    rw [htext]
    exact located_input hinput.is_file (hspelled.utf8 path hinput)
  · intro p hp
    obtain ⟨path, hlocated⟩ := Option.isSome_iff_exists.mp (h.present p hp)
    obtain ⟨entry, hentry, rfl⟩ := h.declared p hp
    exact ⟨path, hlocated, entry, hentry, hlocated⟩
  · intro entry hentry path hlocated hheld
    rcases hspelled.reason_of h hentry hlocated with hunit | ⟨hnot, _⟩ | ⟨hnot, _⟩
    · exact hunit
    · exact absurd hheld hnot
    · exact absurd hheld hnot
  · intro entry hentry path hlocated hnot hdeclared
    rcases hspelled.reason_of h hentry hlocated with hunit | ⟨_, _, hreason⟩ | ⟨_, hundeclared, _⟩
    · obtain ⟨name, dir, hdir, hprefix, _⟩ := hunit
      exact absurd ⟨name, dir, hdir, hprefix⟩ hnot
    · exact hreason
    · exact absurd hdeclared hundeclared
  · intro entry hentry path hlocated hnot hundeclared
    rcases hspelled.reason_of h hentry hlocated with hunit | ⟨_, hdeclared, _⟩ | ⟨_, _, hreason⟩
    · obtain ⟨name, dir, hdir, hprefix, _⟩ := hunit
      exact absurd ⟨name, dir, hdir, hprefix⟩ hnot
    · exact absurd hdeclared hundeclared
    · exact hreason

/-- **The input plan has every input once if and only if** the inputs are spelled as the walk
spells them. -/
theorem input_plan_promise_iff (t : SourceTree) (metadata : RawMetadata)
    (in_scope required : List String) (plan : List InputEntry) (hlie : ManifestsLie t metadata)
    (hok : build_input_plan_blocking t metadata in_scope required = .ok plan) :
    CoversOnce t metadata in_scope required plan ↔ Spelled t metadata in_scope required :=
  ⟨fun h => h.spelled (assembled hlie hok), fun h => h.coversOnce (assembled hlie hok)⟩

/-! ## A declared path with a dot in front -/

/-- A workspace of one package that is its manifest. -/
def scan_tree : SourceTree where
  entries := [([os_name "scan".toList], .Dir),
    ([os_name "scan".toList, os_name "Cargo.toml".toList], .File [])]
  outside := fun _ => none
  nodup := by decide
  named := by decide
  parents := by decide
  regular := by simp

def scan_metadata : RawMetadata where
  workspace_root := "/ws"
  packages := [⟨"scan", "/ws/scan/Cargo.toml"⟩]

theorem scan_manifests : ManifestsLie scan_tree scan_metadata := by
  intro pkg hpkg
  obtain rfl := List.mem_singleton.mp hpkg
  exact ⟨[os_name "scan".toList], ["scan".toList], "Cargo.toml".toList, rfl, by decide, by decide⟩

def scan_unit_entry : InputEntry := ⟨"scan/Cargo.toml", .InScopeUnit "scan"⟩

/-- The manifest is declared as `./scan/Cargo.toml`: the plan has it twice. -/
theorem dotted_path_counted_twice : ManifestsLie scan_tree scan_metadata ∧
    build_input_plan_blocking scan_tree scan_metadata ["scan"] ["./scan/Cargo.toml"] =
      .ok [⟨"./scan/Cargo.toml", .DeclaredRequired⟩, scan_unit_entry] ∧
    ¬ CoversOnce scan_tree scan_metadata ["scan"] ["./scan/Cargo.toml"]
      [⟨"./scan/Cargo.toml", .DeclaredRequired⟩, scan_unit_entry] := by
  refine ⟨scan_manifests, rfl, fun hcovers => ?_⟩
  have hsame := hcovers.once _ List.mem_cons_self _
    (List.mem_cons_of_mem _ (List.mem_singleton_self _))
    [os_name "scan".toList, os_name "Cargo.toml".toList] (by decide) (by decide)
  exact absurd (congrArg InputEntry.path hsame) (by decide)

/-- The manifest is declared as the walk spells it. -/
theorem input_plan_promise_scan : ManifestsLie scan_tree scan_metadata ∧
    build_input_plan_blocking scan_tree scan_metadata ["scan"] ["scan/Cargo.toml"] =
      .ok [scan_unit_entry] ∧
    (CoversOnce scan_tree scan_metadata ["scan"] ["scan/Cargo.toml"] [scan_unit_entry] ↔
      Spelled scan_tree scan_metadata ["scan"] ["scan/Cargo.toml"]) :=
  ⟨scan_manifests, rfl, input_plan_promise_iff _ _ _ _ _ scan_manifests rfl⟩

end InputScope

end Evidence.Bundle
