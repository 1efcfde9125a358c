/-
`context/resolver.rs` and `context/lookup.rs` -- selectors of one crate, of the three kinds.

The report of a crate, of a file in it and of a module of its library should say the same
of the crate. Each keys four lookups with the crate name: the level, the scope, the floors
and the `CLAUDE.md` pointer. For a crate and for a file the name comes from the manifest;
for a module it is the first segment of the path with hyphens for underscores. So a
package with an underscore in its name is looked up under another name, and what is said
of it are the defaults. The resolver takes module paths of ASCII identifiers alone, and it
looks for the directory of a file after it wrote slashes for backslashes.

Otherwise the three kinds agree (`selector_kinds_promise_iff`).
-/
import Evidence.Context.Lookup
import Evidence.Lib.Segments
import Mathlib.Data.List.Infix

set_option autoImplicit false

namespace Evidence.Context

open Trace (TraceFiles)

/-! ## Module paths -/

def module_text (segments : List (List Char)) : List Char := "::".toList.intercalate segments

theorem module_text_cons {segment : List Char} {segments : List (List Char)}
    (hne : segments ≠ []) :
    module_text (segment :: segments) = segment ++ ':' :: ':' :: module_text segments := by
  cases segments with
  | nil => exact absurd rfl hne
  | cons next segments =>
    rw [module_text, List.intercalate_cons_cons, List.append_assoc]
    rfl

theorem split_path_of_plain {segment : List Char} (h : ':' ∉ segment) :
    split_path segment = [segment] := by
  induction segment with
  | nil => rfl
  | cons c segment ih =>
    obtain ⟨hc, hrest⟩ := not_or.mp fun hmem => h (List.mem_cons.mpr hmem)
    rw [split_path, ih hrest]
    rintro rest rfl
    exact absurd rfl hc

theorem split_path_append {segment : List Char} (h : ':' ∉ segment) (rest : List Char) :
    split_path (segment ++ ':' :: ':' :: rest) = segment :: split_path rest := by
  induction segment with
  | nil => rfl
  | cons c segment ih =>
    obtain ⟨hc, hrest⟩ := not_or.mp fun hmem => h (List.mem_cons.mpr hmem)
    rw [List.cons_append, split_path, ih hrest]
    rintro rest' rfl
    exact absurd rfl hc

/-- **A module path is split into its segments.** -/
theorem split_path_module_text {segments : List (List Char)} (hne : segments ≠ [])
    (h : ∀ s ∈ segments, ':' ∉ s) : split_path (module_text segments) = segments := by
  induction segments with
  | nil => exact absurd rfl hne
  | cons segment segments ih =>
    obtain ⟨hsegment, hrest⟩ := List.forall_mem_cons.mp h
    by_cases hsegments : segments = []
    · rw [hsegments, module_text, List.intercalate_singleton, split_path_of_plain hsegment]
    · rw [module_text_cons hsegments, split_path_append hsegment, ih hsegments hrest]

theorem mem_module_text {segments : List (List Char)} {c : Char} (h : c ∈ module_text segments) :
    c = ':' ∨ ∃ s ∈ segments, c ∈ s := by
  induction segments with
  | nil => exact absurd h List.not_mem_nil
  | cons segment segments ih =>
    by_cases hsegments : segments = []
    · rw [hsegments, module_text, List.intercalate_singleton] at h
      exact .inr ⟨segment, List.mem_cons_self, h⟩
    · rw [module_text_cons hsegments] at h
      rcases List.mem_append.mp h with h | h
      · exact .inr ⟨segment, List.mem_cons_self, h⟩
      · simp only [List.mem_cons, or_self_left] at h
        rcases h with h | h
        · exact .inl h
        · exact (ih h).imp_right fun ⟨s, hs, hc⟩ => ⟨s, List.mem_cons_of_mem _ hs, hc⟩

/-- An identifier has no character besides letters, digits and underscores. -/
theorem not_mem_of_valid_ident {segment : List Char} {c : Char}
    (h : is_valid_rust_ident segment = true) (hc : (c.isAlphanum || c == '_') = false) :
    c ∉ segment := by
  cases segment with
  | nil => exact List.not_mem_nil
  | cons d segment =>
    rw [is_valid_rust_ident, Bool.and_eq_true] at h
    intro hmem
    rcases List.mem_cons.mp hmem with rfl | hmem
    · have hword : (c.isAlphanum || c == '_') = true := by
        have hd := h.1
        rw [Bool.or_eq_true] at hd ⊢
        refine hd.imp_left fun halpha => ?_
        rw [Char.isAlphanum, halpha, Bool.true_or]
      rw [hc] at hword
      exact Bool.false_ne_true hword
    · have hword := List.all_eq_true.mp h.2 c hmem
      rw [hc] at hword
      exact Bool.false_ne_true hword

theorem replace_char_eq_self {source target : Char} {text : String}
    (h : source ∉ text.toList) : replace_char source target text = text := by
  have hmap : (text.toList.map fun c => if c = source then target else c) = text.toList := by
    conv_rhs => rw [← List.map_id text.toList]
    refine List.map_congr_left fun c hc => if_neg ?_
    rintro rfl
    exact h hc
  rw [replace_char, hmap, String.ofList_toList]

/-- **A module path resolves if and only if its segments are identifiers.** -/
theorem match_module_text {input : String} {segment : List Char} {segments : List (List Char)}
    (hne : segments ≠ []) (hinput : input.toList = module_text (segment :: segments))
    (hplain : ∀ s ∈ segment :: segments, ':' ∉ s ∧ '-' ∉ s) :
    match_module input =
      if (segment :: segments).all is_valid_rust_ident then some input else none := by
  have hcolonless : ∀ s ∈ segment :: segments, ':' ∉ s := fun s hs => (hplain s hs).1
  -- there is no hyphen to replace
  have hnormal : replace_char '-' '_' input = input := by
    refine replace_char_eq_self fun hmem => ?_
    rw [hinput] at hmem
    rcases mem_module_text hmem with heq | ⟨s, hs, hc⟩
    · exact absurd heq (by decide)
    · exact (hplain s hs).2 hc
  have hsplit : split_path input.toList = segment :: segments := by
    rw [hinput, split_path_module_text (List.cons_ne_nil _ _) hcolonless]
  have hcolons : contains_colons input.toList = true := by
    rw [hinput, module_text_cons hne, contains_colons, List.any_eq_true]
    exact ⟨_, (List.mem_tails _ _).mpr (List.suffix_append _ _), rfl⟩
  have hempty : input.toList.isEmpty = false := by
    rw [hinput, module_text_cons hne, List.isEmpty_eq_false_iff]
    exact List.append_ne_nil_of_right_ne_nil _ (List.cons_ne_nil _ _)
  by_cases hall : (segment :: segments).all is_valid_rust_ident = true
  · have habsent : ∀ c : Char, c ≠ ':' → (c.isAlphanum || c == '_') = false →
        input.toList.contains c = false := by
      intro c hcolon hc
      rw [← Bool.not_eq_true, List.contains_iff_mem, hinput]
      intro hmem
      rcases mem_module_text hmem with heq | ⟨s, hs, hmem⟩
      · exact hcolon heq
      · exact not_mem_of_valid_ident (List.all_eq_true.mp hall s hs) hc hmem
    simp only [match_module, hempty, habsent '/' (by decide) (by decide),
      habsent '\\' (by decide) (by decide), habsent '.' (by decide) (by decide), hnormal, hcolons,
      hsplit, hall, Bool.or_self, Bool.not_true, Bool.false_eq_true, if_false, if_true]
  · simp only [match_module, hempty, hnormal, hcolons, hsplit, hall, Bool.not_true,
      Bool.false_eq_true, if_false, ite_self]

/-! ## The workspace crates -/

def crate_of (entry : String × ManifestRead) : Option WorkspaceCrate :=
  match entry.2 with
  | .Package name => some ⟨name, crate_dir entry.1⟩
  | _ => none

def workspace_crates (ws : Workspace) : List WorkspaceCrate := ws.crate_dirs.filterMap crate_of

/-- Every manifest of a workspace is read; the directories are distinct names, the crates
have distinct names, and a crate's name is a text without colons. -/
structure CratesRead (ws : Workspace) : Prop where
  manifests : ∀ entry ∈ ws.crate_dirs, entry.2 = .Absent ∨ ∃ name, entry.2 = .Package name
  dirs : (ws.crate_dirs.map Prod.fst).Nodup
  slashless : ∀ entry ∈ ws.crate_dirs, '/' ∉ entry.1.toList
  names : ((workspace_crates ws).map WorkspaceCrate.name).Nodup
  valid : ∀ c ∈ workspace_crates ws, c.name.toList ≠ [] ∧ ':' ∉ c.name.toList

variable {ws : Workspace}

/-- **Discovery finds the crates of the workspace.** -/
theorem discover_eq_ok (h : CratesRead ws) :
    discover_workspace_crates ws = .ok (Store.ofList (workspace_crates ws)) := by
  -- by induction on the walk, for any crates found before it
  have hall : ∀ (entries : List (String × ManifestRead)) (crates : Crates),
      (∀ entry ∈ entries, entry.2 = .Absent ∨ ∃ name, entry.2 = .Package name) →
      entries.foldlM (discover_entry ws) crates =
        .ok ((entries.filterMap crate_of).foldl Store.put crates) := by
    intro entries
    induction entries with
    | nil => exact fun crates _ => rfl
    | cons entry entries ih =>
      intro crates hread
      obtain ⟨hentry, hrest⟩ := List.forall_mem_cons.mp hread
      rw [List.foldlM_cons]
      rcases hentry with habsent | ⟨name, hname⟩
      · have hnone : crate_of entry = none := by rw [crate_of, habsent]
        have hskip : discover_entry ws crates entry = .ok crates := by
          rw [discover_entry, habsent]
        rw [hskip, List.filterMap_cons_none hnone]
        exact ih crates hrest
      · have hsome : crate_of entry = some ⟨name, crate_dir entry.1⟩ := by
          rw [crate_of, hname]
        have hput : discover_entry ws crates entry =
            .ok (crates.put ⟨name, crate_dir entry.1⟩) := by
          rw [discover_entry, hname]
        rw [hput, List.filterMap_cons_some hsome]
        exact ih _ hrest
  exact hall ws.crate_dirs Store.empty h.manifests

/-- The discovered crates. -/
abbrev found_crates (ws : Workspace) : Crates := Store.ofList (workspace_crates ws)

theorem mem_found_crates (h : CratesRead ws) {c : WorkspaceCrate} :
    c ∈ (found_crates ws).values ↔ c ∈ workspace_crates ws := Store.mem_values_ofList h.names

theorem get_found_crates (h : CratesRead ws) {c : WorkspaceCrate} (hc : c ∈ workspace_crates ws) :
    (found_crates ws).get c.name = some c :=
  Store.mem_values.mp ((mem_found_crates h).mpr hc)

theorem mem_workspace_crates {c : WorkspaceCrate} : c ∈ workspace_crates ws ↔
    ∃ dir, (dir, .Package c.name) ∈ ws.crate_dirs ∧ c.dir = crate_dir dir := by
  rw [workspace_crates, List.mem_filterMap]
  constructor
  · rintro ⟨⟨dir, manifest⟩, hmem, hentry⟩
    unfold crate_of at hentry
    split at hentry
    · next name hname =>
      obtain rfl := Option.some.inj hentry
      subst hname
      exact ⟨dir, hmem, rfl⟩
    · cases hentry
  · rintro ⟨dir, hmem, hdir⟩
    refine ⟨(dir, .Package c.name), hmem, ?_⟩
    rw [crate_of, ← hdir]

/-! ## Files of a crate -/

theorem crate_dir_eq (dir : String) : crate_dir dir =
    "crates/" ++ String.ofList (Bundle.replace_backslash dir.toList) := by
  refine String.toList_inj.mp ?_
  simp only [crate_dir, String.toList_append, String.toList_ofList, Bundle.replace_backslash,
    List.map_append]
  rfl

/-- The workspace-relative path of a file in a crate directory, as the resolver writes it. -/
theorem relative_text_eq (dir : String) {rest : List String} (hrest : rest ≠ []) :
    String.ofList (Bundle.replace_backslash
        (['/'].intercalate (("crates" :: dir :: rest).map String.toList))) =
      "crates/" ++ String.ofList (Bundle.replace_backslash dir.toList ++
        '/' :: Bundle.replace_backslash (['/'].intercalate (rest.map String.toList))) := by
  refine String.toList_inj.mp ?_
  obtain ⟨first, rest, rfl⟩ := List.exists_cons_of_ne_nil hrest
  simp only [String.toList_append, String.toList_ofList, List.map_cons,
    List.intercalate_cons_cons, Bundle.replace_backslash, List.map_append, List.append_assoc]
  rfl

theorem takeWhile_slash {name : List Char} (hname : '/' ∉ name) (rest : List Char) :
    (name ++ '/' :: rest).takeWhile (fun c => c != '/') = name := by
  rw [List.takeWhile_append_of_pos, List.takeWhile_cons_of_neg (by decide), List.append_nil]
  intro c hc
  rw [bne_iff_ne]
  rintro rfl
  exact hname hc

theorem crate_for_file (crates : Crates) (dir : String) {rest : List String} (hrest : rest ≠ []) :
    crate_for_relative_path (String.ofList (Bundle.replace_backslash
        (['/'].intercalate (("crates" :: dir :: rest).map String.toList)))) crates =
      (crates.values.find? fun c => c.dir == "crates/" ++ String.ofList
        ((Bundle.replace_backslash dir.toList ++ '/' :: Bundle.replace_backslash
          (['/'].intercalate (rest.map String.toList))).takeWhile fun c => c != '/')).map
            WorkspaceCrate.name := by
  rw [relative_text_eq dir hrest, crate_for_relative_path, strip_prefix_append,
    Option.bind_some, String.toList_ofList]

/-- **A file is taken to the crate of its directory**, when the directory's name has no
backslash. -/
theorem crate_for_file_of_plain (h : CratesRead ws) {dir name : String}
    (hentry : (dir, .Package name) ∈ ws.crate_dirs) (hplain : '\\' ∉ dir.toList)
    {rest : List String} (hrest : rest ≠ []) :
    crate_for_relative_path (String.ofList (Bundle.replace_backslash
        (['/'].intercalate (("crates" :: dir :: rest).map String.toList)))) (found_crates ws) =
      some name := by
  rw [crate_for_file _ dir hrest, Bundle.replace_backslash_eq_self hplain,
    takeWhile_slash (h.slashless _ hentry), String.ofList_toList]
  have hself : (⟨name, crate_dir dir⟩ : WorkspaceCrate) ∈ workspace_crates ws :=
    mem_workspace_crates.mpr ⟨dir, hentry, rfl⟩
  have hdir : crate_dir dir = "crates/" ++ dir := by
    rw [crate_dir_eq, Bundle.replace_backslash_eq_self hplain, String.ofList_toList]
  cases hfind : (found_crates ws).values.find? fun c => c.dir == "crates/" ++ dir with
  | none =>
    have hnone := List.find?_eq_none.mp hfind _ ((mem_found_crates h).mpr hself)
    exact absurd (beq_iff_eq.mpr hdir) hnone
  | some c =>
    have hfound : c.dir = "crates/" ++ dir :=
      beq_iff_eq.mp (List.find?_some (p := fun c : WorkspaceCrate => c.dir == "crates/" ++ dir)
        hfind)
    obtain ⟨dir', hentry', hdir'⟩ :=
      mem_workspace_crates.mp ((mem_found_crates h).mp (List.mem_of_find?_eq_some hfind))
    -- a directory whose name was changed has a slash in it now, and this one has none
    have hnames : Bundle.replace_backslash dir'.toList = dir.toList := by
      rw [hdir', crate_dir_eq, String.append_right_inj] at hfound
      rw [← hfound, String.toList_ofList]
    have hplain' : '\\' ∉ dir'.toList := by
      intro hmem
      refine h.slashless _ hentry ?_
      rw [← hnames, Bundle.replace_backslash]
      exact List.mem_map.mpr ⟨'\\', hmem, if_pos rfl⟩
    rw [Bundle.replace_backslash_eq_self hplain'] at hnames
    have heq : (dir', ManifestRead.Package c.name) = (dir, .Package name) :=
      List.inj_on_of_nodup_map h.dirs hentry' hentry (String.toList_inj.mp hnames)
    injection heq with _ hmanifest
    injection hmanifest with hname
    rw [Option.map_some, hname]

theorem crate_for_file_of_backslash (h : CratesRead ws) {dir name : String}
    (hentry : (dir, .Package name) ∈ ws.crate_dirs) (hback : '\\' ∈ dir.toList)
    {rest : List String} (hrest : rest ≠ []) :
    crate_for_relative_path (String.ofList (Bundle.replace_backslash
        (['/'].intercalate (("crates" :: dir :: rest).map String.toList)))) (found_crates ws) ≠
      some name := by
  rw [crate_for_file _ dir hrest]
  intro hfound
  obtain ⟨c, hfind, hname⟩ := Option.map_eq_some_iff.mp hfound
  generalize (Bundle.replace_backslash dir.toList ++ '/' :: Bundle.replace_backslash
    (['/'].intercalate (rest.map String.toList))) = text at hfind
  have hdir : c.dir = "crates/" ++ String.ofList (text.takeWhile fun c => c != '/') :=
    beq_iff_eq.mp (List.find?_some (p := fun c : WorkspaceCrate => c.dir == "crates/" ++
      String.ofList (text.takeWhile fun c => c != '/')) hfind)
  have hself : (⟨name, crate_dir dir⟩ : WorkspaceCrate) ∈ workspace_crates ws :=
    mem_workspace_crates.mpr ⟨dir, hentry, rfl⟩
  have hc : c ∈ workspace_crates ws := (mem_found_crates h).mp (List.mem_of_find?_eq_some hfind)
  have heq : c = ⟨name, crate_dir dir⟩ := List.inj_on_of_nodup_map h.names hc hself hname
  -- the crate's directory has a slash behind `crates/`, and the name that was found has none
  have hnames : Bundle.replace_backslash dir.toList = text.takeWhile fun c => c != '/' := by
    rw [heq, crate_dir_eq, String.append_right_inj] at hdir
    exact String.ofList_injective hdir
  have hslash : '/' ∈ Bundle.replace_backslash dir.toList :=
    List.mem_map.mpr ⟨'\\', hback, if_pos rfl⟩
  rw [hnames] at hslash
  exact absurd (List.mem_takeWhile_imp hslash) (by decide)

/-! ## What a report says of the crate -/

/-- Two reports say the same of their crate. -/
structure SameCrate (report report' : ContextReport) : Prop where
  crate_name : report.crate_name = report'.crate_name
  dal : report.dal = report'.dal
  in_scope : report.boundary.in_scope = report'.boundary.in_scope
  floors : report.floors = report'.floors
  nearest_claude_md :
    report.conventions.nearest_claude_md = report'.conventions.nearest_claude_md

variable {t : TraceFiles} {boundary : BoundaryConfig} {floors : Option FloorsConfig}
  {selector selector' : ResolvedSelector}

theorem report_crate_name : (build_scoped_report ws selector t boundary floors).crate_name =
    (describe_selector selector).1.getD "" := by
  unfold build_scoped_report
  rfl

/-- **What a report says of the crate depends on the crate's name alone.** -/
theorem same_crate_of_describe
    (h : (describe_selector selector).1 = (describe_selector selector').1) :
    SameCrate (build_scoped_report ws selector t boundary floors)
      (build_scoped_report ws selector' t boundary floors) := by
  unfold build_scoped_report
  revert h
  generalize describe_selector selector = described
  generalize describe_selector selector' = described'
  obtain ⟨crate_name, path, input⟩ := described
  obtain ⟨crate_name', path', input'⟩ := described'
  rintro (rfl : crate_name = crate_name')
  exact ⟨rfl, rfl, rfl, rfl, rfl⟩

/-! ## Selectors of one crate -/

def library_name (name : String) : List Char := (replace_char '-' '_' name).toList

/-- An input is not the path of a file of a crate, which comes before the other kinds. -/
def NoFile (ws : Workspace) (input : String) : Prop :=
  match_file ws (String.ofList (trim_chars input.toList)) (found_crates ws) = none

/-- Inputs of the three kinds for the crate `name` in the directory `dir`: its name, a path
that leads to a file in the directory, and a module path that begins with its library. -/
structure Selects (ws : Workspace) (dir name : String) (segments : List (List Char))
    (crate_input file_input module_input : String) : Prop where
  crate_text : trim_chars crate_input.toList = name.toList
  crate_not_file : NoFile ws crate_input
  file_text : trim_chars file_input.toList ≠ []
  file_at : ∃ rest, rest ≠ [] ∧
    ws.file_at (ws.join (String.ofList (trim_chars file_input.toList))) =
      some (ws.canonical_root ++ "crates" :: dir :: rest)
  module_text : trim_chars module_input.toList = module_text (library_name name :: segments)
  module_not_file : NoFile ws module_input
  segments_ne : segments ≠ []
  segments_plain : ∀ s ∈ segments, ':' ∉ s ∧ '-' ∉ s

/-- The three inputs resolve, each to its kind, and the reports say the same of the
crate. -/
def KindsAgree (ws : Workspace) (t : TraceFiles) (boundary : BoundaryConfig)
    (floors : Option FloorsConfig) (crate_input file_input module_input : String) : Prop :=
  ∃ of_crate of_file of_module,
    (resolve_selector ws (some crate_input) = .ok of_crate ∧ of_crate.kind = "crate") ∧
    (resolve_selector ws (some file_input) = .ok of_file ∧ of_file.kind = "file") ∧
    (resolve_selector ws (some module_input) = .ok of_module ∧ of_module.kind = "module") ∧
    SameCrate (build_scoped_report ws of_crate t boundary floors)
      (build_scoped_report ws of_file t boundary floors) ∧
    SameCrate (build_scoped_report ws of_crate t boundary floors)
      (build_scoped_report ws of_module t boundary floors)

variable {dir name : String} {segments : List (List Char)}
  {crate_input file_input module_input : String}

theorem resolve_eq (h : CratesRead ws) {input : String} (hne : trim_chars input.toList ≠ []) :
    resolve_selector ws (some input) =
      resolve_among ws input (String.ofList (trim_chars input.toList)) (found_crates ws) := by
  have hempty : (String.ofList (trim_chars input.toList)).toList.isEmpty = false := by
    rw [String.toList_ofList, List.isEmpty_eq_false_iff]
    exact hne
  simp only [resolve_selector, hempty, Bool.false_eq_true, if_false, discover_eq_ok h]
  rfl

/-- **The name of a crate resolves to the crate.** -/
theorem resolve_crate (h : CratesRead ws) (hentry : (dir, .Package name) ∈ ws.crate_dirs)
    (hselects : Selects ws dir name segments crate_input file_input module_input) :
    ∃ ambiguities, resolve_selector ws (some crate_input) =
      .ok (.Crate crate_input name ambiguities) := by
  have hself : (⟨name, crate_dir dir⟩ : WorkspaceCrate) ∈ workspace_crates ws :=
    mem_workspace_crates.mpr ⟨dir, hentry, rfl⟩
  have hget : (found_crates ws).get name = some ⟨name, crate_dir dir⟩ := get_found_crates h hself
  have hmatch : match_crate (String.ofList (trim_chars crate_input.toList)) (found_crates ws) =
      some name := by
    rw [hselects.crate_text, String.ofList_toList, match_crate, hget]
    rfl
  rw [resolve_eq h (by rw [hselects.crate_text]; exact (h.valid _ hself).1), resolve_among,
    hselects.crate_not_file, hmatch]
  exact ⟨_, rfl⟩

/-- A path into a crate directory is looked up by the directory. -/
theorem match_file_eq
    (hselects : Selects ws dir name segments crate_input file_input module_input) :
    ∃ rest rel_str, rest ≠ [] ∧
      rel_str = String.ofList (Bundle.replace_backslash
        (['/'].intercalate (("crates" :: dir :: rest).map String.toList))) ∧
      match_file ws (String.ofList (trim_chars file_input.toList)) (found_crates ws) =
        (crate_for_relative_path rel_str (found_crates ws)).map fun crate_name =>
          (rel_str, crate_name) := by
  obtain ⟨rest, hrest, hfile⟩ := hselects.file_at
  have hstrip : strip_names ws.canonical_root (ws.canonical_root ++ "crates" :: dir :: rest) =
      some ("crates" :: dir :: rest) := by
    rw [strip_names, if_pos, List.drop_left]
    exact List.isPrefixOf_iff_prefix.mpr (List.prefix_append _ _)
  refine ⟨rest, _, hrest, rfl, ?_⟩
  rw [match_file, hfile, Option.bind_some, hstrip, Option.bind_some]

theorem resolve_file_iff (h : CratesRead ws) {input : String} (hne : trim_chars input.toList ≠ [])
    {selector : ResolvedSelector} :
    (resolve_selector ws (some input) = .ok selector ∧ selector.kind = "file") ↔
      ∃ rel_path crate_name ambiguities,
        match_file ws (String.ofList (trim_chars input.toList)) (found_crates ws) =
          some (rel_path, crate_name) ∧
        ambiguities = (if (match_crate (String.ofList (trim_chars input.toList))
            (found_crates ws)).isSome then ["crate"] else []) ++
          (if (match_module (String.ofList (trim_chars input.toList))).isSome then ["module"]
            else []) ∧
        selector = .File input rel_path crate_name ambiguities := by
  rw [resolve_eq h hne, resolve_among]
  cases match_file ws (String.ofList (trim_chars input.toList)) (found_crates ws) with
  | some found =>
    obtain ⟨rel_path, crate_name⟩ := found
    constructor
    · rintro ⟨hok, _⟩
      exact ⟨rel_path, crate_name, _, rfl, rfl, (Except.ok.inj hok).symm⟩
    · rintro ⟨rel_path', crate_name', ambiguities, hfound, rfl, rfl⟩
      obtain ⟨rfl, rfl⟩ := Prod.mk.inj (Option.some.inj hfound)
      exact ⟨rfl, rfl⟩
  | none =>
    refine iff_of_false ?_ ?_
    · rintro ⟨hok, hkind⟩
      dsimp only at hok
      split at hok
      · obtain rfl := Except.ok.inj hok
        have hkinds : "crate" = "file" := hkind
        exact absurd hkinds (by decide)
      · split at hok
        · obtain rfl := Except.ok.inj hok
          have hkinds : "module" = "file" := hkind
          exact absurd hkinds (by decide)
        · cases hok
    · rintro ⟨_, _, _, hfound, _⟩
      cases hfound

theorem library_name_plain (hname : ':' ∉ name.toList) :
    ':' ∉ library_name name ∧ '-' ∉ library_name name := by
  rw [library_name, replace_char, String.toList_ofList]
  refine ⟨fun hmem => ?_, fun hmem => ?_⟩
  · obtain ⟨c, hc, heq⟩ := List.mem_map.mp hmem
    split at heq
    · exact absurd heq (by decide)
    · exact hname (heq ▸ hc)
  · obtain ⟨c, _, heq⟩ := List.mem_map.mp hmem
    split at heq
    · exact absurd heq (by decide)
    · next hne => exact hne heq

/-- **A module path resolves if and only if its segments are identifiers.** The library name
comes from a name without colons, and the path of no crate has one. -/
theorem resolve_module (h : CratesRead ws) (hentry : (dir, .Package name) ∈ ws.crate_dirs)
    (hselects : Selects ws dir name segments crate_input file_input module_input) :
    resolve_selector ws (some module_input) =
      if (library_name name :: segments).all is_valid_rust_ident then
        .ok (.Module module_input (String.ofList (module_text (library_name name :: segments))) [])
      else .error (.SelectorOutOfScope module_input) := by
  have hself : (⟨name, crate_dir dir⟩ : WorkspaceCrate) ∈ workspace_crates ws :=
    mem_workspace_crates.mpr ⟨dir, hentry, rfl⟩
  have hlibrary := library_name_plain (h.valid _ hself).2
  have hplain : ∀ s ∈ library_name name :: segments, ':' ∉ s ∧ '-' ∉ s :=
    List.forall_mem_cons.mpr ⟨hlibrary, hselects.segments_plain⟩
  have htext : module_text (library_name name :: segments) =
      library_name name ++ ':' :: ':' :: module_text segments :=
    module_text_cons hselects.segments_ne
  have hcolon : ':' ∈ module_text (library_name name :: segments) := by
    rw [htext]
    exact List.mem_append_right _ List.mem_cons_self
  have hcrate : match_crate (String.ofList (module_text (library_name name :: segments)))
      (found_crates ws) = none := by
    rw [match_crate, if_neg]
    intro hsome
    obtain ⟨c, hc⟩ := Option.isSome_iff_exists.mp hsome
    have hmem := (mem_found_crates h).mp (Store.mem_values_of_get hc)
    refine (h.valid c hmem).2 ?_
    rw [Store.key_of_get hc, String.toList_ofList]
    exact hcolon
  have hnofile := hselects.module_not_file
  unfold NoFile at hnofile
  rw [hselects.module_text] at hnofile
  rw [resolve_eq h (by rw [hselects.module_text]; exact List.ne_nil_of_mem hcolon),
    hselects.module_text, resolve_among, hnofile, hcrate,
    match_module_text hselects.segments_ne (String.toList_ofList) hplain]
  by_cases hall : (library_name name :: segments).all is_valid_rust_ident = true
  · simp only [hall, if_true]
  · simp only [hall, Bool.false_eq_true, if_false]

/-! ## The promise -/

theorem describe_module (raw : String) (segments : List (List Char))
    (hplain : ∀ s ∈ segments, ':' ∉ s ∧ '-' ∉ s) (hname : name.toList ≠ [])
    (hcolon : ':' ∉ library_name name) :
    (describe_selector (.Module raw (String.ofList (module_text (library_name name :: segments)))
      [])).1 = some (replace_char '_' '-' (String.ofList (library_name name))) := by
  have hsplit : split_path (module_text (library_name name :: segments)) =
      library_name name :: segments := split_path_module_text (List.cons_ne_nil _ _)
    (List.forall_mem_cons.mpr ⟨hcolon, fun s hs => (hplain s hs).1⟩)
  have hempty : (replace_char '_' '-' (String.ofList (library_name name))).toList.isEmpty =
      false := by
    rw [replace_char, String.toList_ofList, String.toList_ofList, library_name, replace_char,
      String.toList_ofList, List.isEmpty_eq_false_iff, Ne, List.map_eq_nil_iff,
      List.map_eq_nil_iff]
    exact hname
  simp only [describe_selector, String.toList_ofList, hsplit, List.head?_cons, Option.map_some,
    Option.filter_some, hempty, Bool.not_false, if_true]

/-- **The name is recovered if and only if it has no underscore.** -/
theorem recovered_iff :
    replace_char '_' '-' (String.ofList (library_name name)) = name ↔ '_' ∉ name.toList := by
  have hchars : (replace_char '_' '-' (String.ofList (library_name name))).toList =
      name.toList.map fun c => if c = '_' then '-' else c := by
    simp only [replace_char, library_name, String.toList_ofList, List.map_map]
    refine List.map_congr_left fun c _ => ?_
    by_cases hc : c = '-'
    · subst hc
      rfl
    · rw [Function.comp_apply, if_neg hc]
  rw [← String.toList_inj, hchars]
  constructor
  · intro heq hmem
    have hmem' := hmem
    rw [← heq] at hmem'
    obtain ⟨c, _, hc⟩ := List.mem_map.mp hmem'
    split at hc
    · exact absurd hc (by decide)
    · next hne => exact hne hc
  · intro hnot
    conv_rhs => rw [← List.map_id name.toList]
    refine List.map_congr_left fun c hc => if_neg ?_
    rintro rfl
    exact hnot hc

/-- **The three kinds agree if and only if** the package name has no underscore, the module
path has ASCII identifiers alone, and the directory's name has no backslash. -/
theorem selector_kinds_promise_iff (ws : Workspace) (t : TraceFiles) (boundary : BoundaryConfig)
    (floors : Option FloorsConfig) (dir name : String) (segments : List (List Char))
    (crate_input file_input module_input : String) (h : CratesRead ws)
    (hentry : (dir, .Package name) ∈ ws.crate_dirs)
    (hselects : Selects ws dir name segments crate_input file_input module_input) :
    KindsAgree ws t boundary floors crate_input file_input module_input ↔
      '_' ∉ name.toList ∧ (library_name name :: segments).all is_valid_rust_ident = true ∧
        '\\' ∉ dir.toList := by
  have hself : (⟨name, crate_dir dir⟩ : WorkspaceCrate) ∈ workspace_crates ws :=
    mem_workspace_crates.mpr ⟨dir, hentry, rfl⟩
  have hcolon := (library_name_plain (h.valid _ hself).2).1
  obtain ⟨ambiguities, hcrate⟩ := resolve_crate h hentry hselects
  obtain ⟨rest, rel_str, hrest, hrel, hfile⟩ := match_file_eq hselects
  have hmodule := resolve_module h hentry hselects
  have hdescribe := describe_module module_input segments hselects.segments_plain
    (h.valid _ hself).1 hcolon
  constructor
  · rintro ⟨of_crate, of_file, of_module, ⟨hof_crate, _⟩, hof_file, ⟨hof_module, _⟩, hsame,
      hsame'⟩
    rw [hcrate] at hof_crate
    obtain rfl := Except.ok.inj hof_crate
    rw [hmodule] at hof_module
    by_cases hall : (library_name name :: segments).all is_valid_rust_ident = true
    · rw [if_pos hall] at hof_module
      obtain rfl := Except.ok.inj hof_module
      refine ⟨?_, hall, fun hback => ?_⟩
      · have hname := hsame'.crate_name
        rw [report_crate_name, report_crate_name, hdescribe] at hname
        exact recovered_iff.mp hname.symm
      · obtain ⟨rel_path, crate_name, _, hfound, _, rfl⟩ :=
          (resolve_file_iff h hselects.file_text).mp hof_file
        have hname := hsame.crate_name
        rw [report_crate_name, report_crate_name] at hname
        have hcrate_name : name = crate_name := hname
        rw [hfile] at hfound
        obtain ⟨found, hlookup, hpair⟩ := Option.map_eq_some_iff.mp hfound
        have hfound_name : found = crate_name := congrArg Prod.snd hpair
        rw [hrel, hfound_name, ← hcrate_name] at hlookup
        exact crate_for_file_of_backslash h hentry hback hrest hlookup
    · rw [if_neg hall] at hof_module
      cases hof_module
  · rintro ⟨hunderscore, hall, hback⟩
    rw [if_pos hall] at hmodule
    have hlookup := crate_for_file_of_plain h hentry hback hrest
    rw [← hrel] at hlookup
    rw [hlookup, Option.map_some] at hfile
    have hof_file := (resolve_file_iff h hselects.file_text).mpr
      ⟨rel_str, name, _, hfile, rfl, rfl⟩
    refine ⟨_, _, _, ⟨hcrate, rfl⟩, hof_file, ⟨hmodule, rfl⟩, same_crate_of_describe rfl,
      same_crate_of_describe ?_⟩
    rw [hdescribe, recovered_iff.mpr hunderscore]
    rfl

/-! ## A package with an underscore in its name -/

def one_crate (name : String) : Workspace where
  root := "/ws"
  canonical_root := ["ws"]
  file_at := fun path =>
    if path = "/ws/crates/scan/src/lib.rs" then some ["ws", "crates", "scan", "src", "lib.rs"]
    else none
  crate_dirs := [("scan", .Package name)]
  per_crate_measurements := Store.empty

theorem one_crate_read {name : String} (hne : name.toList ≠ []) (hcolon : ':' ∉ name.toList) :
    CratesRead (one_crate name) where
  manifests := List.forall_mem_singleton.mpr (.inr ⟨name, rfl⟩)
  dirs := List.nodup_singleton _
  slashless := List.forall_mem_singleton.mpr (show '/' ∉ "scan".toList by decide)
  names := List.nodup_singleton _
  valid := List.forall_mem_singleton.mpr ⟨hne, hcolon⟩

/-- A trace without entries. -/
def empty_trace : TraceFiles where
  sys := ⟨⟨"1.0"⟩, ⟨"SYS", "1"⟩, []⟩
  hlr := ⟨⟨"1.0"⟩, ⟨"HLR", "1"⟩, []⟩
  llr := ⟨⟨"1.0"⟩, ⟨"LLR", "1"⟩, []⟩
  tests := ⟨⟨"1.0"⟩, ⟨"TEST", "1"⟩, []⟩
  derived := none

/-- A policy that puts one crate in scope, at the highest level. -/
def critical (name : String) : BoundaryConfig where
  scope := ⟨[name], []⟩
  dal := some ⟨some .D, Store.ofList [(name, .A)]⟩

theorem scan_crate_selects : Selects (one_crate "scan_core") "scan" "scan_core" ["lexer".toList]
    "scan_core" "crates/scan/src/lib.rs" "scan_core::lexer" where
  crate_text := by decide
  crate_not_file := rfl
  file_text := by decide
  file_at := ⟨["src", "lib.rs"], by decide, rfl⟩
  module_text := by decide
  module_not_file := rfl
  segments_ne := by decide
  segments_plain := by decide

/-- The report of a module of the package `scan_core` is one of a crate `scan-core`. -/
theorem underscore_is_lost : CratesRead (one_crate "scan_core") ∧
    Selects (one_crate "scan_core") "scan" "scan_core" ["lexer".toList]
      "scan_core" "crates/scan/src/lib.rs" "scan_core::lexer" ∧
    ¬ KindsAgree (one_crate "scan_core") empty_trace (critical "scan_core") none
      "scan_core" "crates/scan/src/lib.rs" "scan_core::lexer" := by
  have hread : CratesRead (one_crate "scan_core") := one_crate_read (by decide) (by decide)
  have hentry : ("scan", ManifestRead.Package "scan_core") ∈ (one_crate "scan_core").crate_dirs :=
    List.mem_singleton_self _
  refine ⟨hread, scan_crate_selects, ?_⟩
  rintro ⟨of_crate, of_file, of_module, ⟨hof_crate, _⟩, _, ⟨hof_module, _⟩, _, hsame⟩
  obtain ⟨ambiguities, hcrate⟩ := resolve_crate hread hentry scan_crate_selects
  rw [hcrate] at hof_crate
  obtain rfl := Except.ok.inj hof_crate
  rw [resolve_module hread hentry scan_crate_selects, if_pos (by decide)] at hof_module
  obtain rfl := Except.ok.inj hof_module
  have hname := hsame.crate_name
  rw [report_crate_name, report_crate_name] at hname
  have hnames : "scan_core" = "scan-core" := hname
  exact absurd hnames (by decide)

/-- The package `scan-core`, whose name is recovered. -/
theorem selector_kinds_promise_scan : CratesRead (one_crate "scan-core") ∧
    (KindsAgree (one_crate "scan-core") empty_trace (critical "scan-core") none
      "scan-core" "crates/scan/src/lib.rs" "scan_core::lexer" ↔
      '_' ∉ "scan-core".toList ∧
        (library_name "scan-core" :: ["lexer".toList]).all is_valid_rust_ident = true ∧
        '\\' ∉ "scan".toList) := by
  have hread : CratesRead (one_crate "scan-core") := one_crate_read (by decide) (by decide)
  refine ⟨hread, selector_kinds_promise_iff _ _ _ _ _ _ _ _ _ _ hread
    (List.mem_singleton_self _) ?_⟩
  exact
    { crate_text := by decide
      crate_not_file := rfl
      file_text := by decide
      file_at := ⟨["src", "lib.rs"], by decide, rfl⟩
      module_text := by decide
      module_not_file := rfl
      segments_ne := by decide
      segments_plain := by decide }

end Evidence.Context
