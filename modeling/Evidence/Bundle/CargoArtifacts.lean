/-
`bundle/cargo_artifacts.rs` -- the deliverables that `cargo build` reports.

Every file that a message of a workspace member names is listed under its path relative to the
target directory, and a file whose path does not start with the target directory's ends the
inventory. The test is on the components of the paths: a `..` behind the target directory is
a component as any other, and stays in the key. With such a file the inventory goes through
and its key leads out of the target directory. This is the one way in which it fails
(`parse_workspace_artifacts_iff`); keys are distinct in any case, as the components can be
read off a key.
-/
import Evidence.Lib.Check
import Evidence.Lib.Paths
import Evidence.Lib.Sorting
import Evidence.Lines

set_option autoImplicit false

namespace Evidence.Bundle

open Check Sorting
open Paths (components)

/-! ## Messages and artifacts -/

structure ArtifactTarget where
  kind : List String

/-- A message of `cargo build`, as far as it is read. -/
structure ArtifactMsg where
  reason : Option String
  package_id : Option String
  target : Option ArtifactTarget
  filenames : Option (List String)

/-- The parser of a message. -/
class ArtifactJson where
  from_str : String → Option ArtifactMsg

/-- A deliverable, with its path as it was spelled. -/
structure OutputArtifact where
  key : String
  path : String
deriving DecidableEq

inductive ArtifactError where
  | MalformedMessage (line : String)
  | ArtifactOutsideTargetDir (path target_dir : String)
deriving DecidableEq

/-- `PathBuf::from(file)`, as its components. -/
def path_components (path : String) : List Paths.Component := components path.toList

/-- Two deliverables are equal when their keys are, and their paths component by component. -/
def same_artifact (a b : OutputArtifact) : Prop :=
  a.key = b.key ∧ path_components a.path = path_components b.path

instance : DecidableRel same_artifact := fun _ _ => inferInstanceAs (Decidable (_ ∧ _))

def to_forward_slash (parts : List Paths.Component) : String := String.ofList (Paths.text parts)

/-- `out.sort_by(|a, b| a.key.cmp(&b.key))`. -/
def sort_by_key (out : List OutputArtifact) : List OutputArtifact :=
  sortBy (compareOn OutputArtifact.key) out

/-- `Vec::dedup`. -/
def dedup (out : List OutputArtifact) : List OutputArtifact :=
  out.destutter fun a b => ¬ same_artifact a b

/-! ## The inventory -/

section Parse

variable (workspace_members : List String) (target_directory : String)

/-- The lines of the output, trimmed. -/
def message_lines (build_json : String) : List (List Char) :=
  (lines build_json.toList).map trim_chars

def listed_files (msg : ArtifactMsg) : List String :=
  if msg.reason ≠ some "compiler-artifact" then []
  else
    match msg.package_id with
    | none => []
    | some pkg =>
      if pkg ∉ workspace_members then []
      else
        let kinds := (msg.target.map ArtifactTarget.kind).getD []
        if ¬ kinds.any (fun k => k == "lib" || k == "bin") then [] else msg.filenames.getD []

/-- The deliverable of a file. -/
def output_artifact (file : String) : Except ArtifactError OutputArtifact :=
  match Paths.stripped target_directory.toList file.toList with
  | none => .error (.ArtifactOutsideTargetDir file target_directory)
  | some rel => .ok { key := to_forward_slash rel, path := file }

variable [ArtifactJson]

/-- The deliverables of a line. -/
def line_artifacts (line : List Char) : Except ArtifactError (List OutputArtifact) :=
  if line.isEmpty then .ok []
  else
    match ArtifactJson.from_str (String.ofList line) with
    | none => .error (.MalformedMessage (String.ofList (line.take 200)))
    | some msg => (listed_files workspace_members msg).mapM (output_artifact target_directory)

def parse_workspace_artifacts (build_json : String) :
    Except ArtifactError (List OutputArtifact) := do
  let out ← (message_lines build_json).mapM (line_artifacts workspace_members target_directory)
  .ok (dedup (sort_by_key out.flatten))

end Parse

/-! ## What is asked of it -/

/-- A line that is not blank and not a message. -/
def Malformed [ArtifactJson] (build_json : String) : Prop :=
  ∃ line ∈ message_lines build_json, line ≠ [] ∧
    ArtifactJson.from_str (String.ofList line) = none

/-- A file that a compiler-artifact message of a workspace member with a lib or bin target
names. -/
def Named [ArtifactJson] (workspace_members : List String) (build_json file : String) : Prop :=
  ∃ line ∈ message_lines build_json, line ≠ [] ∧ ∃ msg,
    ArtifactJson.from_str (String.ofList line) = some msg ∧
    msg.reason = some "compiler-artifact" ∧
    (∃ pkg ∈ workspace_members, msg.package_id = some pkg) ∧
    (∃ target, msg.target = some target ∧ ("lib" ∈ target.kind ∨ "bin" ∈ target.kind)) ∧
    ∃ filenames, msg.filenames = some filenames ∧ file ∈ filenames

/-- A component that is a name. -/
def IsNormal (c : Paths.Component) : Prop := ∃ name, c = .Normal name

/-- A file lies inside a directory: it continues the directory's path, by names alone. -/
def LiesInside (target_directory file : String) : Prop :=
  ∃ rel, rel ≠ [] ∧ path_components file = path_components target_directory ++ rel ∧
    ∀ c ∈ rel, IsNormal c

def StartsWith (target_directory file : String) : Prop :=
  path_components target_directory <+: path_components file

/-- **What is asked of the inventory.** -/
structure FaithfulInventory [ArtifactJson] (workspace_members : List String)
    (target_directory build_json : String) : Prop where
  /-- The keys are sorted and pairwise distinct. -/
  sorted : ∀ out, parse_workspace_artifacts workspace_members target_directory build_json =
    .ok out → out.Pairwise fun a b => compare a.key b.key = .lt
  /-- Exactly the files that are named are listed. -/
  listed : ∀ out, parse_workspace_artifacts workspace_members target_directory build_json =
    .ok out → ∀ path, (∃ a ∈ out, path_components a.path = path) ↔
      ∃ file, Named workspace_members build_json file ∧ path_components file = path
  /-- A key is made of names, and gives back the path. -/
  keys : ∀ out, parse_workspace_artifacts workspace_members target_directory build_json =
    .ok out → ∀ a ∈ out, (∀ c ∈ path_components a.key, IsNormal c) ∧
      components (Paths.join target_directory.toList a.key.toList) = path_components a.path
  /-- A file that does not lie inside is an error. -/
  refused : ∀ file, Named workspace_members build_json file →
    ¬ LiesInside target_directory file →
      ∃ error, parse_workspace_artifacts workspace_members target_directory build_json =
        .error error

/-! ## When the inventory goes through -/

section Through

variable [ArtifactJson] {workspace_members : List String} {target_directory build_json : String}

omit [ArtifactJson] in
theorem mem_listed_files {msg : ArtifactMsg} {file : String} :
    file ∈ listed_files workspace_members msg ↔
      msg.reason = some "compiler-artifact" ∧
        (∃ pkg ∈ workspace_members, msg.package_id = some pkg) ∧
        (∃ target, msg.target = some target ∧ ("lib" ∈ target.kind ∨ "bin" ∈ target.kind)) ∧
        ∃ filenames, msg.filenames = some filenames ∧ file ∈ filenames := by
  obtain ⟨reason, package_id, target, filenames⟩ := msg
  unfold listed_files
  simp only
  by_cases hreason : reason = some "compiler-artifact"
  swap
  · rw [if_pos hreason]
    simp only [hreason, false_and, List.not_mem_nil]
  rw [if_neg (not_not.mpr hreason)]
  cases package_id with
  | none => simp only [List.not_mem_nil, reduceCtorEq, and_false, exists_false, false_and]
  | some pkg =>
    simp only [hreason, true_and, Option.some.injEq]
    by_cases hmember : pkg ∈ workspace_members
    swap
    · rw [if_pos hmember]
      simp only [List.not_mem_nil, false_iff, not_and]
      rintro ⟨other, hother, rfl⟩
      exact absurd hother hmember
    rw [if_neg (not_not.mpr hmember)]
    have hpkg : ∃ other ∈ workspace_members, pkg = other := ⟨pkg, hmember, rfl⟩
    simp only [hpkg, true_and]
    cases target with
    | none =>
      simp only [Option.map_none, Option.getD_none, List.any_nil, Bool.false_eq_true,
        not_false_eq_true, if_true, List.not_mem_nil, reduceCtorEq, false_and, exists_false]
    | some target =>
      have hkinds : target.kind.any (fun k => k == "lib" || k == "bin") = true ↔
          "lib" ∈ target.kind ∨ "bin" ∈ target.kind := by
        simp only [List.any_eq_true, Bool.or_eq_true, beq_iff_eq]
        constructor
        · rintro ⟨k, hk, rfl | rfl⟩
          · exact .inl hk
          · exact .inr hk
        · rintro (hk | hk)
          · exact ⟨_, hk, .inl rfl⟩
          · exact ⟨_, hk, .inr rfl⟩
      simp only [Option.map_some, Option.getD_some, hkinds, Option.some.injEq, exists_eq_left']
      by_cases hlisted : "lib" ∈ target.kind ∨ "bin" ∈ target.kind
      · rw [if_neg (not_not.mpr hlisted)]
        simp only [hlisted, true_and]
        cases filenames with
        | none =>
          simp only [Option.getD_none, List.not_mem_nil, reduceCtorEq, false_and, exists_false]
        | some filenames => simp only [Option.getD_some, Option.some.injEq, exists_eq_left']
      · rw [if_pos hlisted]
        simp only [hlisted, false_and, List.not_mem_nil]

omit [ArtifactJson] in
theorem output_artifact_ok {file : String} {a : OutputArtifact} :
    output_artifact target_directory file = .ok a ↔ a.path = file ∧
      ∃ rel, path_components file = path_components target_directory ++ rel ∧
        a.key = to_forward_slash rel := by
  unfold output_artifact Paths.stripped
  by_cases hstarts : components target_directory.toList <+: components file.toList
  · rw [if_pos hstarts]
    obtain ⟨rel, hrel⟩ := hstarts
    simp only [Except.ok.injEq]
    have hdrop : (components file.toList).drop (components target_directory.toList).length =
        rel := by
      rw [← hrel, List.drop_left]
    rw [hdrop]
    constructor
    · rintro rfl
      exact ⟨rfl, rel, hrel.symm, rfl⟩
    · rintro ⟨hpath, rel', hrel', hkey⟩
      have hsame : rel' = rel := by
        have happend := hrel.trans hrel'
        exact (List.append_cancel_left happend).symm
      rw [hsame] at hkey
      exact (OutputArtifact.mk.injEq .. ▸ ⟨hkey.symm, hpath.symm⟩)
  · rw [if_neg hstarts]
    simp only [reduceCtorEq, false_iff, not_and, not_exists]
    intro _ rel hrel _
    exact hstarts ⟨rel, hrel.symm⟩

omit [ArtifactJson] in
theorem exists_output_artifact {file : String} :
    (∃ a, output_artifact target_directory file = .ok a) ↔ StartsWith target_directory file := by
  constructor
  · rintro ⟨a, ha⟩
    obtain ⟨-, rel, hrel, -⟩ := output_artifact_ok.mp ha
    exact ⟨rel, hrel.symm⟩
  · rintro ⟨rel, hrel⟩
    exact ⟨⟨to_forward_slash rel, file⟩, output_artifact_ok.mpr ⟨rfl, rel, hrel.symm, rfl⟩⟩

theorem named_iff {file : String} :
    Named workspace_members build_json file ↔ ∃ line ∈ message_lines build_json, line ≠ [] ∧
      ∃ msg, ArtifactJson.from_str (String.ofList line) = some msg ∧
        file ∈ listed_files workspace_members msg := by
  simp only [Named, mem_listed_files]

theorem line_artifacts_ok {line : List Char} {as : List OutputArtifact} :
    line_artifacts workspace_members target_directory line = .ok as ↔
      (line = [] ∧ as = []) ∨ (line ≠ [] ∧ ∃ msg,
        ArtifactJson.from_str (String.ofList line) = some msg ∧
        (listed_files workspace_members msg).mapM (output_artifact target_directory) = .ok as) := by
  unfold line_artifacts
  by_cases hnil : line = []
  · subst hnil
    simp only [List.isEmpty_nil, if_true, Except.ok.injEq, true_and, ne_eq, not_true, false_and,
      or_false, eq_comm]
  · have hempty : ¬ line.isEmpty = true := by rwa [List.isEmpty_iff]
    rw [if_neg hempty]
    cases hparse : ArtifactJson.from_str (String.ofList line) with
    | none => simp only [hnil, reduceCtorEq, false_and, exists_false, and_false, or_self]
    | some msg =>
      simp only [hnil, false_and, ne_eq, not_false_eq_true, Option.some.injEq, exists_eq_left',
        true_and, false_or]

/-- **When the inventory goes through.** -/
theorem exists_parse_ok_iff :
    (∃ out, parse_workspace_artifacts workspace_members target_directory build_json = .ok out) ↔
      ¬ Malformed build_json ∧
        ∀ file, Named workspace_members build_json file → StartsWith target_directory file := by
  have hlines : (∃ out, parse_workspace_artifacts workspace_members target_directory build_json =
      .ok out) ↔ ∀ line ∈ message_lines build_json, ∃ as,
        line_artifacts workspace_members target_directory line = .ok as := by
    rw [← exists_mapM_ok_iff]
    constructor
    · rintro ⟨out, hout⟩
      obtain ⟨arts, harts, -⟩ := bind_ok_iff.mp hout
      exact ⟨arts, harts⟩
    · rintro ⟨arts, harts⟩
      exact ⟨_, bind_ok_iff.mpr ⟨arts, harts, rfl⟩⟩
  rw [hlines]
  constructor
  · intro hall
    refine ⟨?_, fun file hnamed => ?_⟩
    · rintro ⟨line, hline, hne, hnone⟩
      obtain ⟨as, has⟩ := hall line hline
      rcases line_artifacts_ok.mp has with ⟨hnil, -⟩ | ⟨-, msg, hmsg, -⟩
      · exact hne hnil
      · rw [hnone] at hmsg
        cases hmsg
    · obtain ⟨line, hline, hne, msg, hmsg, hfile⟩ := named_iff.mp hnamed
      obtain ⟨as, has⟩ := hall line hline
      rcases line_artifacts_ok.mp has with ⟨hnil, -⟩ | ⟨-, msg', hmsg', hmap⟩
      · exact absurd hnil hne
      · rw [hmsg, Option.some.injEq] at hmsg'
        subst hmsg'
        exact exists_output_artifact.mp (exists_mapM_ok_iff.mp ⟨as, hmap⟩ file hfile)
  · rintro ⟨hwell, hstarts⟩ line hline
    by_cases hnil : line = []
    · exact ⟨[], line_artifacts_ok.mpr (.inl ⟨hnil, rfl⟩)⟩
    · cases hmsg : ArtifactJson.from_str (String.ofList line) with
      | none => exact absurd ⟨line, hline, hnil, hmsg⟩ hwell
      | some msg =>
        obtain ⟨as, has⟩ := exists_mapM_ok_iff.mpr fun file hfile =>
          exists_output_artifact.mpr
            (hstarts file (named_iff.mpr ⟨line, hline, hnil, msg, hmsg, hfile⟩))
        exact ⟨as, line_artifacts_ok.mpr (.inr ⟨hnil, msg, hmsg, has⟩)⟩

/-! ## What it lists -/

omit [ArtifactJson] in
theorem components_key {file : String} {rel : List Paths.Component}
    (hrel : path_components file = path_components target_directory ++ rel) :
    path_components (to_forward_slash rel) = rel ∧ Paths.Canonical rel := by
  have hdrop : rel = (path_components file).drop (path_components target_directory).length := by
    rw [hrel, List.drop_left]
  have hcanonical : Paths.Canonical rel := by
    rw [hdrop]
    exact (Paths.components_canonical file.toList).drop _
  refine ⟨?_, hcanonical⟩
  rw [path_components, to_forward_slash, String.toList_ofList, Paths.components_text hcanonical]

theorem parse_ok {out : List OutputArtifact}
    (h : parse_workspace_artifacts workspace_members target_directory build_json = .ok out) :
    (∀ a ∈ out, ∃ file, Named workspace_members build_json file ∧
        output_artifact target_directory file = .ok a) ∧
      (∀ file, Named workspace_members build_json file →
        ∃ a ∈ out, path_components a.path = path_components file) ∧
      out.Pairwise fun a b => compare a.key b.key = .lt := by
  obtain ⟨arts, harts, hout⟩ := bind_ok_iff.mp h
  rw [Except.ok.injEq] at hout
  -- what the messages give, before it is sorted
  have hmem : ∀ a, a ∈ arts.flatten ↔ ∃ file, Named workspace_members build_json file ∧
      output_artifact target_directory file = .ok a := by
    intro a
    rw [List.mem_flatten]
    constructor
    · rintro ⟨as, has, ha⟩
      obtain ⟨line, hline, hok⟩ := (mem_of_mapM_ok harts).mp has
      rcases line_artifacts_ok.mp hok with ⟨-, rfl⟩ | ⟨hne, msg, hmsg, hmap⟩
      · exact absurd ha List.not_mem_nil
      · obtain ⟨file, hfile, hart⟩ := (mem_of_mapM_ok hmap).mp ha
        exact ⟨file, named_iff.mpr ⟨line, hline, hne, msg, hmsg, hfile⟩, hart⟩
    · rintro ⟨file, hnamed, hart⟩
      obtain ⟨line, hline, hne, msg, hmsg, hfile⟩ := named_iff.mp hnamed
      obtain ⟨as, hok⟩ := exists_mapM_ok_iff.mp ⟨arts, harts⟩ line hline
      refine ⟨as, (mem_of_mapM_ok harts).mpr ⟨line, hline, hok⟩, ?_⟩
      rcases line_artifacts_ok.mp hok with ⟨hnil, -⟩ | ⟨-, msg', hmsg', hmap⟩
      · exact absurd hnil hne
      · rw [hmsg, Option.some.injEq] at hmsg'
        subst hmsg'
        exact (mem_of_mapM_ok hmap).mpr ⟨file, hfile, hart⟩
  -- the key of a deliverable says what its path is
  have hpath : ∀ a ∈ arts.flatten, ∀ b ∈ arts.flatten, a.key = b.key →
      path_components a.path = path_components b.path := by
    intro a ha b hb hkey
    obtain ⟨file, -, hfile⟩ := (hmem a).mp ha
    obtain ⟨other, -, hother⟩ := (hmem b).mp hb
    obtain ⟨rfl, rel, hrel, hakey⟩ := output_artifact_ok.mp hfile
    obtain ⟨rfl, rel', hrel', hbkey⟩ := output_artifact_ok.mp hother
    have hcomponents := congrArg path_components (hakey.symm.trans (hkey.trans hbkey))
    rw [(components_key hrel).1, (components_key hrel').1] at hcomponents
    rw [hrel, hrel', hcomponents]
  have hkeys : out.map OutputArtifact.key =
      (sortBy compare (arts.flatten.map OutputArtifact.key)).destutter (· ≠ ·) := by
    have hmap : (dedup (sort_by_key arts.flatten)).map OutputArtifact.key =
        ((sort_by_key arts.flatten).map OutputArtifact.key).destutter (· ≠ ·) := by
      refine List.map_destutter fun a ha b hb => not_congr ⟨fun hsame => hsame.1, fun hkey => ?_⟩
      exact ⟨hkey, hpath a (mem_sortBy.mp ha) b (mem_sortBy.mp hb) hkey⟩
    have hsort : (sort_by_key arts.flatten).map OutputArtifact.key =
        sortBy compare (arts.flatten.map OutputArtifact.key) := map_sortBy (fun _ _ => rfl) _
    rw [← hout, hmap, hsort]
  have hsub : ∀ a ∈ out, a ∈ arts.flatten := by
    intro a ha
    rw [← hout] at ha
    exact mem_sortBy.mp ((List.destutter_sublist _ _).subset ha)
  refine ⟨fun a ha => (hmem a).mp (hsub a ha), fun file hnamed => ?_, ?_⟩
  · obtain ⟨a, ha⟩ := exists_output_artifact.mpr ((exists_parse_ok_iff.mp ⟨out, h⟩).2 file hnamed)
    have hflat := (hmem a).mpr ⟨file, hnamed, ha⟩
    have hin : a.key ∈ out.map OutputArtifact.key := by
      rw [hkeys, mem_destutter_ne, mem_sortBy]
      exact List.mem_map_of_mem hflat
    obtain ⟨b, hb, hkey⟩ := List.mem_map.mp hin
    refine ⟨b, hb, ?_⟩
    rw [hpath b (hsub b hb) a hflat hkey, (output_artifact_ok.mp ha).1]
  · have hsorted := @destutter_sortBy_sorted _ compare _ _ _ (arts.flatten.map OutputArtifact.key)
    rw [← hkeys] at hsorted
    exact List.pairwise_map.mp hsorted

/-! ## Where the inventory is faithful -/

omit [ArtifactJson] in
/-- A key made of names gives back the path. -/
theorem components_join_key {file : String} {rel : List Paths.Component}
    (hrel : path_components file = path_components target_directory ++ rel)
    (hnormal : ∀ c ∈ rel, IsNormal c) :
    components (Paths.join target_directory.toList (to_forward_slash rel).toList) =
      path_components file := by
  obtain ⟨hkey, hcanonical⟩ := components_key hrel
  have hinner : ∀ c ∈ rel, Paths.Inner c := by
    cases rel with
    | nil => exact fun c hc => absurd hc List.not_mem_nil
    | cons c rest =>
      refine List.forall_mem_cons.mpr ⟨?_, hcanonical.2⟩
      obtain ⟨name, rfl⟩ := hnormal c List.mem_cons_self
      rcases hcanonical.1 with hroot | hdot | hinner
      · cases hroot
      · cases hdot
      · exact hinner
  have hlead : Paths.lead (to_forward_slash rel).toList = [] := by
    rw [to_forward_slash, String.toList_ofList]
    exact Paths.lead_of_inner hinner
  have hrelative : (to_forward_slash rel).toList.head? ≠ some '/' := by
    intro hslash
    rw [Paths.lead, if_pos hslash] at hlead
    cases hlead
  rw [Paths.components_join hrelative hlead, hrel]
  congr 1

end Through

/-- **When the inventory is faithful**: when a line is malformed or a file lies elsewhere, so that
it fails, and otherwise when every file that is named lies inside the target directory. -/
theorem parse_workspace_artifacts_iff [ArtifactJson] (workspace_members : List String)
    (target_directory build_json : String) :
    FaithfulInventory workspace_members target_directory build_json ↔
      Malformed build_json ∨
        (∃ file, Named workspace_members build_json file ∧ ¬ StartsWith target_directory file) ∨
        ∀ file, Named workspace_members build_json file → LiesInside target_directory file := by
  constructor
  · intro hfaithful
    by_contra hnot
    rw [not_or, not_or] at hnot
    obtain ⟨hwell, hstarts, hinside⟩ := hnot
    push Not at hstarts hinside
    obtain ⟨out, hout⟩ := exists_parse_ok_iff.mpr ⟨hwell, hstarts⟩
    obtain ⟨file, hnamed, houtside⟩ := hinside
    obtain ⟨error, herror⟩ := hfaithful.refused file hnamed houtside
    rw [hout] at herror
    cases herror
  · intro hcase
    have hdone : ∀ out, parse_workspace_artifacts workspace_members target_directory build_json =
        .ok out → ∀ file, Named workspace_members build_json file →
          LiesInside target_directory file := by
      intro out hout
      obtain ⟨hwell, hstarts⟩ := exists_parse_ok_iff.mp ⟨out, hout⟩
      rcases hcase with hbad | ⟨file, hnamed, houtside⟩ | hinside
      · exact absurd hbad hwell
      · exact absurd (hstarts file hnamed) houtside
      · exact hinside
    refine ⟨fun out hout => (parse_ok hout).2.2, fun out hout path => ?_, fun out hout a ha => ?_,
      fun file hnamed houtside => ?_⟩
    · obtain ⟨hof, hall, -⟩ := parse_ok hout
      constructor
      · rintro ⟨a, ha, rfl⟩
        obtain ⟨file, hnamed, hart⟩ := hof a ha
        exact ⟨file, hnamed, by rw [(output_artifact_ok.mp hart).1]⟩
      · rintro ⟨file, hnamed, rfl⟩
        exact hall file hnamed
    · obtain ⟨file, hnamed, hart⟩ := (parse_ok hout).1 a ha
      obtain ⟨rfl, rel, hrel, hkey⟩ := output_artifact_ok.mp hart
      obtain ⟨rel', -, hrel', hnormal⟩ := hdone out hout a.path hnamed
      have hsame : rel' = rel := List.append_cancel_left (hrel'.symm.trans hrel)
      subst hsame
      rw [hkey, (components_key hrel).1]
      exact ⟨hnormal, components_join_key hrel hnormal⟩
    · cases hresult : parse_workspace_artifacts workspace_members target_directory build_json with
      | error error => exact ⟨error, rfl⟩
      | ok out => exact absurd (hdone out hresult file hnamed) houtside

/-! ## A file beside the target directory -/

section Witness

/-- Every line is a message of the one member, with a file that is reached through the target
directory. -/
local instance escaping_message : ArtifactJson where
  from_str _ := some
    { reason := some "compiler-artifact"
      package_id := some "app"
      target := some ⟨["bin"]⟩
      filenames := some ["/t/../etc/x"] }

/-- **A file outside the target directory is listed**, with a key that leads out of it. -/
theorem artifact_outside_target_listed :
    parse_workspace_artifacts ["app"] "/t" "x" =
        .ok [{ key := "../etc/x", path := "/t/../etc/x" }] ∧
      ¬ FaithfulInventory ["app"] "/t" "x" := by
  have hok : parse_workspace_artifacts ["app"] "/t" "x" =
      .ok [{ key := "../etc/x", path := "/t/../etc/x" }] := by
    decide +kernel
  refine ⟨hok, fun hfaithful => ?_⟩
  obtain ⟨name, hname⟩ := (hfaithful.keys _ hok _ (List.mem_singleton_self _)).1 .ParentDir
    (by decide +kernel)
  cases hname

end Witness

end Evidence.Bundle
