/-
`bundle/input_scope.rs` -- the plan of the inputs that a bundle hashes.

A package that is in scope is resolved to the directory of its manifest, and the files
below the directory are enumerated; so are the files that control the workspace, and what
the policy declares to be required. The three are put into one map from paths, the first
reason of a path stays.

The workspace here is one without git: a tree of directories and regular files under the
root, and the enumeration is the walk over the file system, which passes over directories
called `target` and `.git`. What is enumerated comes as the names on the way, with slashes
between them. What is declared comes as it is written.
-/
import Evidence.Bundle.FileTree
import Evidence.Lib.Paths
import Evidence.Lib.Sorting
import Evidence.Lib.Store

set_option autoImplicit false

namespace Evidence.Bundle

open Paths Sorting

/-! ## The workspace tree -/

structure SourceTree extends FileTree where
  regular : ∀ entry ∈ entries, ∀ target, entry.2 ≠ .Symlink target

namespace FileTree

def locate (t : FileTree) : RelPath → List OsName → Option RelPath
  | here, [] => some here
  | here, name :: rest =>
    -- an empty name and a dot stay where they are
    if name = [] ∨ name = os_name ['.'] then t.locate here rest
    else if name = os_name ['.', '.'] then
      -- what is above the root is not of the tree
      if here = [] then none else t.locate here.dropLast rest
    else
      match t.get (here ++ [name]) with
      -- a file has nothing below it
      | some (.File _) => if rest = [] then some (here ++ [name]) else none
      | some .Dir => t.locate (here ++ [name]) rest
      | _ => none

/-- Where `root.join(text)` leads. -/
def located (t : FileTree) (text : String) : Option RelPath :=
  t.locate [] (components (os_name text.toList))

def is_file (t : FileTree) (path : RelPath) : Bool :=
  match t.get path with
  | some (.File _) => true
  | _ => false

end FileTree

namespace InputScope

/-- `path.file_name()`, or the path if it has none. -/
def file_name (path : List Char) : List Char :=
  match (Paths.components path).getLast? with
  | some (.Normal name) => name
  | _ => path

/-! ## Types -/

structure ResolvedUnit where
  name : String
  rel_dir : String
deriving DecidableEq

/-- Why a path is part of the input set. -/
inductive InputReason where
  | InScopeUnit (name : String)
  | DeclaredRequired
  | WorkspaceControl
deriving DecidableEq

/-- One planned input. -/
structure InputEntry where
  path : String
  reason : InputReason
deriving DecidableEq

inductive InputScopeError where
  | MissingPackage (name : String)
  | PathEscape (name : String) (dir : List Component)
  | EmptyScope (name rel_dir : String)
  | NoInputs
  | MissingRequiredInput (path : String)
  | RequiredInputEscape (path : String)
deriving DecidableEq

structure RawPackage where
  name : String
  manifest_path : String
deriving DecidableEq

/-- What is read of `cargo metadata`. -/
structure RawMetadata where
  workspace_root : String
  packages : List RawPackage
deriving DecidableEq

def WORKSPACE_CONTROL_PATHSPECS : List String :=
  ["Cargo.toml", "Cargo.lock", "rust-toolchain.toml", "rust-toolchain", "cert"]

/-! ## Packages -/

/-- `path.parent()`, by its components; the empty path where there is none. -/
def parent (path : List Component) : List Component :=
  if path.getLast? = some .RootDir then [] else path.dropLast

def to_forward_slash (path : List Component) : String := String.ofList (Paths.text path)

/-- One declared name: the first package of the name, and its directory. -/
def resolve_one (name : String) (root : List Component) (packages : List RawPackage) :
    Except InputScopeError ResolvedUnit :=
  match packages.find? fun p => p.name == name with
  | none => .error (.MissingPackage name)
  | some pkg =>
    let manifest_dir := parent (Paths.components pkg.manifest_path.toList)
    -- by components: `/ws-old` does not lie under `/ws`
    if root <+: manifest_dir then
      .ok ⟨name, to_forward_slash (manifest_dir.drop root.length)⟩
    else .error (.PathEscape name manifest_dir)

/-- The declared names in order. -/
def resolve_in_scope_units (metadata : RawMetadata) (in_scope : List String) :
    Except InputScopeError (List ResolvedUnit) :=
  in_scope.mapM fun name =>
    resolve_one name (Paths.components metadata.workspace_root.toList) metadata.packages

/-! ## Enumeration -/

/-- The directories that the walk does not descend into. -/
def is_excluded (name : OsName) : Bool :=
  name == os_name "target".toList || name == os_name ".git".toList

/-- The regular files below a directory, by the names behind it, without those below a
directory that is excluded. -/
def files_below (t : FileTree) (here : RelPath) : List RelPath :=
  (((t.walk_files.map Prod.fst).filter fun path => here.isPrefixOf path).map
    fun path => path.drop here.length).filter fun below =>
      below.dropLast.all fun name => !is_excluded name

/-- The names that a text has between its slashes. -/
def spec_names (spec : String) : List OsName :=
  (FileTree.components (os_name spec.toList)).filter fun name =>
    !(name == [] || name == os_name ['.'])

/-- What one path is enumerated to: itself, or the files below it. -/
def walk_spec (t : SourceTree) (root spec : String) : List String :=
  match t.located spec with
  | none => []
  | some here =>
    -- a file is listed as it is spelled, also when its name is an excluded one
    if t.is_file here then [String.ofList (replace_backslash spec.toList)]
    else if is_excluded (os_name (file_name (Paths.join root.toList spec.toList))) then []
    else (files_below t.toFileTree here).map fun below =>
      String.ofList (to_string_lossy (spec_names spec ++ below))

/-- `walk_pathspecs`: the enumeration of some paths, sorted. -/
def walk_pathspecs (t : SourceTree) (root : String) (pathspecs : List String) : List String :=
  (sortBy compare (pathspecs.flatMap (walk_spec t root))).destutter (· ≠ ·)

/-- One declared input. Without links what exists lies under the root. -/
def check_required_input (t : SourceTree) (p : String) : Except InputScopeError Unit :=
  if p.toList.head? = some '/' ∨ Component.ParentDir ∈ Paths.components p.toList then
    .error (.RequiredInputEscape p)
  else if (t.located p).isSome then .ok ()
  else .error (.MissingRequiredInput p)

def check_required_inputs_exist (t : SourceTree) (required : List String) :
    Except InputScopeError Unit :=
  required.forM (check_required_input t)

/-! ## The plan -/

/-- Entries by path. -/
abbrev Entries := Store InputEntry.path

/-- The files of one unit. -/
def insert_unit (by_path : Entries) (unit : ResolvedUnit × List String) :
    Except InputScopeError Entries :=
  if unit.2.isEmpty then .error (.EmptyScope unit.1.name unit.1.rel_dir)
  -- a path that an earlier unit has brings keeps that unit as its reason
  else .ok (unit.2.foldl (fun m f => m.putNew ⟨f, .InScopeUnit unit.1.name⟩) by_path)

/-- The entries of all files, in the order of their paths. -/
def assemble_input_plan (unit_files : List (ResolvedUnit × List String))
    (required_files control_files : List String) : Except InputScopeError (List InputEntry) :=
  (unit_files.foldlM insert_unit Store.empty).bind fun by_path =>
    let by_path := required_files.foldl (fun m f => m.putNew ⟨f, .DeclaredRequired⟩) by_path
    let by_path := control_files.foldl (fun m f => m.putNew ⟨f, .WorkspaceControl⟩) by_path
    if by_path.values.isEmpty then .error .NoInputs else .ok by_path.values

/-- The input plan of a workspace without git. -/
def build_input_plan_blocking (t : SourceTree) (metadata : RawMetadata)
    (in_scope required : List String) : Except InputScopeError (List InputEntry) :=
  (resolve_in_scope_units metadata in_scope).bind fun units =>
    let unit_files := units.map fun unit =>
      (unit, walk_pathspecs t metadata.workspace_root [unit.rel_dir])
    (check_required_inputs_exist t required).bind fun _ =>
      -- the required inputs are entered as declared, the others as walked to
      assemble_input_plan unit_files required
        (walk_pathspecs t metadata.workspace_root WORKSPACE_CONTROL_PATHSPECS)

end InputScope

end Evidence.Bundle
