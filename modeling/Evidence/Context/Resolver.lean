/-
`context/resolver.rs` -- from the text of a selector to what it selects.

A selector is a file of a workspace crate, the name of a crate, or a module path, in this
order of priority. A workspace is what the resolver reads of the disk: the regular file
that a path leads to, by the names on its canonical path, and the directories of
`crates/` with what their manifests hold.

A file is taken to the crate of the directory it lies in, and a crate by its name, as the
manifest spells it. A module path is kept with underscores for hyphens, and the crate is
left to the lookup.
-/
import Evidence.Bundle.FileTree
import Evidence.Lib.Paths
import Evidence.Lib.Store

set_option autoImplicit false

namespace Evidence.Context

/-! ## Workspace -/

/-- What a directory of `crates/` holds as its `Cargo.toml`. -/
inductive ManifestRead where
  | Absent
  | Unreadable
  | Unparsable
  | Package (name : String)
deriving DecidableEq

/-- A map from names, in the order of the names. -/
abbrev Table (α : Type) := Store (Prod.fst : String × α → String)

/-- The entry of a name. -/
def Table.lookup {α : Type} (t : Table α) (name : String) : Option α := (t.get name).map Prod.snd

structure Workspace where
  /-- The path of the workspace root. -/
  root : String
  /-- The names on the root's canonical path. -/
  canonical_root : List String
  /-- The names on the canonical path of the regular file that a path leads to. -/
  file_at : String → Option (List String)
  /-- The directories of `crates/`, in the order of the walk. -/
  crate_dirs : List (String × ManifestRead)
  /-- `per_crate_measurements`: what the crates measure, by dimension. -/
  per_crate_measurements : Table (Table UInt64)

/-- `workspace_root.join(path)`. -/
def Workspace.join (ws : Workspace) (path : String) : String :=
  String.ofList (Paths.join ws.root.toList path.toList)

/-- One workspace crate as found under `crates/`. -/
structure WorkspaceCrate where
  name : String
  dir : String
deriving DecidableEq

/-- The discovered crates, by name. -/
abbrev Crates := Store WorkspaceCrate.name

inductive ContextError where
  | SelectorOutOfScope (input : String)
  | CargoManifestRead (path : String)
  | CargoManifestParse (path : String)
deriving DecidableEq

/-- The crate directory as a workspace-relative path. -/
def crate_dir (entry : String) : String :=
  String.ofList (Bundle.replace_backslash ("crates/" ++ entry).toList)

/-- One directory of the walk over `crates/`. -/
def discover_entry (ws : Workspace) (crates : Crates) (entry : String × ManifestRead) :
    Except ContextError Crates :=
  let manifest_path := ws.join ("crates/" ++ entry.1 ++ "/Cargo.toml")
  match entry.2 with
  -- a directory without a manifest is no crate
  | .Absent => .ok crates
  | .Unreadable => .error (.CargoManifestRead manifest_path)
  | .Unparsable => .error (.CargoManifestParse manifest_path)
  -- of two crates with one name the later directory stays
  | .Package name => .ok (crates.put ⟨name, crate_dir entry.1⟩)

def discover_workspace_crates (ws : Workspace) : Except ContextError Crates :=
  ws.crate_dirs.foldlM (discover_entry ws) Store.empty

/-! ## Selectors -/

/-- What the resolver decided the caller meant. -/
inductive ResolvedSelector where
  | Workspace
  | File (raw path crate_name : String) (ambiguities : List String)
  | Crate (raw crate_name : String) (ambiguities : List String)
  | Module (raw path : String) (ambiguities : List String)
deriving DecidableEq

namespace ResolvedSelector

def kind : ResolvedSelector → String
  | Workspace => "workspace"
  | File .. => "file"
  | Crate .. => "crate"
  | Module .. => "module"

/-- The other kinds that the input matched. -/
def ambiguities : ResolvedSelector → List String
  | Workspace => []
  | File _ _ _ ambiguities => ambiguities
  | Crate _ _ ambiguities => ambiguities
  | Module _ _ ambiguities => ambiguities

end ResolvedSelector

/-- `text.replace(from, to)` of one character. -/
def replace_char (source target : Char) (text : String) : String :=
  String.ofList (text.toList.map fun c => if c = source then target else c)

/-- `text.split("::")`. -/
def split_path : List Char → List (List Char)
  | ':' :: ':' :: rest => [] :: split_path rest
  | c :: rest =>
    match split_path rest with
    | segment :: segments => (c :: segment) :: segments
    | [] => [[c]]
  | [] => [[]]

/-- `text.contains("::")`. -/
def contains_colons (text : List Char) : Bool := text.tails.any "::".toList.isPrefixOf

def is_valid_rust_ident (s : List Char) : Bool :=
  match s with
  | [] => false
  | c :: rest => (c.isAlpha || c == '_') && rest.all fun c => c.isAlphanum || c == '_'

/-- The package of the crate whose directory a workspace-relative path begins with. -/
def crate_for_relative_path (rel : String) (crates : Crates) : Option String :=
  ( strip_prefix "crates/" rel).bind fun stripped =>
    let dir := String.ofList (stripped.toList.takeWhile fun c => c != '/')
    (crates.values.find? fun c => c.dir == "crates/" ++ dir).map WorkspaceCrate.name

/-- The names behind a directory's. -/
def strip_names (base path : List String) : Option (List String) :=
  if base.isPrefixOf path then some (path.drop base.length) else none

def match_file (ws : Workspace) (input : String) (crates : Crates) : Option (String × String) :=
  (ws.file_at (ws.join input)).bind fun canon_abs =>
    -- a link that leads out of the workspace matches nothing
    (strip_names ws.canonical_root canon_abs).bind fun rel =>
      let rel_str := String.ofList (Bundle.replace_backslash
        (['/'].intercalate (rel.map String.toList)))
      (crate_for_relative_path rel_str crates).map fun crate_name => (rel_str, crate_name)

def match_crate (input : String) (crates : Crates) : Option String :=
  if (crates.get input).isSome then some input else none

/-- A module path: identifiers with `::` between them, and at least one of these. -/
def match_module (input : String) : Option String :=
  let text := input.toList
  if text.isEmpty then none
  else if text.contains '/' || text.contains '\\' || text.contains '.' then none
  else
    -- hyphens are written as underscores before the identifiers are looked at
    let normalized := replace_char '-' '_' input
    if !contains_colons normalized.toList then none
    else if (split_path normalized.toList).all is_valid_rust_ident then some normalized
    else none

def resolve_among (ws : Workspace) (input trimmed : String) (crates : Crates) :
    Except ContextError ResolvedSelector :=
  let crate_match := match_crate trimmed crates
  let module_match := match_module trimmed
  let module_label := if module_match.isSome then ["module"] else []
  -- a file wins over a crate of the name, and a crate over a module path
  match match_file ws trimmed crates with
  | some (rel_path, crate_name) =>
    .ok (.File input rel_path crate_name
      ((if crate_match.isSome then ["crate"] else []) ++ module_label))
  | none =>
    match crate_match with
    | some crate_name => .ok (.Crate input crate_name module_label)
    | none =>
      match module_match with
      | some path => .ok (.Module input path [])
      | none => .error (.SelectorOutOfScope input)

/-- Classify an input, or the lack of one. -/
def resolve_selector (ws : Workspace) (raw : Option String) :
    Except ContextError ResolvedSelector :=
  match raw with
  | none => .ok .Workspace
  | some input =>
    let trimmed := String.ofList (trim_chars input.toList)
    if trimmed.toList.isEmpty then .ok .Workspace
    else (discover_workspace_crates ws).bind (resolve_among ws input trimmed)

end Evidence.Context
