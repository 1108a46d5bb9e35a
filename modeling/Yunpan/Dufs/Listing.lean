import Yunpan.Dufs.Server

/-!
# What a directory shows

Items of a directory, the walk below it that searches and archives share, and the
answers that are made of items.
-/

namespace Yunpan.Dufs

open Yunpan.Protocol Program

def maxSubpathsCount : ℕ := 1000

def isHidden (env : Environment) (hidden : List Text) (name : Text) (isDir : Bool) :
    Bool :=
  hidden.any fun pattern =>
    if isDir ∧ pattern.getLast? = some '/' then env.glob pattern.dropLast name
    else env.glob pattern name

namespace Server

variable (env : Environment) (server : Server)

/-! ## The guard against links -/

def isRootContained (path : Path Text) : Action Bool := do
  match ← Fs.canonicalize path with
  | some location => return server.root.isPrefixOf location
  | none => return false

/-- A path that is missing is judged by its parent. -/
def guardRootContained (path : Path Text) : Action Bool := do
  if server.allowSymlink then return false
  match ← Fs.metadata path, parent path with
  | some _, _ => return !(← server.isRootContained path)
  | none, some parent => return !(← server.isRootContained parent)
  | none, none => return true

/-! ## Items -/

/-- The names that are not hidden, as far as they are counted. -/
def countEntries (path : Path Text) : ℕ → List Text → Action ℕ
  | count, [] => return count
  | count, name :: names => do
      let found ← Fs.symlinkMetadata (path ++ [.down name])
      if isHidden env server.hidden name (found.any Metadata.isDir) then
        countEntries path count names
      else if maxSubpathsCount ≤ count + 1 then return count + 1
      else countEntries path (count + 1) names

def itemSize (path : Path Text) (found : Metadata) : Action (Option ℕ) := do
  if found.isDir then
    match ← Fs.readDir path with
    | some names => return some (← server.countEntries env path 0 names)
    | none => return none
  else return some found.len

def pathTypeOf (isSymlink isDir : Bool) : PathType :=
  match isSymlink, isDir with
  | true, true => .symlinkDir
  | false, true => .dir
  | true, false => .symlinkFile
  | false, false => .file

/-- `to_pathitem`: `none` is an error, and `some none` a link that leads outside. -/
def toPathitem (path base : Path Text) : Action (Option (Option PathItem)) := do
  match ← Fs.metadata path, ← Fs.symlinkMetadata path with
  | some found, some link =>
      let contained ← (if server.allowSymlink ∨ link.isSymlink = false then pure true
        else server.isRootContained path)
      if contained = false then return some none
      match ← server.itemSize env path found, stripPrefix base path with
      | some size, some name =>
          return some (some
            { pathType := pathTypeOf link.isSymlink found.isDir
              name
              mtime := env.mtime path
              size })
      | _, _ => return none
  | _, _ => return none

def PathItem.isDir (item : PathItem) : Bool :=
  item.pathType = .dir ∨ item.pathType = .symlinkDir

/-- `add_pathitem` for one path after the other. -/
def addPathitems (base : Path Text) : List (Path Text) → Action (List PathItem)
  | [] => return []
  | path :: paths => do
      let item ← server.toPathitem env path base
      let rest ← addPathitems base paths
      match item with
      | some (some item) =>
          if isHidden env server.hidden (getFileName path) (PathItem.isDir item) then
            return rest
          else return item :: rest
      | _ => return rest

/-- `list_dir`: where only the way to other directories is open, they are all that is
shown. -/
def listDir (path base : Path Text) (access : AccessPaths) :
    Action (Option (List PathItem)) := do
  if access.perm = .indexOnly then
    return some (← server.addPathitems env base
      (access.children.map fun (name, _) => join path name))
  else
    match ← Fs.readDir path with
    | some names =>
        return some (← server.addPathitems env base
          (names.map fun name => path ++ [.down name]))
    | none => return none

end Server

/-! ## The walk -/

namespace AccessPaths

mutual

/-- `entry_paths`: the highest directories that are open. -/
def entryPathsImpl (base : Path Text) : List (Text × AccessPaths) → List (Path Text)
  | [] => []
  | (name, child) :: rest =>
      entryPathsOf (join base name) child ++ entryPathsImpl base rest

def entryPathsOf (base : Path Text) : AccessPaths → List (Path Text)
  | node perm children =>
      if perm = .indexOnly then entryPathsImpl base children else [base]

end

def entryPaths (self : AccessPaths) (base : Path Text) : List (Path Text) :=
  entryPathsOf base self

end AccessPaths

namespace Server

variable (env : Environment) (server : Server)

/-- Whether an entry is a directory and whether it is a file.  Links are followed,
unless they lead to a directory that the walk is in. -/
def entryType (ancestors : List (Location Text)) (path : Path Text) :
    Action (Option (Bool × Bool)) := do
  match ← Fs.symlinkMetadata path with
  | none => return none
  | some found =>
      if found.isSymlink then
        match ← Fs.metadata path, ← Fs.canonicalize path with
        | some found, some location =>
            if found.isDir ∧ location ∈ ancestors then return none
            else return some (found.isDir, found.isFile)
        | _, _ => return none
      else return some (found.isDir, found.isFile)

section Walk

variable (includeEntry : Path Text → Bool → Action Bool)
  (below : List (Location Text) → Path Text → List Text → Action (List (Path Text)))

/-- One entry and, by `below`, the entries of a directory. -/
def visit (ancestors : List (Location Text)) (path : Path Text) :
    Action (List (Path Text)) := do
  match ← entryType ancestors path with
  | none => return []
  | some (isDir, isFile) =>
      let names ← (if isDir then Fs.readDir path else pure none)
      let location ← Fs.canonicalize path
      if isHidden env server.hidden (getFileName path) isDir then return []
      let contained := server.allowSymlink || location.any server.root.isPrefixOf
      if contained = false then return []
      let own ← includeEntry path isFile
      let rest ← (match names with
        | some names => below (ancestors ++ location.toList) path names
        | none => pure [])
      return (if own then [path] else []) ++ rest

def visitAll (ancestors : List (Location Text)) (path : Path Text) :
    List Text → Action (List (Path Text))
  | [] => return []
  | name :: names => do
      let found ← server.visit env includeEntry below ancestors (path ++ [.down name])
      let rest ← visitAll ancestors path names
      return found ++ rest

/-- The walk below a directory, as deep as it is allowed to go. -/
def walk : ℕ → List (Location Text) → Path Text → List Text → Action (List (Path Text))
  | 0 => fun _ _ _ => return []
  | depth + 1 => server.visitAll env includeEntry (walk depth)

def walkFrom (depth : ℕ) (dir : Path Text) : Action (List (Path Text)) := do
  match ← Fs.canonicalize dir, ← Fs.readDir dir with
  | some location, some names => server.walk env includeEntry depth [location] dir names
  | _, _ => return []

def walkAll (depth : ℕ) : List (Path Text) → Action (List (Path Text))
  | [] => return []
  | dir :: dirs => do
      let found ← server.walkFrom env includeEntry depth dir
      let rest ← walkAll depth dirs
      return found ++ rest

/-- `collect_dir_entries`. -/
def collectDirEntries (depth : ℕ) (access : AccessPaths) (path : Path Text) :
    Action (List (Path Text)) :=
  server.walkAll env includeEntry depth (access.entryPaths path)

end Walk

/-- The search takes the names that contain a text. -/
def nameContains (search : Text) (path : Path Text) (_ : Bool) : Action Bool :=
  return decide (search <:+: env.lowercase (getFileName path))

/-- An archive takes the files. -/
def isPlainFile (path : Path Text) (isFile : Bool) : Action Bool := do
  match ← Fs.symlinkMetadata path with
  | some _ => return isFile
  | none => return false

/-- `zip_dir` after the walk: an error breaks the archive off. -/
def zipEntries (dir : Path Text) : List (Path Text) → Action (List (Text × List UInt8))
  | [] => return []
  | path :: paths => do
      match stripPrefix dir path with
      | none => zipEntries dir paths
      | some name =>
          match ← Fs.metadata path, ← Fs.read path with
          | some _, some content => return (name, content) :: (← zipEntries dir paths)
          | _, _ => return []

def zipDir (depth : ℕ) (access : AccessPaths) (dir : Path Text) :
    Action (List (Text × List UInt8)) := do
  let paths ← server.collectDirEntries env isPlainFile depth access dir
  zipEntries dir paths

end Server

end Yunpan.Dufs
