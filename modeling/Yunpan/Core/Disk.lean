import Mathlib.Logic.Function.Basic
import Yunpan.Core.FileTree

/-!
# A disk and the operations on it

A disk is a tree of names, the content of every inode, and the files that are open.
An operation is answered or refused, as the calls of the operating system are.
Permissions, full disks and times are no part of a disk; what they do is that an
operation is refused which the disk alone would have allowed.
-/

namespace Yunpan

variable {Name : Type}

/-- A file that is open for writing; without a position it is written at its end. -/
structure Descriptor where
  inode : ℕ
  position : Option ℕ

/-- `admits` tells the names that something can be given, and `fresh` is the number
of the next new inode. -/
structure Disk (Name : Type) where
  admits : Name → Bool
  tree : FileTree Name
  content : ℕ → List UInt8
  fresh : ℕ
  descriptors : List Descriptor

structure Metadata where
  isDir : Bool
  isFile : Bool
  isSymlink : Bool
  len : ℕ
  deriving DecidableEq

inductive FileOp (Name : Type) where
  | metadata (path : Path Name)
  | symlinkMetadata (path : Path Name)
  | canonicalize (path : Path Name)
  | readDir (path : Path Name)
  | read (path : Path Name)
  | createDirAll (path : Path Name)
  | create (path : Path Name)
  | openAppend (path : Path Name)
  | openWrite (path : Path Name) (offset : ℕ)
  | write (descriptor : ℕ) (bytes : List UInt8)
  | removeFile (path : Path Name)
  | removeDirAll (path : Path Name)
  | rename (source target : Path Name)
  | copy (source target : Path Name)

abbrev FileOp.Answer : FileOp Name → Type
  | metadata _ => Metadata
  | symlinkMetadata _ => Metadata
  | canonicalize _ => Location Name
  | readDir _ => List Name
  | read _ => List UInt8
  | create _ => ℕ
  | openAppend _ => ℕ
  | openWrite _ _ => ℕ
  | createDirAll _ => Unit
  | write _ _ => Unit
  | removeFile _ => Unit
  | removeDirAll _ => Unit
  | rename _ _ => Unit
  | copy _ _ => Unit

/-- An operation that only looks, and opens nothing else than what is readable. -/
def FileOp.ReadsFrom (readable : Path Name → Prop) : FileOp Name → Prop
  | metadata _ => True
  | symlinkMetadata _ => True
  | canonicalize _ => True
  | readDir _ => True
  | read path => readable path
  | _ => False

/-- An operation that looks at the disk and leaves it as it is. -/
def FileOp.Reads (op : FileOp Name) : Prop := op.ReadsFrom fun _ => True

theorem FileOp.ReadsFrom.reads {readable : Path Name → Prop} {op : FileOp Name}
    (h : op.ReadsFrom readable) : op.Reads := by
  cases op <;> trivial

/-- An operation that takes the content of no other file than of what is readable. -/
def FileOp.Opens (readable : Path Name → Prop) : FileOp Name → Prop
  | read path => readable path
  | copy source _ => readable source
  | _ => True

theorem FileOp.Opens.mono {readable readable' : Path Name → Prop} {op : FileOp Name}
    (h : op.Opens readable) (himp : ∀ path, readable path → readable' path) :
    op.Opens readable' := by
  cases op with
  | read path => exact himp path h
  | copy source target => exact himp source h
  | _ => trivial

theorem FileOp.ReadsFrom.opens {readable : Path Name → Prop} {op : FileOp Name}
    (h : op.ReadsFrom readable) : op.Opens readable := by
  cases op <;> trivial

/-- The names that a directory is answered to have. -/
def FileOp.Lists (P : Name → Prop) : (op : FileOp Name) → op.Answer → Prop
  | readDir _, names => ∀ name ∈ names, P name
  | _, _ => True

/-- Overwrite from a position on; a gap is filled with zeros. -/
def writeAt (content : List UInt8) (position : ℕ) (bytes : List UInt8) : List UInt8 :=
  if bytes = [] then content
  else
    content.take position ++ List.replicate (position - content.length) 0 ++ bytes ++
      content.drop (position + bytes.length)

namespace Disk

/-- What a file system shows as the size of a directory. -/
def dirLen : ℕ := 4096

variable [DecidableEq Name] (disk : Disk Name)

def metadataOf : Inode Name → Metadata
  | .file inode =>
      { isDir := false, isFile := true, isSymlink := false,
        len := (disk.content inode).length }
  | .link _ target =>
      { isDir := false, isFile := false, isSymlink := true, len := target.length }
  | .dir => { isDir := true, isFile := false, isSymlink := false, len := dirLen }

/-- The inode of the file that a path leads to. -/
def inodeOf (path : Path Name) : Option ℕ :=
  match (disk.tree.resolve path).bind disk.tree.lookup with
  | some (.file inode) => some inode
  | _ => none

/-- The content of the file that a path leads to. -/
def bytesOf (path : Path Name) : Option (List UInt8) :=
  (disk.inodeOf path).map disk.content

def setContent (inode : ℕ) (bytes : List UInt8) : Disk Name :=
  { disk with content := Function.update disk.content inode bytes }

def setTree (tree : FileTree Name) : Disk Name := { disk with tree }

def opened (inode : ℕ) (position : Option ℕ) : Disk Name × Option ℕ :=
  ({ disk with descriptors := disk.descriptors ++ [⟨inode, position⟩] },
    some disk.descriptors.length)

/-- The name at the end of a location can be given. -/
def canName (location : Location Name) : Bool := location.getLast?.all disk.admits

/-- Open a file for writing from its beginning on: it is emptied, or created. -/
def truncate (path : Path Name) : Option (Disk Name × ℕ) :=
  match disk.tree.resolveNew path with
  | none => none
  | some location =>
      match disk.tree.lookup location with
      | some (.file inode) => some (disk.setContent inode [], inode)
      | some _ => none
      | none =>
          if disk.canName location then
            some ({ disk with
              tree := disk.tree.set location (some (.file disk.fresh))
              content := Function.update disk.content disk.fresh []
              fresh := disk.fresh + 1 }, disk.fresh)
          else none

/-- Make a directory, if there is none. -/
def makeDir (path : Path Name) : Option (Disk Name) :=
  match disk.tree.resolve path with
  | some location => if disk.tree.lookup location = some .dir then some disk else none
  | none =>
      match disk.tree.entry path with
      | some location =>
          if disk.tree.lookup location = none ∧ disk.canName location then
            some (disk.setTree (disk.tree.set location (some (.dir []))))
          else none
      | none => none

/-- Make the directories of a path one after the other. -/
def makeDirs (disk : Disk Name) (made : Path Name) : Path Name → Disk Name × Option Unit
  | [] => (disk, some ())
  | move :: rest =>
      match disk.makeDir (made ++ [move]) with
      | some disk => makeDirs disk (made ++ [move]) rest
      | none => (disk, none)

/-- What may be moved over what. -/
def canReplace (source : Inode Name) (target : Option (Inode Name)) (names : List Name) :
    Bool :=
  match source, target with
  | .dir, some .dir => names = []
  | .dir, some _ => false
  | _, some .dir => false
  | _, _ => true

def isSameFile : Inode Name → Option (Inode Name) → Bool
  | .file inode, some (.file inode') => inode = inode'
  | _, _ => false

/-- `rename`: a link is moved as such. -/
def moved (source target : Path Name) : Option (FileTree Name) :=
  match disk.tree.entry source, disk.tree.entry target with
  | some source, some target =>
      match disk.tree.sub source with
      | none => none
      | some subtree =>
          let found := disk.tree.lookup target
          if source = target ∨ isSameFile subtree.node found then some disk.tree
          else if source <+: target ∨ target <+: source then none
          else if canReplace subtree.node found (disk.tree.names target) ∧
              disk.canName target then
            some ((disk.tree.set source none).set target (some subtree))
          else none
  | _, _ => none

/-- Take away what stands at the end of a path, if it is of the right kind. -/
def removed (path : Path Name) (removable : Inode Name → Bool) :
    Option (FileTree Name) :=
  match disk.tree.entry path with
  | none => none
  | some location =>
      if (disk.tree.lookup location).any removable then
        some (disk.tree.set location none)
      else none

/-- Empty a directory that cannot be taken away, because its path does not end with
a name. -/
def emptied (path : Path Name) : Disk Name :=
  match disk.tree.resolve path with
  | some location =>
      if disk.tree.lookup location = some .dir then
        disk.setTree (disk.tree.set location (some (.dir [])))
      else disk
  | none => disk

/-- Replace the tree, if there is a new one. -/
def changed : Option (FileTree Name) → Disk Name × Option Unit
  | some tree => (disk.setTree tree, some ())
  | none => (disk, none)

/-- `remove_dir_all`: a link is taken away as such. -/
def removeTree (path : Path Name) : Disk Name × Option Unit :=
  match path.getLast? with
  | some (.down _) =>
      disk.changed (disk.removed path fun node =>
        match node with
        | .file _ => false
        | _ => true)
  | _ => (disk.emptied path, none)

def openFile (path : Path Name) (position : Option ℕ) : Disk Name × Option ℕ :=
  match disk.inodeOf path with
  | some inode => disk.opened inode position
  | none => (disk, none)

/-- What an operation does and answers. -/
def act : (op : FileOp Name) → Disk Name × Option op.Answer
  | .metadata path =>
      (disk, ((disk.tree.resolve path).bind disk.tree.lookup).map disk.metadataOf)
  | .symlinkMetadata path =>
      (disk, ((disk.tree.place path).bind disk.tree.lookup).map disk.metadataOf)
  | .canonicalize path => (disk, disk.tree.resolve path)
  | .readDir path =>
      (disk, (disk.tree.resolve path).bind fun location =>
        if disk.tree.lookup location = some .dir then some (disk.tree.names location)
        else none)
  | .read path => (disk, disk.bytesOf path)
  | .createDirAll path => disk.makeDirs [] path
  | .create path =>
      match disk.truncate path with
      | some (disk, inode) => disk.opened inode (some 0)
      | none => (disk, none)
  | .openAppend path => disk.openFile path none
  | .openWrite path offset => disk.openFile path (some offset)
  | .write descriptor bytes =>
      match disk.descriptors[descriptor]? with
      | some ⟨inode, some position⟩ =>
          ({ disk.setContent inode (writeAt (disk.content inode) position bytes) with
            descriptors := disk.descriptors.set descriptor
              ⟨inode, some (position + bytes.length)⟩ }, some ())
      | some ⟨inode, none⟩ =>
          (disk.setContent inode (disk.content inode ++ bytes), some ())
      | none => (disk, none)
  | .removeFile path =>
      disk.changed (disk.removed path fun node => node ≠ .dir)
  | .removeDirAll path => disk.removeTree path
  | .rename source target => disk.changed (disk.moved source target)
  | .copy source target =>
      match disk.inodeOf source with
      | none => (disk, none)
      | some inode =>
          match disk.truncate target with
          | none => (disk, none)
          | some (disk, inode') =>
              (disk.setContent inode' (disk.content inode), some ())

theorem act_of_reads (disk : Disk Name) (op : FileOp Name) (h : op.Reads) :
    (disk.act op).1 = disk := by
  cases op with
  | metadata path => rfl
  | symlinkMetadata path => rfl
  | canonicalize path => rfl
  | readDir path => rfl
  | read path => rfl
  | _ => exact h.elim

end Disk

end Yunpan
