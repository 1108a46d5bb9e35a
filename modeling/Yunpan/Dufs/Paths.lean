import Yunpan.Core.Text
import Yunpan.Core.IndexMap

/-!
# The paths that a rule opens

A rule gives every directory it names a permission.  A directory without one of
its own takes that of the nearest directory above it, and a user keeps the higher
of its own permission and the anonymous one.
-/

namespace Yunpan.Dufs

open Yunpan.Separator

inductive AccessPerm where
  | indexOnly
  | readOnly
  | readWrite
  deriving DecidableEq

namespace AccessPerm

def rank : AccessPerm → ℕ
  | indexOnly => 0
  | readOnly => 1
  | readWrite => 2

def max (left right : AccessPerm) : AccessPerm :=
  if left.rank < right.rank then right else left

/-- A permission of its own, or the inherited one. -/
def orElse (perm inherited : AccessPerm) : AccessPerm :=
  if perm = indexOnly then inherited else perm

end AccessPerm

inductive AccessPaths where
  | node (perm : AccessPerm) (children : List (Text × AccessPaths))

namespace AccessPaths

def new (perm : AccessPerm) : AccessPaths := node perm []

def default : AccessPaths := new .indexOnly

def perm : AccessPaths → AccessPerm
  | node perm _ => perm

def children : AccessPaths → List (Text × AccessPaths)
  | node _ children => children

def setPerm (self : AccessPaths) (perm : AccessPerm) : AccessPaths :=
  if perm = .indexOnly then self else node perm self.children

def addImpl : List Text → AccessPerm → AccessPaths → AccessPaths
  | [], perm, self => node perm self.children
  | part :: parts, perm, self =>
      node self.perm (IndexMap.modify self.children part default (addImpl parts perm))

def add (self : AccessPaths) (path : Text) (perm : AccessPerm) : AccessPaths :=
  let path := Text.trimMatches (· = '/') path
  if path = [] then self.setPerm perm else addImpl (path.splitOn '/') perm self

/-- One item of the list behind an `@`. -/
def mergeItem (self : AccessPaths) (item : Text) : Option AccessPaths :=
  match splitOnce ':' item with
  | none => some (self.add item .readOnly)
  | some (path, ['r', 'o']) => some (self.add path .readOnly)
  | some (path, ['r', 'w']) => some (self.add path .readWrite)
  | some _ => none

def merge (self : AccessPaths) (paths : Text) : Option AccessPaths :=
  ((Text.trimMatches (· = ',') paths).splitOn ',').foldlM mergeItem self

mutual

/-- `absorb_anon`: the user's own permission is read off the paths as they were
before the first merge. -/
def absorbAnon (self anon origUser : AccessPaths)
    (userInherited anonInherited : AccessPerm) :
    AccessPaths :=
  match anon with
  | node anonPerm anonChildren =>
      let anonEff := anonPerm.orElse anonInherited
      let origUserEff := origUser.perm.orElse userInherited
      let combined := anonEff.max origUserEff
      let perm :=
        if combined ≠ .indexOnly ∧ self.perm.rank < combined.rank then combined
        else self.perm
      node perm (absorbChildren self.children anonChildren origUser origUserEff anonEff)

def absorbChildren (children : List (Text × AccessPaths))
    (anonChildren : List (Text × AccessPaths)) (origUser : AccessPaths)
    (origUserEff anonEff : AccessPerm) : List (Text × AccessPaths) :=
  match anonChildren with
  | [] => children
  | (name, anonChild) :: rest =>
      let origChild := (IndexMap.get origUser.children name).getD default
      let children := IndexMap.modify children name default fun child =>
        absorbAnon child anonChild origChild origUserEff anonEff
      absorbChildren children rest origUser origUserEff anonEff

end

def findImpl (self : AccessPaths) (perm : AccessPerm) : List Text → Option AccessPaths
  | [] =>
      let perm := self.perm.orElse perm
      if perm = .indexOnly then some self else some (new perm)
  | part :: parts =>
      let perm := self.perm.orElse perm
      match IndexMap.get self.children part with
      | some child => findImpl child perm parts
      | none => if perm = .indexOnly then none else some (new perm)

def find (self : AccessPaths) (path : Text) : Option AccessPaths :=
  findImpl self self.perm
    (((Text.trimMatches (· = '/') path).splitOn '/').filter fun part => part ≠ [])

end AccessPaths

/-- `is_readonly_method`. -/
def isReadonlyMethod (method : String) : Bool :=
  ["GET", "OPTIONS", "HEAD", "PROPFIND", "CHECKAUTH", "LOGOUT"].contains method

def AccessPaths.guard (self : AccessPaths) (path : Text) (method : String) :
    Option AccessPaths := do
  let target ← self.find path
  if !isReadonlyMethod method ∧ target.perm ≠ .readWrite then none else some target

/-! ## Paths with one permission for everything -/

theorem AccessPaths.find_new {perm : AccessPerm} (h : perm ≠ .indexOnly) (path : Text) :
    (AccessPaths.new perm).find path = some (.new perm) := by
  have hperm : perm.orElse perm = perm := by simp [AccessPerm.orElse]
  unfold find
  generalize ((Text.trimMatches (· = '/') path).splitOn '/').filter _ = parts
  cases parts <;> simp [findImpl, new, AccessPaths.perm, children, IndexMap.get,
    hperm, h]

/-- Paths that are read-only everywhere guard every write. -/
theorem AccessPaths.guard_readOnly {method : String}
    (h : isReadonlyMethod method = false)
    (path : Text) : (AccessPaths.new .readOnly).guard path method = none := by
  rw [guard, find_new (by decide)]
  simp [h, new, AccessPaths.perm]

end Yunpan.Dufs
