import Mathlib.Data.List.Infix
import Yunpan.Core.IndexMap

/-!
# Trees of directories, files and links

A location is the list of names that leads to it from the root of the tree.  A path
need not be a location: on its way it can meet links, which are followed from the
directory that they stand in or from the root.  What a path comes to is a location
without links on its way.
-/

namespace Yunpan

variable {Name : Type}

/-- A part of a link's target. -/
inductive Move (Name : Type) where
  | up
  | down (name : Name)
  deriving DecidableEq

/-- A file is the number of the inode that holds its content. -/
inductive FileTree (Name : Type) where
  | file (inode : ℕ)
  | link (absolute : Bool) (target : List (Move Name))
  | dir (entries : List (Name × FileTree Name))

/-- What stands at a location, without what lies below it. -/
inductive Inode (Name : Type) where
  | file (inode : ℕ)
  | link (absolute : Bool) (target : List (Move Name))
  | dir
  deriving DecidableEq

abbrev Location (Name : Type) := List Name

abbrev Path (Name : Type) := List (Move Name)

/-- The path without detours. -/
def Location.path (location : Location Name) : Path Name := location.map .down

theorem Location.path_append (left right : Location Name) :
    Location.path (left ++ right) = Location.path left ++ Location.path right :=
  List.map_append

namespace FileTree

def node : FileTree Name → Inode Name
  | file inode => .file inode
  | link absolute target => .link absolute target
  | dir _ => .dir

def entries : FileTree Name → List (Name × FileTree Name)
  | dir entries => entries
  | _ => []

variable [DecidableEq Name]

/-- The subtree at a location. -/
def sub : FileTree Name → Location Name → Option (FileTree Name)
  | tree, [] => some tree
  | tree, name :: names =>
      (IndexMap.get tree.entries name).bind fun child => child.sub names

def lookup (tree : FileTree Name) (location : Location Name) : Option (Inode Name) :=
  (tree.sub location).map node

/-- Put a subtree at a location whose parent is there, or take it away. -/
def set : FileTree Name → Location Name → Option (FileTree Name) → FileTree Name
  | tree, [], new => new.getD tree
  | dir entries, name :: names, new =>
      if names = [] then dir (IndexMap.assign entries name new)
      else
        match IndexMap.get entries name with
        | some child => dir (IndexMap.insert entries name (child.set names new))
        | none => dir entries
  | file inode, _ :: _, _ => file inode
  | link absolute target, _ :: _, _ => link absolute target

/-- The names in a directory. -/
def names (tree : FileTree Name) (location : Location Name) : List Name :=
  ((tree.sub location).map fun found => found.entries.map Prod.fst).getD []

/-! ## Locations -/

@[simp]
theorem sub_nil (tree : FileTree Name) : tree.sub [] = some tree := by
  cases tree <;> rfl

theorem sub_cons (tree : FileTree Name) (name : Name) (names : Location Name) :
    tree.sub (name :: names) =
      (IndexMap.get tree.entries name).bind fun child => child.sub names := by
  cases tree <;> rfl

theorem sub_append (tree : FileTree Name) (left right : Location Name) :
    tree.sub (left ++ right) = (tree.sub left).bind fun found => found.sub right := by
  induction left generalizing tree with
  | nil => simp
  | cons name left ih =>
      rw [List.cons_append, sub_cons, sub_cons]
      cases IndexMap.get tree.entries name with
      | none => rfl
      | some child => exact ih child

theorem lookup_append_of_sub {tree found : FileTree Name} {left : Location Name}
    (h : tree.sub left = some found) (right : Location Name) :
    tree.lookup (left ++ right) = found.lookup right := by
  rw [lookup, sub_append, h]
  rfl

/-- A file, a link or an empty directory is all that there is at its place. -/
theorem eq_of_lookup_leaf {leaf : FileTree Name} (hleaf : leaf.entries = [])
    {below : Location Name} {found : Inode Name} (h : leaf.lookup below = some found) :
    found = leaf.node := by
  cases below with
  | nil => simpa [lookup] using h.symm
  | cons name below => simp [lookup, sub_cons, hleaf, IndexMap.get] at h

/-- Only a directory has something below it. -/
theorem lookup_above {tree : FileTree Name} {left right : Location Name}
    {found : Inode Name} (h : tree.lookup (left ++ right) = some found)
    (hright : right ≠ []) : tree.lookup left = some .dir := by
  rw [lookup, sub_append] at h
  rw [lookup]
  cases hsub : tree.sub left with
  | none => simp [hsub] at h
  | some child =>
      cases child with
      | dir entries => rfl
      | file inode =>
          cases right with
          | nil => exact absurd rfl hright
          | cons name right => simp [hsub, sub, entries, IndexMap.get] at h
      | link absolute target =>
          cases right with
          | nil => exact absurd rfl hright
          | cons name right => simp [hsub, sub, entries, IndexMap.get] at h

theorem lookup_append_eq_none {tree : FileTree Name} {left right : Location Name}
    (h : tree.lookup left ≠ some .dir) (hright : right ≠ []) :
    tree.lookup (left ++ right) = none := by
  cases hfound : tree.lookup (left ++ right) with
  | none => rfl
  | some found => exact absurd (lookup_above hfound hright) h

/-! ## Changes at one location -/

/-- A change leaves what it does not lie above, and nothing but what was put in is
new. -/
theorem lookup_set_cases (tree : FileTree Name) (location other : Location Name)
    (new : Option (FileTree Name)) :
    (tree.set location new).lookup other = tree.lookup other ∨
      ∃ below, other = location ++ below ∧
        (tree.set location new).lookup other = new.bind fun tree => tree.lookup below := by
  induction location generalizing tree other with
  | nil =>
      cases new with
      | none => exact Or.inl rfl
      | some new => exact Or.inr ⟨other, rfl, rfl⟩
  | cons name names ih =>
      cases tree with
      | file inode => exact Or.inl rfl
      | link absolute target => exact Or.inl rfl
      | dir entries =>
          rw [set]
          cases other with
          | nil =>
              left
              split
              · rfl
              · split <;> rfl
          | cons name' other =>
              split
              case isTrue hnil =>
                simp only [lookup, sub_cons, FileTree.entries, IndexMap.get_assign]
                by_cases hname : name' = name
                · refine Or.inr ⟨other, by simp [hname, hnil], ?_⟩
                  rw [if_pos hname]
                  cases new <;> rfl
                · rw [if_neg hname]
                  exact Or.inl rfl
              case isFalse =>
                cases hget : IndexMap.get entries name with
                | none => exact Or.inl rfl
                | some child =>
                    simp only [lookup, sub_cons, FileTree.entries, IndexMap.get_insert]
                    by_cases hname : name' = name
                    · rw [if_pos hname, hname, hget]
                      obtain hkept | ⟨below, rfl, hnew⟩ := ih child other
                      · exact Or.inl hkept
                      · exact Or.inr ⟨below, rfl, hnew⟩
                    · rw [if_neg hname]
                      exact Or.inl rfl

theorem lookup_set_of_apart {tree : FileTree Name} {location other : Location Name}
    (h : ¬location <+: other) (new : Option (FileTree Name)) :
    (tree.set location new).lookup other = tree.lookup other := by
  obtain hkept | ⟨below, rfl, -⟩ := lookup_set_cases tree location other new
  · exact hkept
  · exact absurd (List.prefix_append location below) h

/-- What was put at a location is there afterwards. -/
theorem sub_set {tree : FileTree Name} {parent : Location Name} {name : Name}
    (h : tree.lookup parent = some .dir) (new : Option (FileTree Name)) :
    (tree.set (parent ++ [name]) new).sub (parent ++ [name]) = new := by
  induction parent generalizing tree with
  | nil =>
      cases tree with
      | file inode => cases h
      | link absolute target => cases h
      | dir entries =>
          simp [set, sub_cons, FileTree.entries, IndexMap.get_assign]
  | cons first parent ih =>
      rw [lookup, sub_cons] at h
      cases tree with
      | file inode => cases h
      | link absolute target => cases h
      | dir entries =>
          rw [FileTree.entries] at h
          cases hget : IndexMap.get entries first with
          | none => simp [hget] at h
          | some child =>
              rw [hget] at h
              rw [List.cons_append, set, if_neg (by simp), hget]
              simp only [sub_cons, FileTree.entries, IndexMap.get_insert, if_pos,
                Option.bind_some]
              exact ih h

/-! ## Following a path -/

section Walk

variable (tree : FileTree Name)

/-- Follow a path from a directory; `follow` goes on behind a link, and `create`
allows the last name to be missing. -/
def walkWith (create : Bool)
    (follow : Location Name → List (Move Name) → Option (Location Name)) :
    Location Name → List (Move Name) → Option (Location Name)
  | cur, [] => some cur
  | cur, .up :: rest => walkWith create follow cur.dropLast rest
  | cur, .down name :: rest =>
      match tree.lookup (cur ++ [name]) with
      | none => if create ∧ rest = [] then some (cur ++ [name]) else none
      | some (.file _) => if rest = [] then some (cur ++ [name]) else none
      | some .dir => walkWith create follow (cur ++ [name]) rest
      | some (.link absolute target) =>
          follow (if absolute then [] else cur) (target ++ rest)

/-- Follow a path with at most so many links on the way. -/
def walk (create : Bool) :
    ℕ → Location Name → List (Move Name) → Option (Location Name)
  | 0 => walkWith tree create fun _ _ => none
  | links + 1 => walkWith tree create (walk create links)

/-- As many links as the kernel follows for one path. -/
def maxLinks : ℕ := 40

/-- What a path comes to. -/
def resolve (path : Path Name) : Option (Location Name) :=
  walk tree false maxLinks [] path

/-- Where a file of this path is, or would be created. -/
def resolveNew (path : Path Name) : Option (Location Name) :=
  walk tree true maxLinks [] path

/-- Where the name at the end of a path stands. -/
def entry (path : Path Name) : Option (Location Name) :=
  match path.getLast? with
  | some (.down name) =>
      match tree.resolve path.dropLast with
      | none => none
      | some parent =>
          if tree.lookup parent = some .dir then some (parent ++ [name]) else none
  | _ => none

/-- What a path comes to when a link at its end is not followed. -/
def place (path : Path Name) : Option (Location Name) :=
  match path.getLast? with
  | some (.down _) => tree.entry path
  | _ => tree.resolve path

end Walk

/-! ## Where a path can lead -/

section

variable {tree : FileTree Name} {create : Bool}
  {follow : Location Name → List (Move Name) → Option (Location Name)}

theorem walk_eq (tree : FileTree Name) (create : Bool) (links : ℕ) :
    ∃ follow, walk tree create links = walkWith tree create follow := by
  cases links with
  | zero => exact ⟨_, rfl⟩
  | succ links => exact ⟨_, rfl⟩

/-- No link stands on the way. -/
def Plain (tree : FileTree Name) (path : Location Name) : Prop :=
  ∀ location, location <+: path →
    ∀ absolute target, tree.lookup location ≠ some (.link absolute target)

theorem Plain.of_above {path path' : Location Name} (h : tree.Plain path)
    (hbegins : path' <+: path) : tree.Plain path' :=
  fun location hlocation => h location (hlocation.trans hbegins)

/-- Without links a path is the location that it names. -/
theorem walkWith_plain {cur : Location Name} (hcur : tree.lookup cur = some .dir)
    {names : Location Name} (hplain : tree.Plain (cur ++ names)) :
    walkWith tree create follow cur (names.map .down) =
      if (tree.lookup (cur ++ names)).isSome = true ∨
          create = true ∧ tree.lookup (cur ++ names.dropLast) = some .dir then
        some (cur ++ names)
      else none := by
  induction names generalizing cur with
  | nil => simp [walkWith, hcur]
  | cons name names ih =>
      have hassoc (more : Location Name) :
          cur ++ name :: more = cur ++ [name] ++ more := by simp
      have hnolink : ∀ absolute target,
          tree.lookup (cur ++ [name]) ≠ some (.link absolute target) := by
        apply hplain
        rw [hassoc names]
        exact List.prefix_append _ _
      rw [List.map_cons, walkWith]
      by_cases hnil : names = []
      · subst hnil
        cases hname : tree.lookup (cur ++ [name]) with
        | none => simp [hcur]
        | some found =>
            cases found with
            | file inode => simp
            | dir => simp [walkWith]
            | link absolute target => exact absurd hname (hnolink absolute target)
      · have hrest : names.map Move.down ≠ [] := by simpa using hnil
        rw [List.dropLast_cons_of_ne_nil hnil, hassoc names, hassoc names.dropLast]
        by_cases hdir : tree.lookup (cur ++ [name]) = some .dir
        · rw [hdir]
          exact ih hdir (hassoc names ▸ hplain)
        · have hbelow : tree.lookup (cur ++ [name] ++ names.dropLast) ≠ some .dir := by
            by_cases hdrop : names.dropLast = []
            · rw [hdrop, List.append_nil]
              exact hdir
            · rw [lookup_append_eq_none hdir hdrop]
              simp
          have hno : ¬((tree.lookup (cur ++ [name] ++ names)).isSome = true ∨
              create = true ∧
                tree.lookup (cur ++ [name] ++ names.dropLast) = some .dir) := by
            rw [lookup_append_eq_none hdir hnil]
            exact not_or.mpr ⟨by simp, fun h => hbelow h.2⟩
          rw [if_neg hno]
          cases hname : tree.lookup (cur ++ [name]) with
          | none => exact if_neg fun h => hrest h.2
          | some found =>
              cases found with
              | file inode => exact if_neg hrest
              | dir => exact absurd hname hdir
              | link absolute target => exact absurd hname (hnolink absolute target)

section Plain

variable {location : Location Name} (hroot : tree.lookup [] = some .dir)
  (hplain : tree.Plain location)

include hroot hplain

theorem resolve_plain :
    tree.resolve location.path =
      if (tree.lookup location).isSome = true then some location else none := by
  obtain ⟨follow, hwalk⟩ := walk_eq tree false maxLinks
  rw [resolve, Location.path, hwalk, walkWith_plain hroot (by simpa using hplain)]
  simp

theorem resolveNew_plain :
    tree.resolveNew location.path =
      if (tree.lookup location).isSome = true ∨
          tree.lookup location.dropLast = some .dir then
        some location
      else none := by
  obtain ⟨follow, hwalk⟩ := walk_eq tree true maxLinks
  rw [resolveNew, Location.path, hwalk, walkWith_plain hroot (by simpa using hplain)]
  simp

end Plain

theorem entry_plain {location : Location Name} (hroot : tree.lookup [] = some .dir)
    (hplain : tree.Plain location.dropLast) (hne : location ≠ []) :
    tree.entry location.path =
      if tree.lookup location.dropLast = some .dir then some location else none := by
  obtain ⟨init, last, rfl⟩ := (List.eq_nil_or_concat' location).resolve_left hne
  rw [List.dropLast_concat] at hplain ⊢
  have hpath : Location.path (init ++ [last]) = Location.path init ++ [.down last] :=
    Location.path_append init [last]
  rw [hpath, entry, List.getLast?_concat, List.dropLast_concat]
  simp only
  rw [resolve_plain hroot hplain]
  cases hfound : tree.lookup init with
  | none => simp
  | some found => simp [hfound]

/-- There is no link at the location or below it. -/
def LinkFree (tree : FileTree Name) (location : Location Name) : Prop :=
  ∀ below absolute target, tree.lookup (location ++ below) ≠ some (.link absolute target)

theorem lookup_root {cur : Location Name} (h : tree.lookup cur = some .dir) :
    tree.lookup [] = some .dir := by
  by_cases hcur : cur = []
  · rw [← hcur, h]
  · rw [← List.nil_append cur] at h
    exact lookup_above h hcur

end

end FileTree

end Yunpan
