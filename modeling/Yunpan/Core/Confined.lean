import Yunpan.Core.Disk
import Yunpan.Core.Program

/-!
# Operations that keep off some locations

Below a shared directory there are no links, so that a path there is the location
that it names.  Some locations are guarded: with a location also the ones above it,
and everything outside of the shared directory.  Operations whose paths are not
guarded leave what is guarded as it was, however many programs perform them in turn.
-/

namespace Yunpan

variable {Name : Type} [DecidableEq Name]

namespace Disk

/-- The inode belongs to a file at a guarded location. -/
def Owned (disk : Disk Name) (guarded : Location Name → Prop) (inode : ℕ) : Prop :=
  ∃ location, guarded location ∧ disk.tree.lookup location = some (.file inode)

/-- A shared directory without links whose files and open files have no second name at
a guarded location. -/
structure Sealed (disk : Disk Name) (root : Location Name)
    (guarded : Location Name → Prop) : Prop where
  dir : disk.tree.lookup root = some .dir
  linkFree : disk.tree.LinkFree root
  above : ∀ left right, guarded (left ++ right) → guarded left
  reach : ∀ left right, guarded left → ¬guarded (left ++ right) →
    disk.tree.lookup left = some .dir
  outside : ∀ location, ¬root <+: location → guarded location
  inside : ∀ location inode, ¬guarded location →
    disk.tree.lookup location = some (.file inode) → ¬disk.Owned guarded inode
  opened : ∀ descriptor ∈ disk.descriptors, ¬disk.Owned guarded descriptor.inode
  fresh : ∀ inode, disk.Owned guarded inode → inode < disk.fresh

/-- What a disk has kept since it was as `before`. -/
structure Confined (before : Disk Name) (root : Location Name)
    (guarded : Location Name → Prop) (disk : Disk Name) : Prop where
  kept : ∀ location, guarded location →
    disk.tree.lookup location = before.tree.lookup location
  content : ∀ inode, before.Owned guarded inode →
    disk.content inode = before.content inode
  top : disk.tree.lookup [] = some .dir
  linkFree : disk.tree.LinkFree root
  inside : ∀ location inode, ¬guarded location →
    disk.tree.lookup location = some (.file inode) → ¬before.Owned guarded inode
  opened : ∀ descriptor ∈ disk.descriptors, ¬before.Owned guarded descriptor.inode
  fresh : ∀ inode, before.Owned guarded inode → inode < disk.fresh

variable {before disk : Disk Name} {root path : Location Name}
  {guarded : Location Name → Prop}

theorem Sealed.confined (h : disk.Sealed root guarded) :
    Confined disk root guarded disk where
  kept _ _ := rfl
  content _ _ := rfl
  top := FileTree.lookup_root h.dir
  linkFree := h.linkFree
  inside := h.inside
  opened := h.opened
  fresh := h.fresh

section Paths

variable (hsealed : before.Sealed root guarded) (h : Confined before root guarded disk)

include hsealed

theorem Sealed.above_root {location : Location Name} (hbegins : location <+: root)
    (hne : location ≠ root) :
    guarded location ∧ before.tree.lookup location = some .dir := by
  obtain ⟨more, rfl⟩ := hbegins
  have hmore : more ≠ [] := by
    rintro rfl
    exact hne (by simp)
  have hnot : ¬location ++ more <+: location := by
    intro hback
    have hlength := hback.length_le
    rw [List.length_append] at hlength
    have hpos := List.length_pos_of_ne_nil hmore
    omega
  exact ⟨hsealed.outside location hnot, FileTree.lookup_above hsealed.dir hmore⟩

include h

namespace Confined

theorem plain (hpath : root <+: path ∨ path <+: root) : disk.tree.Plain path := by
  intro location hlocation absolute target hlink
  have hcases : root <+: location ∨ location <+: root := by
    obtain hbelow | habove := hpath
    · exact List.prefix_or_prefix_of_prefix hbelow hlocation
    · exact Or.inr (hlocation.trans habove)
  obtain ⟨below, rfl⟩ | habove := hcases
  · exact h.linkFree below absolute target hlink
  · by_cases hne : location = root
    · have hroot := h.linkFree [] absolute target
      rw [List.append_nil, ← hne] at hroot
      exact hroot hlink
    · obtain ⟨hguarded, hdir⟩ := hsealed.above_root habove hne
      rw [h.kept location hguarded, hdir] at hlink
      cases hlink

/-- The parent of a path below the directory has no link on its way either. -/
theorem plain_dropLast (hpath : root <+: path) : disk.tree.Plain path.dropLast :=
  (h.plain hsealed (Or.inl hpath)).of_above (List.dropLast_prefix path)

theorem resolve_eq (hpath : root <+: path) :
    disk.tree.resolve path.path =
      if (disk.tree.lookup path).isSome = true then some path else none :=
  FileTree.resolve_plain h.top (h.plain hsealed (Or.inl hpath))

theorem entry_eq {location : Location Name} (hpath : root <+: path)
    (hentry : disk.tree.entry path.path = some location) :
    location = path ∧ path ≠ [] := by
  by_cases hnil : path = []
  · subst hnil
    cases hentry
  · rw [FileTree.entry_plain h.top (h.plain_dropLast hsealed hpath) hnil] at hentry
    exact ⟨(Option.some.inj (Option.ite_none_right_eq_some.mp hentry).2).symm, hnil⟩

end Confined

end Paths

/-! ## Changes at locations that are not guarded -/

namespace Confined

section Changes

variable (h : Confined before root guarded disk)

include h

theorem setContent {inode : ℕ} (hinode : ¬before.Owned guarded inode)
    (bytes : List UInt8) : Confined before root guarded (disk.setContent inode bytes) := by
  refine { h with content := fun other hother => ?_ }
  have hne : other ≠ inode := fun heq => hinode (heq ▸ hother)
  exact (Function.update_of_ne hne _ _).trans (h.content other hother)

theorem openAt {inode : ℕ} (hinode : ¬before.Owned guarded inode)
    (position : Option ℕ) :
    Confined before root guarded (disk.opened inode position).1 := by
  refine { h with opened := fun descriptor hdescriptor => ?_ }
  obtain hold | hnew := List.mem_append.mp hdescriptor
  · exact h.opened descriptor hold
  · rw [List.mem_singleton.mp hnew]
    exact hinode

/-- A subtree without links and without files from guarded locations. -/
theorem setTree (hsealed : before.Sealed root guarded) {location : Location Name}
    (hlocation : ¬guarded location) {new : Option (FileTree Name)}
    (htop : location = [] → new.map FileTree.node = some .dir)
    (hlinks : ∀ below absolute target,
      (new.bind fun tree => tree.lookup below) ≠ some (.link absolute target))
    (hfiles : ∀ below inode,
      (new.bind fun tree => tree.lookup below) = some (.file inode) →
        ¬before.Owned guarded inode) :
    Confined before root guarded (disk.setTree (disk.tree.set location new)) := by
  refine { h with kept := ?_, top := ?_, linkFree := ?_, inside := ?_ }
  · intro other hother
    have hnot : ¬location <+: other := by
      rintro ⟨below, rfl⟩
      exact hlocation (hsealed.above location below hother)
    exact (FileTree.lookup_set_of_apart hnot new).trans (h.kept other hother)
  · by_cases hnil : location = []
    · obtain ⟨tree, rfl, hdir⟩ := Option.map_eq_some_iff.mp (htop hnil)
      rw [hnil]
      exact congrArg some hdir
    · have hnot : ¬location <+: [] := fun hbegins => hnil (List.prefix_nil.mp hbegins)
      exact (FileTree.lookup_set_of_apart hnot new).trans h.top
  · intro below absolute target hlink
    obtain hsame | ⟨below', -, hput⟩ :=
      FileTree.lookup_set_cases disk.tree location (root ++ below) new
    · exact h.linkFree below absolute target (hsame ▸ hlink)
    · exact hlinks below' absolute target (hput.symm.trans hlink)
  · intro other inode hother hfile
    obtain hsame | ⟨below', -, hput⟩ :=
      FileTree.lookup_set_cases disk.tree location other new
    · exact h.inside other inode hother (hsame ▸ hfile)
    · exact hfiles below' inode (hput.symm.trans hfile)

/-- An empty directory can be put anywhere. -/
theorem setDir (hsealed : before.Sealed root guarded) {location : Location Name}
    (hlocation : ¬guarded location) :
    Confined before root guarded
      (disk.setTree (disk.tree.set location (some (.dir [])))) := by
  apply h.setTree hsealed hlocation (fun _ => rfl)
  · intro below absolute target hlink
    cases FileTree.eq_of_lookup_leaf rfl hlink
  · intro below inode hfile
    cases FileTree.eq_of_lookup_leaf rfl hfile

theorem changed {tree : Option (FileTree Name)}
    (htree : ∀ new, tree = some new → Confined before root guarded (disk.setTree new)) :
    Confined before root guarded (disk.changed tree).1 := by
  cases tree with
  | none => exact h
  | some new => exact htree new rfl

end Changes

/-! ## Operations on paths that are not guarded -/

section Operations

variable (hsealed : before.Sealed root guarded) (h : Confined before root guarded disk)
  (hpath : ¬guarded path)

include hsealed hpath

/-- What is not guarded is below the shared directory. -/
theorem below_root : root <+: path :=
  by_contra fun hnot => hpath (hsealed.outside path hnot)

include h

theorem not_owned_of_inodeOf {inode : ℕ} (hinode : disk.inodeOf path.path = some inode) :
    ¬before.Owned guarded inode := by
  unfold inodeOf at hinode
  rw [h.resolve_eq hsealed (below_root hsealed hpath)] at hinode
  split at hinode
  case h_1 found hfound =>
    cases hinode
    obtain ⟨location, hlocation, hlookup⟩ := Option.bind_eq_some_iff.mp hfound
    obtain ⟨-, heq⟩ := Option.ite_none_right_eq_some.mp hlocation
    cases heq
    exact h.inside path inode hpath hlookup
  case h_2 => cases hinode

theorem openFile (position : Option ℕ) :
    Confined before root guarded (disk.openFile path.path position).1 := by
  unfold Disk.openFile
  split
  case h_1 inode hinode =>
    exact h.openAt (h.not_owned_of_inodeOf hsealed hpath hinode) position
  case h_2 => exact h

theorem truncate {disk' : Disk Name} {inode : ℕ}
    (htruncate : disk.truncate path.path = some (disk', inode)) :
    Confined before root guarded disk' ∧ ¬before.Owned guarded inode := by
  have hbelow := below_root hsealed hpath
  unfold Disk.truncate at htruncate
  rw [FileTree.resolveNew_plain h.top (h.plain hsealed (Or.inl hbelow))] at htruncate
  split at htruncate
  case h_1 => cases htruncate
  case h_2 location hlocation =>
    obtain ⟨-, heq⟩ := Option.ite_none_right_eq_some.mp hlocation
    cases heq
    split at htruncate
    case h_1 found hfound =>
      cases htruncate
      have hinode := h.inside path _ hpath hfound
      exact ⟨h.setContent hinode [], hinode⟩
    case h_2 => cases htruncate
    case h_3 hfree =>
      obtain ⟨-, hput⟩ := Option.ite_none_right_eq_some.mp htruncate
      cases hput
      have hnew : ¬before.Owned guarded disk.fresh := fun howned =>
        Nat.lt_irrefl _ (h.fresh _ howned)
      have hne : path ≠ [] := by
        rintro rfl
        rw [h.top] at hfree
        cases hfree
      have hput : Confined before root guarded
          (disk.setTree (disk.tree.set path (some (.file disk.fresh)))) := by
        apply h.setTree hsealed hpath (fun hnil => absurd hnil hne)
        · intro below absolute target hlink
          cases FileTree.eq_of_lookup_leaf rfl hlink
        · intro below inode hfile
          cases FileTree.eq_of_lookup_leaf rfl hfile
          exact hnew
      have hempty := hput.setContent hnew []
      refine ⟨{ hempty with fresh := fun inode howned => ?_ }, hnew⟩
      exact Nat.lt_succ_of_lt (h.fresh inode howned)

theorem removed {removable : Inode Name → Bool} {tree : FileTree Name}
    (hremoved : disk.removed path.path removable = some tree) :
    Confined before root guarded (disk.setTree tree) := by
  unfold Disk.removed at hremoved
  split at hremoved
  case h_1 => cases hremoved
  case h_2 location hentry =>
    obtain ⟨-, heq⟩ := Option.ite_none_right_eq_some.mp hremoved
    cases heq
    obtain ⟨rfl, hne⟩ := h.entry_eq hsealed (below_root hsealed hpath) hentry
    exact h.setTree hsealed hpath (fun hnil => absurd hnil hne) (by simp) (by simp)

theorem removeTree : Confined before root guarded (disk.removeTree path.path).1 := by
  obtain rfl | ⟨init, last, rfl⟩ := List.eq_nil_or_concat' path
  · rw [Disk.removeTree, Disk.emptied]
    have hresolve := h.resolve_eq hsealed (below_root hsealed hpath)
    rw [h.top] at hresolve
    have htree : disk.tree.resolve (Location.path []) = some [] := hresolve
    simp only [Location.path, List.map_nil, List.getLast?_nil] at htree ⊢
    rw [htree]
    simp only [h.top, if_true]
    exact h.setDir hsealed hpath
  · have hlast : (Location.path (init ++ [last])).getLast? = some (.down last) := by
      rw [Location.path_append]
      exact List.getLast?_concat
    rw [Disk.removeTree, hlast]
    exact h.changed fun tree htree => h.removed hsealed hpath htree

theorem moved {target : Location Name} {tree : FileTree Name}
    (htarget : ¬guarded target) (hmoved : disk.moved path.path target.path = some tree) :
    Confined before root guarded (disk.setTree tree) := by
  have hsourceBelow := below_root hsealed hpath
  unfold Disk.moved at hmoved
  split at hmoved
  case h_2 => cases hmoved
  case h_1 from_ to_ hfrom hto =>
    obtain ⟨rfl, hsourceNe⟩ := h.entry_eq hsealed hsourceBelow hfrom
    obtain ⟨rfl, htargetNe⟩ := h.entry_eq hsealed (below_root hsealed htarget) hto
    split at hmoved
    case h_1 => cases hmoved
    case h_2 subtree hsub =>
      dsimp only at hmoved
      split at hmoved
      case isTrue =>
        cases hmoved
        exact h
      case isFalse =>
        split at hmoved
        case isTrue => cases hmoved
        case isFalse =>
          obtain ⟨-, heq⟩ := Option.ite_none_right_eq_some.mp hmoved
          cases heq
          have htaken : Confined before root guarded
              (disk.setTree (disk.tree.set from_ none)) :=
            h.setTree hsealed hpath (fun hnil => absurd hnil hsourceNe) (by simp)
              (by simp)
          have hsame (below : Location Name) :
              subtree.lookup below = disk.tree.lookup (from_ ++ below) :=
            (FileTree.lookup_append_of_sub hsub below).symm
          apply htaken.setTree hsealed htarget (fun hnil => absurd hnil htargetNe)
          · intro below absolute target' hlink
            obtain ⟨more, rfl⟩ := hsourceBelow
            rw [Option.bind_some, hsame, List.append_assoc] at hlink
            exact h.linkFree _ _ _ hlink
          · intro below inode hfile
            have hnot : ¬guarded (from_ ++ below) := fun hguarded =>
              hpath (hsealed.above from_ below hguarded)
            exact h.inside _ _ hnot ((hsame below).symm.trans hfile)

end Operations

section MakeDirs

variable (hsealed : before.Sealed root guarded)

include hsealed

/-- On the way to a location that is not guarded, a guarded directory is found and any
other is made. -/
theorem makeDir (h : Confined before root guarded disk) {disk' : Disk Name}
    {rest : Location Name} (hfree : ¬guarded (path ++ rest))
    (hmade : disk.makeDir path.path = some disk') :
    Confined before root guarded disk' := by
  unfold Disk.makeDir at hmade
  split at hmade
  case h_1 location hresolve =>
    obtain ⟨-, heq⟩ := Option.ite_none_right_eq_some.mp hmade
    cases heq
    exact h
  case h_2 hmissing =>
    have hpath : ¬guarded path := by
      intro hguarded
      have hplain := h.plain hsealed (List.prefix_or_prefix_of_prefix
        (below_root hsealed hfree) (List.prefix_append path rest))
      rw [FileTree.resolve_plain h.top hplain, h.kept path hguarded,
        hsealed.reach path rest hguarded hfree] at hmissing
      cases hmissing
    split at hmade
    case h_1 location hentry =>
      obtain ⟨-, heq⟩ := Option.ite_none_right_eq_some.mp hmade
      cases heq
      obtain ⟨rfl, -⟩ := h.entry_eq hsealed (below_root hsealed hpath) hentry
      exact h.setDir hsealed hpath
    case h_2 => cases hmade

theorem makeDirs (h : Confined before root guarded disk) (made : Location Name)
    {names rest : Location Name} (hfree : ¬guarded (made ++ (names ++ rest))) :
    Confined before root guarded (disk.makeDirs made.path names.path).1 := by
  induction names generalizing disk made with
  | nil => exact h
  | cons name names ih =>
      have hassoc : made ++ (name :: names ++ rest) = made ++ [name] ++ (names ++ rest) := by
        simp
      rw [hassoc] at hfree
      have hpathName : Location.path made ++ [.down name] =
          Location.path (made ++ [name]) := (Location.path_append made [name]).symm
      rw [show Location.path (name :: names) = .down name :: Location.path names from rfl,
        Disk.makeDirs, hpathName]
      split
      case h_1 disk' hmade => exact ih (h.makeDir hsealed hfree hmade) _ hfree
      case h_2 => exact h

end MakeDirs

end Confined

/-! ## Runs -/

/-- A path that names a location which is not guarded. -/
def Free (guarded : Location Name → Prop) (path : Path Name) : Prop :=
  ∃ location : Location Name, ¬guarded location ∧ path = location.path

/-- Operations that change nothing, or nothing that is guarded. -/
def Within (guarded : Location Name → Prop) : FileOp Name → Prop
  | .createDirAll path =>
      ∃ names rest : Location Name, ¬guarded (names ++ rest) ∧ path = names.path
  | .create path => Free guarded path
  | .openAppend path => Free guarded path
  | .openWrite path _ => Free guarded path
  | .removeFile path => Free guarded path
  | .removeDirAll path => Free guarded path
  | .rename source target => Free guarded source ∧ Free guarded target
  | .copy _ target => Free guarded target
  | _ => True

theorem Confined.act (hsealed : before.Sealed root guarded) {op : FileOp Name}
    (h : Confined before root guarded disk) (hop : Within guarded op) :
    Confined before root guarded (disk.act op).1 := by
  cases op with
  | metadata path => exact h
  | symlinkMetadata path => exact h
  | canonicalize path => exact h
  | readDir path => exact h
  | read path => exact h
  | createDirAll path =>
      obtain ⟨names, rest, hfree, rfl⟩ := hop
      exact h.makeDirs hsealed [] hfree
  | create path =>
      obtain ⟨location, hfree, rfl⟩ := hop
      rw [Disk.act]
      split
      case h_1 disk' inode htruncate =>
        obtain ⟨hconfined, hinode⟩ := h.truncate hsealed hfree htruncate
        exact hconfined.openAt hinode _
      case h_2 => exact h
  | openAppend path =>
      obtain ⟨location, hfree, rfl⟩ := hop
      exact h.openFile hsealed hfree none
  | openWrite path offset =>
      obtain ⟨location, hfree, rfl⟩ := hop
      exact h.openFile hsealed hfree (some offset)
  | write descriptor bytes =>
      rw [Disk.act]
      split
      case h_1 inode position hopened =>
        have hinode := h.opened _ (List.mem_of_getElem? hopened)
        refine { h.setContent hinode _ with opened := fun other hother => ?_ }
        obtain hold | rfl := List.mem_or_eq_of_mem_set hother
        · exact h.opened other hold
        · exact hinode
      case h_2 inode hopened =>
        exact h.setContent (h.opened _ (List.mem_of_getElem? hopened)) _
      case h_3 => exact h
  | removeFile path =>
      obtain ⟨location, hfree, rfl⟩ := hop
      exact h.changed fun tree htree => h.removed hsealed hfree htree
  | removeDirAll path =>
      obtain ⟨location, hfree, rfl⟩ := hop
      exact h.removeTree hsealed hfree
  | rename source target =>
      obtain ⟨⟨from_, hfrom, rfl⟩, to_, hto, rfl⟩ := hop
      exact h.changed fun tree htree => h.moved hsealed hfrom hto htree
  | copy source target =>
      obtain ⟨location, hfree, rfl⟩ := hop
      rw [Disk.act]
      split
      case h_1 => exact h
      case h_2 inode _ =>
        split
        case h_1 => exact h
        case h_2 disk' inode' htruncate =>
          obtain ⟨hconfined, hinode⟩ := h.truncate hsealed hfree htruncate
          exact hconfined.setContent hinode _

/-- However many programs take turns, and whatever is refused to them or breaks them
off: as long as none of their operations has a guarded path, everything guarded stays
as it was. -/
theorem Sealed.confined_of_run {α : Type} (h : disk.Sealed root guarded)
    {history : List (Program.Pool (Disk Name) (FileOp Name) FileOp.Answer α ×
      Program.PoolLabel (FileOp Name) FileOp.Answer α)}
    {pool : Program.Pool (Disk Name) (FileOp Name) FileOp.Answer α}
    (hrun : (Program.Pool.system Disk.act α disk).Run history pool)
    (hstarts : Transition.System.Always
      (Program.Pool.Starts (Within guarded)) history) :
    Confined disk root guarded pool.state := by
  have hact : ∀ s op, Within guarded op → Confined disk root guarded s →
      Confined disk root guarded (Disk.act s op).1 :=
    fun s op hop hinv => Confined.act h hinv hop
  exact Program.Pool.run_invariant hact h.confined hrun hstarts

end Disk

end Yunpan
