import Yunpan.Core.Crash
import Yunpan.Core.Disk

/-!
# One file under the operations of a disk

What operations on its path do to a file: it is made or emptied, grows by what is
written to an open descriptor, is found with its content, and is taken away.
-/

namespace Yunpan.Disk

variable {Name : Type} [DecidableEq Name] {disk disk' : Disk Name}
  {location : Location Name} {bytes : List UInt8}

/-- An operation that only looks answers about the disk as it is, or is refused. -/
theorem wp_reads_bind {α : Type} {op : FileOp Name} (hop : op.Reads)
    {post : α → Disk Name → Prop} {broken : Disk Name → Prop}
    {rest : Option op.Answer → Program (FileOp Name) FileOp.Answer α} :
    Program.wp act post broken (Program.attempt op >>= rest) disk ↔
      broken disk ∧ Program.wp act post broken (rest (disk.act op).2) disk ∧
        Program.wp act post broken (rest none) disk := by
  rw [Program.wp_attempt_bind, act_of_reads disk op hop]

/-- No link is on the way to a location, and no directory stands at it. -/
structure Settled (location : Location Name) (disk : Disk Name) : Prop where
  top : disk.tree.lookup [] = some .dir
  plain : disk.tree.Plain location
  notDir : disk.tree.lookup location ≠ some .dir

/-- The file at a location holds some bytes. -/
def Stored (location : Location Name) (bytes : List UInt8) (disk : Disk Name) : Prop :=
  disk.Settled location ∧
    ∃ inode, disk.tree.lookup location = some (.file inode) ∧ disk.content inode = bytes

theorem Stored.unique {bytes' : List UInt8} (h : disk.Stored location bytes)
    (h' : disk.Stored location bytes') : bytes = bytes' := by
  obtain ⟨-, inode, hfile, rfl⟩ := h
  obtain ⟨-, inode', hfile', rfl⟩ := h'
  rw [hfile] at hfile'
  cases hfile'
  rfl

/-- A descriptor is open at the end of the file at a location. -/
def Writing (location : Location Name) (descriptor : ℕ) (bytes : List UInt8)
    (disk : Disk Name) : Prop :=
  disk.Settled location ∧
    ∃ inode position, disk.tree.lookup location = some (.file inode) ∧
      disk.content inode = bytes ∧
      disk.descriptors[descriptor]? = some ⟨inode, position⟩ ∧
      ∀ offset ∈ position, offset = bytes.length

theorem Writing.stored {descriptor : ℕ} (h : disk.Writing location descriptor bytes) :
    disk.Stored location bytes := by
  obtain ⟨hsettled, inode, -, hfile, hbytes, -⟩ := h
  exact ⟨hsettled, inode, hfile, hbytes⟩

theorem Settled.ne_nil (h : disk.Settled location) : location ≠ [] := by
  rintro rfl
  exact h.notDir h.top

theorem Settled.lookup_cases (h : disk.Settled location) :
    disk.tree.lookup location = none ∨
      ∃ inode, disk.tree.lookup location = some (.file inode) := by
  cases hfound : disk.tree.lookup location with
  | none => exact Or.inl rfl
  | some found =>
      cases found with
      | file inode => exact Or.inr ⟨inode, rfl⟩
      | dir => exact absurd hfound h.notDir
      | link absolute target =>
          exact absurd hfound (h.plain location (List.prefix_refl _) absolute target)

section Settled

variable (h : disk.Settled location)

include h

theorem Settled.resolve_eq :
    disk.tree.resolve location.path =
      if (disk.tree.lookup location).isSome = true then some location else none :=
  FileTree.resolve_plain h.top h.plain

theorem Settled.inodeOf_eq_some {inode : ℕ} :
    disk.inodeOf location.path = some inode ↔
      disk.tree.lookup location = some (.file inode) := by
  rw [inodeOf, h.resolve_eq]
  obtain hnone | ⟨inode', hfile⟩ := h.lookup_cases
  · simp [hnone]
  · simp [hfile]

theorem Settled.entry_eq {found : Location Name}
    (hentry : disk.tree.entry location.path = some found) :
    found = location ∧ disk.tree.lookup location.dropLast = some .dir := by
  have hplain := h.plain.of_above (List.dropLast_prefix location)
  rw [FileTree.entry_plain h.top hplain h.ne_nil] at hentry
  obtain ⟨hdir, heq⟩ := Option.ite_none_right_eq_some.mp hentry
  exact ⟨(Option.some.inj heq).symm, hdir⟩

/-- A file is put at the location, or nothing. -/
theorem Settled.setTree (hdir : disk.tree.lookup location.dropLast = some .dir)
    (file : Option ℕ) :
    let disk' := disk.setTree (disk.tree.set location (file.map FileTree.file))
    disk'.Settled location ∧ disk'.tree.lookup location = file.map Inode.file := by
  obtain ⟨init, last, rfl⟩ := (List.eq_nil_or_concat' location).resolve_left h.ne_nil
  rw [List.dropLast_concat] at hdir
  have hself : (disk.tree.set (init ++ [last]) (file.map FileTree.file)).lookup
      (init ++ [last]) = file.map Inode.file := by
    rw [FileTree.lookup, FileTree.sub_set hdir]
    cases file <;> rfl
  have hother : ∀ other, other ≠ init ++ [last] → other <+: init ++ [last] →
      (disk.tree.set (init ++ [last]) (file.map FileTree.file)).lookup other =
        disk.tree.lookup other := by
    intro other hne hbegins
    apply FileTree.lookup_set_of_apart
    exact fun hback => hne (hbegins.eq_of_length_le hback.length_le)
  refine ⟨⟨?_, ?_, ?_⟩, hself⟩
  · exact (hother [] (by simp) List.nil_prefix).trans h.top
  · intro other hbegins absolute target hlink
    by_cases heq : other = init ++ [last]
    · have hfile := hself.symm.trans (heq ▸ hlink)
      cases file <;> cases hfile
    · exact h.plain other hbegins absolute target
        ((hother other heq hbegins).symm.trans hlink)
  · intro hdir'
    have hfile := hself.symm.trans hdir'
    cases file <;> cases hfile

end Settled

/-! ## Directories on the way -/

/-- Only directories have come, and only on the way to a location. -/
structure Grown (disk : Disk Name) (location : Location Name) (disk' : Disk Name) :
    Prop where
  lookup : ∀ other, disk'.tree.lookup other = disk.tree.lookup other ∨
    disk.tree.lookup other = none ∧ disk'.tree.lookup other = some .dir ∧
      other <+: location
  content : disk'.content = disk.content
  descriptors : disk'.descriptors = disk.descriptors

theorem Grown.refl : disk.Grown location disk := ⟨fun _ => Or.inl rfl, rfl, rfl⟩

theorem Grown.trans {disk'' : Disk Name} (h : disk.Grown location disk')
    (h' : disk'.Grown location disk'') : disk.Grown location disk'' where
  lookup other := by
    obtain hsame | ⟨hnone, hdir, hbegins⟩ := h'.lookup other
    · rw [hsame]
      exact h.lookup other
    · obtain hsame | ⟨-, hdir', -⟩ := h.lookup other
      · exact Or.inr ⟨hsame ▸ hnone, hdir, hbegins⟩
      · rw [hdir'] at hnone
        cases hnone
  content := h'.content.trans h.content
  descriptors := h'.descriptors.trans h.descriptors

theorem Grown.top (h : disk.Grown location disk')
    (htop : disk.tree.lookup [] = some .dir) : disk'.tree.lookup [] = some .dir := by
  obtain hsame | ⟨hnone, -, -⟩ := h.lookup []
  · rw [hsame, htop]
  · rw [htop] at hnone
    cases hnone

theorem Grown.plain {path : Location Name} (h : disk.Grown location disk')
    (hplain : disk.tree.Plain path) : disk'.tree.Plain path := by
  intro other hbegins absolute target hlink
  obtain hsame | ⟨-, hdir, -⟩ := h.lookup other
  · exact hplain other hbegins absolute target (hsame.symm.trans hlink)
  · rw [hdir] at hlink
    cases hlink

theorem Grown.settled (h : disk.Grown location.dropLast disk')
    (hsettled : disk.Settled location) :
    disk'.Settled location ∧ disk'.tree.lookup location = disk.tree.lookup location := by
  have hsame : disk'.tree.lookup location = disk.tree.lookup location := by
    obtain hsame | ⟨-, -, hbegins⟩ := h.lookup location
    · exact hsame
    · have hlength := hbegins.length_le
      have hpos := List.length_pos_of_ne_nil hsettled.ne_nil
      rw [List.length_dropLast] at hlength
      omega
  exact ⟨⟨h.top hsettled.top, h.plain hsettled.plain, hsame ▸ hsettled.notDir⟩, hsame⟩

theorem makeDir_grown {path : Location Name} (htop : disk.tree.lookup [] = some .dir)
    (hplain : disk.tree.Plain path) (hbegins : path <+: location)
    (hmade : disk.makeDir path.path = some disk') : disk.Grown location disk' := by
  unfold makeDir at hmade
  split at hmade
  case h_1 found hfound =>
    obtain ⟨-, heq⟩ := Option.ite_none_right_eq_some.mp hmade
    cases heq
    exact .refl
  case h_2 =>
    split at hmade
    case h_2 => cases hmade
    case h_1 found hentry =>
      obtain ⟨⟨hnone, -⟩, heq⟩ := Option.ite_none_right_eq_some.mp hmade
      cases heq
      have hne : path ≠ [] := by
        rintro rfl
        cases hentry
      rw [FileTree.entry_plain htop (hplain.of_above (List.dropLast_prefix path)) hne]
        at hentry
      obtain ⟨-, heq⟩ := Option.ite_none_right_eq_some.mp hentry
      cases heq
      have hnotDir : disk.tree.lookup path ≠ some .dir := by simp [hnone]
      refine ⟨fun other => ?_, rfl, rfl⟩
      obtain hsame | ⟨below, rfl, hnew⟩ :=
        FileTree.lookup_set_cases disk.tree path other (some (.dir []))
      · exact Or.inl hsame
      · by_cases hbelow : below = []
        · subst hbelow
          rw [List.append_nil] at hnew ⊢
          exact Or.inr ⟨hnone, hnew, hbegins⟩
        · left
          rw [FileTree.lookup_append_eq_none hnotDir hbelow]
          refine hnew.trans ?_
          obtain ⟨name, below, rfl⟩ := List.exists_cons_of_ne_nil hbelow
          rfl

theorem makeDirs_grown (htop : disk.tree.lookup [] = some .dir) (made : Location Name)
    {rest : Location Name} (hplain : disk.tree.Plain (made ++ rest)) :
    disk.Grown (made ++ rest) (disk.makeDirs made.path rest.path).1 := by
  induction rest generalizing disk made with
  | nil => exact .refl
  | cons name rest ih =>
      have hassoc : made ++ name :: rest = made ++ [name] ++ rest := by simp
      rw [hassoc] at hplain ⊢
      have hbegins : made ++ [name] <+: made ++ [name] ++ rest := List.prefix_append _ _
      have hpathName : Location.path made ++ [.down name] =
          Location.path (made ++ [name]) := (Location.path_append made [name]).symm
      rw [show Location.path (name :: rest) = .down name :: Location.path rest from rfl,
        makeDirs, hpathName]
      split
      case h_1 disk' hmade =>
        have hstep := makeDir_grown htop (hplain.of_above hbegins) hbegins hmade
        exact hstep.trans (ih (hstep.top htop) (made ++ [name]) (hstep.plain hplain))
      case h_2 => exact .refl

/-! ## The file itself -/

theorem truncate_settled (h : disk.Settled location) {inode : ℕ}
    (htruncate : disk.truncate location.path = some (disk', inode)) :
    disk'.Settled location ∧ disk'.tree.lookup location = some (.file inode) ∧
      disk'.content inode = [] := by
  unfold truncate at htruncate
  rw [FileTree.resolveNew_plain h.top h.plain] at htruncate
  split at htruncate
  case h_1 => cases htruncate
  case h_2 found hfound =>
    obtain ⟨hthere, heq⟩ := Option.ite_none_right_eq_some.mp hfound
    cases heq
    split at htruncate
    case h_1 hfile =>
      cases htruncate
      exact ⟨⟨h.top, h.plain, h.notDir⟩, hfile, Function.update_self _ _ _⟩
    case h_2 => cases htruncate
    case h_3 hnone =>
      obtain ⟨-, heq⟩ := Option.ite_none_right_eq_some.mp htruncate
      cases heq
      have hdir : disk.tree.lookup location.dropLast = some .dir :=
        hthere.resolve_left (by simp [hnone])
      obtain ⟨hsettled, hfile⟩ := h.setTree hdir (some disk.fresh)
      exact ⟨⟨hsettled.top, hsettled.plain, hsettled.notDir⟩, hfile,
        Function.update_self _ _ _⟩

/-- A file that has been created is open at its end, which is its beginning. -/
theorem create_writing (h : disk.Settled location) :
    (disk.act (.create location.path)).1 = disk ∧
        (disk.act (.create location.path)).2 = none ∨
      ∃ descriptor, (disk.act (.create location.path)).2 = some descriptor ∧
        (disk.act (.create location.path)).1.Writing location descriptor [] := by
  rw [act]
  split
  case h_2 => exact Or.inl ⟨rfl, rfl⟩
  case h_1 disk' inode htruncate =>
    obtain ⟨hsettled, hfile, hempty⟩ := truncate_settled h htruncate
    refine Or.inr ⟨disk'.descriptors.length, rfl, ⟨?_, inode, some 0, hfile, hempty, ?_, ?_⟩⟩
    · exact ⟨hsettled.top, hsettled.plain, hsettled.notDir⟩
    · simp [opened]
    · simp

theorem openAppend_writing (h : disk.Stored location bytes) :
    ∃ descriptor, (disk.act (.openAppend location.path)).2 = some descriptor ∧
      (disk.act (.openAppend location.path)).1.Writing location descriptor bytes := by
  obtain ⟨hsettled, inode, hfile, hbytes⟩ := h
  have hinode := hsettled.inodeOf_eq_some.mpr hfile
  refine ⟨disk.descriptors.length, ?_⟩
  rw [act, openFile, hinode]
  refine ⟨rfl, ⟨hsettled.top, hsettled.plain, hsettled.notDir⟩, inode, none, hfile, hbytes,
    ?_, by simp⟩
  simp [opened]

theorem writeAt_length (content bytes : List UInt8) :
    writeAt content content.length bytes = content ++ bytes := by
  unfold writeAt
  split
  case isTrue hnil => simp [hnil]
  case isFalse =>
    have hdrop : content.drop (content.length + bytes.length) = [] :=
      List.drop_eq_nil_of_le (Nat.le_add_right _ _)
    simp [hdrop]

theorem write_writing {descriptor : ℕ} (h : disk.Writing location descriptor bytes)
    (more : List UInt8) :
    (disk.act (.write descriptor more)).2 = some () ∧
      (disk.act (.write descriptor more)).1.Writing location descriptor
        (bytes ++ more) := by
  obtain ⟨hsettled, inode, position, hfile, hbytes, hopened, hposition⟩ := h
  have hlength : descriptor < disk.descriptors.length :=
    (List.getElem?_eq_some_iff.mp hopened).1
  rw [act, hopened]
  cases position with
  | none =>
      refine ⟨rfl, ⟨hsettled.top, hsettled.plain, hsettled.notDir⟩, inode, none, hfile, ?_,
        hopened, by simp⟩
      simp [setContent, hbytes]
  | some offset =>
      obtain rfl := hposition offset rfl
      refine ⟨rfl, ⟨hsettled.top, hsettled.plain, hsettled.notDir⟩, inode,
        some (bytes.length + more.length), hfile, ?_, ?_, by simp⟩
      · simp [setContent, hbytes, writeAt_length]
      · simp [hlength]

/-- A file that is there is read as it is. -/
theorem read_stored (h : disk.Stored location bytes) :
    disk.bytesOf location.path = some bytes := by
  obtain ⟨hsettled, inode, hfile, hbytes⟩ := h
  rw [bytesOf, hsettled.inodeOf_eq_some.mpr hfile, Option.map_some, hbytes]

theorem metadata_settled (h : disk.Settled location) :
    (disk.act (.metadata location.path)).2 =
      (disk.tree.lookup location).map disk.metadataOf := by
  rw [act, h.resolve_eq]
  cases hfound : disk.tree.lookup location <;> simp [hfound]

theorem removeFile_settled (h : disk.Settled location) :
    (disk.act (.removeFile location.path)).1 = disk ∨
      (disk.act (.removeFile location.path)).1.Settled location ∧
        (disk.act (.removeFile location.path)).1.tree.lookup location = none := by
  rw [act]
  cases hremoved : disk.removed location.path fun node => node ≠ .dir with
  | none => exact Or.inl rfl
  | some tree =>
      right
      unfold removed at hremoved
      split at hremoved
      case h_1 => cases hremoved
      case h_2 found hentry =>
        obtain ⟨-, heq⟩ := Option.ite_none_right_eq_some.mp hremoved
        cases heq
        obtain ⟨rfl, hdir⟩ := h.entry_eq hentry
        exact h.setTree hdir none

end Yunpan.Disk
