import Yunpan.Dufs.Handle

/-!
# What a request may look at

The operations of the handlers that only look.  Most of them read no file; the others
read the file that is asked for, an index page, or what the walk for an archive has found.
-/

namespace Yunpan.Dufs

open Program

variable {env : Environment} {server : Server} {readable : Path Text → Prop}

/-! ## Handlers that only look -/

namespace Server

theorem isRootContained_reads (path : Path Text) :
    (server.isRootContained path).All (FileOp.ReadsFrom readable) := by
  refine .attempt_bind trivial fun location => ?_
  cases location <;> exact all_done _

/-- The guard against links that lead outside looks where a path leads and reads no
file. -/
theorem guardRootContained_reads (path : Path Text) :
    (server.guardRootContained path).All (FileOp.ReadsFrom readable) := by
  unfold guardRootContained
  split
  · exact all_done _
  · refine .attempt_bind trivial fun found => ?_
    split
    · exact (isRootContained_reads path).bind fun _ => all_done _
    · exact (isRootContained_reads _).bind fun _ => all_done _
    · exact all_done _

theorem countEntries_reads (path : Path Text) (count : ℕ) (names : List Text) :
    (server.countEntries env path count names).All (FileOp.ReadsFrom readable) := by
  induction names generalizing count with
  | nil => exact all_done _
  | cons name names ih =>
      refine .attempt_bind trivial fun found => ?_
      split
      · exact ih count
      · split
        · exact all_done _
        · exact ih (count + 1)

theorem itemSize_reads (path : Path Text) (found : Metadata) :
    (server.itemSize env path found).All (FileOp.ReadsFrom readable) := by
  unfold itemSize
  split
  · refine .attempt_bind trivial fun names => ?_
    split
    · exact (countEntries_reads path 0 _).bind fun _ => all_done _
    · exact all_done _
  · exact all_done _

theorem toPathitem_reads (path base : Path Text) :
    (server.toPathitem env path base).All (FileOp.ReadsFrom readable) := by
  refine .attempt_bind trivial fun found => .attempt_bind trivial fun link => ?_
  split
  case h_1 found link =>
    refine All.bind ?_ fun contained => ?_
    · split
      · exact all_done _
      · exact isRootContained_reads path
    · split
      · exact all_done _
      · refine (itemSize_reads path found).bind fun size => ?_
        split <;> exact all_done _
  case h_2 => exact all_done _

theorem addPathitems_reads (base : Path Text) (paths : List (Path Text)) :
    (server.addPathitems env base paths).All (FileOp.ReadsFrom readable) := by
  induction paths with
  | nil => exact all_done _
  | cons path paths ih =>
      refine (toPathitem_reads path base).bind fun item => ih.bind fun rest => ?_
      split
      · split <;> exact all_done _
      · exact all_done _

theorem listDir_reads (path base : Path Text) (access : AccessPaths) :
    (server.listDir env path base access).All (FileOp.ReadsFrom readable) := by
  unfold listDir
  split
  · exact (addPathitems_reads base _).bind fun _ => all_done _
  · refine .attempt_bind trivial fun names => ?_
    split
    · exact (addPathitems_reads base _).bind fun _ => all_done _
    · exact all_done _

theorem entryType_reads (ancestors : List (Location Text)) (path : Path Text) :
    (entryType ancestors path).All (FileOp.ReadsFrom readable) := by
  refine .attempt_bind trivial fun found => ?_
  split
  · exact all_done _
  · split
    · refine .attempt_bind trivial fun found => .attempt_bind trivial fun location => ?_
      split
      · split <;> exact all_done _
      · exact all_done _
    · exact all_done _

section Walk

variable {includeEntry : Path Text → Bool → Action Bool}
  (hinclude : ∀ path isFile, (includeEntry path isFile).All (FileOp.ReadsFrom readable))

include hinclude

theorem visit_reads
    {below : List (Location Text) → Path Text → List Text → Action (List (Path Text))}
    (hbelow : ∀ ancestors path names,
      (below ancestors path names).All (FileOp.ReadsFrom readable))
    (ancestors : List (Location Text)) (path : Path Text) :
    (server.visit env includeEntry below ancestors path).All (FileOp.ReadsFrom readable) := by
  refine (entryType_reads ancestors path).bind fun entry => ?_
  split
  case h_1 => exact all_done _
  case h_2 isDir isFile =>
    refine All.bind ?_ fun names => .attempt_bind trivial fun location => ?_
    · split
      · exact (all_attempt _).mpr trivial
      · exact all_done _
    · dsimp only
      split
      · exact all_done _
      · split
        · exact all_done _
        · refine (hinclude path isFile).bind fun own => All.bind ?_ fun _ => all_done _
          split
          · exact hbelow _ path _
          · exact all_done _

theorem visitAll_reads
    {below : List (Location Text) → Path Text → List Text → Action (List (Path Text))}
    (hbelow : ∀ ancestors path names,
      (below ancestors path names).All (FileOp.ReadsFrom readable))
    (ancestors : List (Location Text)) (path : Path Text) (names : List Text) :
    (server.visitAll env includeEntry below ancestors path names).All
      (FileOp.ReadsFrom readable) := by
  induction names with
  | nil => exact all_done _
  | cons name names ih =>
      exact (visit_reads hinclude hbelow ancestors _).bind fun _ =>
        ih.bind fun _ => all_done _

/-- The induction is on the depth that is left to the walk; the entries of one directory
are visited in turn. -/
theorem walk_reads (depth : ℕ) (ancestors : List (Location Text)) (path : Path Text)
    (names : List Text) :
    (server.walk env includeEntry depth ancestors path names).All
      (FileOp.ReadsFrom readable) := by
  induction depth generalizing ancestors path names with
  | zero => exact all_done _
  | succ depth ih => exact visitAll_reads hinclude ih ancestors path names

theorem collectDirEntries_reads (depth : ℕ) (access : AccessPaths) (path : Path Text) :
    (server.collectDirEntries env includeEntry depth access path).All
      (FileOp.ReadsFrom readable) := by
  unfold collectDirEntries
  induction access.entryPaths path with
  | nil => exact all_done _
  | cons dir dirs ih =>
      refine All.bind ?_ fun found => ih.bind fun rest => all_done _
      refine .attempt_bind trivial fun location => .attempt_bind trivial fun names => ?_
      split
      · exact walk_reads hinclude depth _ dir _
      · exact all_done _

end Walk

theorem zipEntries_reads (dir : Path Text) {paths : List (Path Text)}
    (h : ∀ path ∈ paths, readable path) :
    (zipEntries dir paths).All (FileOp.ReadsFrom readable) := by
  induction paths with
  | nil => exact all_done _
  | cons path paths ih =>
      have hrest := ih fun other hother => h other (List.mem_cons_of_mem _ hother)
      have hpath := h path List.mem_cons_self
      unfold zipEntries
      split
      · exact hrest
      · refine .attempt_bind trivial fun found => .attempt_bind hpath fun content => ?_
        split
        · exact hrest.bind fun _ => all_done _
        · exact all_done _

end Server

section Open

variable {path : Path Text} (h : readable path)

include h

theorem getContentType_reads :
    (getContentType env path).All (FileOp.ReadsFrom readable) := by
  refine .attempt_bind h fun content => ?_
  split
  · exact all_done _
  · exact all_fail

/-- The first bytes of the file, which tell its type, are read from the same file that
is sent. -/
theorem handleSendFile_reads (request : Request) (headOnly : Bool) (res : Response) :
    (handleSendFile env path request headOnly res).All (FileOp.ReadsFrom readable) := by
  have hranges : ∀ contentType content size res ranges,
      (sendRanges env contentType content size headOnly res ranges).All
        (FileOp.ReadsFrom readable) := by
    intro contentType content size res ranges
    unfold sendRanges
    split
    · exact all_done _
    · split
      · exact all_fail
      · exact all_done _
  refine .attempt_bind h fun content => .attempt_bind trivial fun found => ?_
  split
  case h_1 content found =>
    split
    · exact all_done _
    · exact all_done _
    · refine (getContentType_reads h).bind fun contentType => ?_
      split
      · exact all_fail
      · split
        · exact hranges _ _ _ _ _
        · exact all_done _
        · exact all_done _
  case h_2 => exact all_fail

theorem handleHashFile_reads (headOnly : Bool) (res : Response) :
    (handleHashFile path headOnly res).All (FileOp.ReadsFrom readable) := by
  refine .attempt_bind h fun content => ?_
  split
  · exact all_fail
  · exact all_done _

/-- A page to edit or view a file reads that file, to see whether it is text. -/
theorem Server.handleEditFile_reads (view headOnly : Bool) (user : Option Text)
    (res : Response) : (server.handleEditFile env path view headOnly user res).All
      (FileOp.ReadsFrom readable) := by
  refine .attempt_bind h fun content => .attempt_bind trivial fun found => ?_
  split
  · exact all_done _
  · exact all_fail

end Open

/-! ## What a walk may find -/

/-- There is a child of every name, and the last one is open. -/
def AccessPaths.Opens : AccessPaths → List Text → Prop
  | self, [] => self.perm ≠ .indexOnly
  | self, name :: names => ∃ child, (name, child) ∈ self.children ∧ Opens child names

mutual

/-- The walk for a visitor who may see only the way to something starts at what the
rules open to the visitor. -/
theorem AccessPaths.opens_of_entryPathsOf {base entry : Path Text} :
    ∀ {self : AccessPaths}, entry ∈ entryPathsOf base self →
      ∃ above, self.Opens above ∧ entry = base ++ above.flatMap components
  | .node perm children, h => by
      rw [entryPathsOf] at h
      split at h
      case isTrue =>
        obtain ⟨name, child, above, hchild, hopens, rfl⟩ := opens_of_entryPathsImpl h
        exact ⟨name :: above, ⟨child, hchild, hopens⟩, by simp⟩
      case isFalse hperm =>
        exact ⟨[], hperm, by simpa using h⟩

theorem AccessPaths.opens_of_entryPathsImpl {base entry : Path Text} :
    ∀ {children : List (Text × AccessPaths)}, entry ∈ entryPathsImpl base children →
      ∃ name child above, (name, child) ∈ children ∧ child.Opens above ∧
        entry = base ++ (name :: above).flatMap components
  | (name, child) :: rest, h => by
      rw [entryPathsImpl] at h
      obtain hchild | hrest := List.mem_append.mp h
      · obtain ⟨above, hopens, rfl⟩ := opens_of_entryPathsOf hchild
        exact ⟨name, child, above, List.mem_cons_self, hopens, by simp [join]⟩
      · obtain ⟨name', child', above, hmem, hopens, rfl⟩ := opens_of_entryPathsImpl hrest
        exact ⟨name', child', above, List.mem_cons_of_mem _ hmem, hopens, rfl⟩

end

namespace Server

/-- The name is not hidden, as a directory or as a file. -/
def Unhidden (env : Environment) (server : Server) (name : Text) : Prop :=
  ∃ isDir, isHidden env server.hidden name isDir = false

/-- A path below a directory, by names that are not hidden and were listed. -/
def FoundBelow (env : Environment) (server : Server) (P : Text → Prop)
    (dir path : Path Text) : Prop :=
  ∃ names, names ≠ [] ∧ path = dir ++ Location.path names ∧
    ∀ name ∈ names, server.Unhidden env name ∧ P name

section Walk

variable {P : Text → Prop} {includeEntry : Path Text → Bool → Action Bool}

theorem FoundBelow.cons {name : Text} {dir path : Path Text}
    (hname : server.Unhidden env name ∧ P name)
    (h : server.FoundBelow env P (dir ++ [.down name]) path) :
    server.FoundBelow env P dir path := by
  obtain ⟨names, -, rfl, hnames⟩ := h
  refine ⟨name :: names, by simp, by simp [Location.path], fun other hother => ?_⟩
  obtain rfl | hother := List.mem_cons.mp hother
  · exact hname
  · exact hnames other hother

theorem getFileName_append (dir : Path Text) (name : Text) :
    getFileName (dir ++ [.down name]) = name := by
  simp [getFileName, fileName]

/-- The filter stands before the recursion: a hidden entry is neither found nor gone
into. -/
theorem visitAll_yields
    {below : List (Location Text) → Path Text → List Text → Action (List (Path Text))}
    (hbelow : ∀ ancestors dir names, (∀ name ∈ names, P name) →
      (below ancestors dir names).Yields (FileOp.Lists P)
        fun found => ∀ path ∈ found, server.FoundBelow env P dir path)
    (ancestors : List (Location Text)) (dir : Path Text) {names : List Text}
    (hnames : ∀ name ∈ names, P name) :
    (server.visitAll env includeEntry below ancestors dir names).Yields (FileOp.Lists P)
      fun found => ∀ path ∈ found, server.FoundBelow env P dir path := by
  induction names with
  | nil => exact yields_pure (by simp)
  | cons name names ih =>
      have hname := hnames name List.mem_cons_self
      have hvisit : (server.visit env includeEntry below ancestors
          (dir ++ [.down name])).Yields (FileOp.Lists P)
          fun found => ∀ path ∈ found, server.FoundBelow env P dir path := by
        refine (yields_true _).bind fun entry _ => ?_
        split
        case h_1 => exact yields_pure (by simp)
        case h_2 isDir isFile =>
          have hlisted : (if isDir then Fs.readDir (dir ++ [.down name])
              else pure none).Yields (FileOp.Lists P)
              fun names => ∀ given ∈ names, ∀ name ∈ given, P name := by
            split
            · exact yields_attempt (FileOp.readDir _) fun answer hanswer => hanswer
            · exact yields_pure (by simp)
          refine hlisted.bind fun listed hbelowNames => .attempt_bind fun location _ => ?_
          rw [getFileName_append]
          dsimp only
          split
          case isTrue => exact yields_pure (by simp)
          case isFalse hshown =>
            split
            case isTrue => exact yields_pure (by simp)
            case isFalse =>
              have hunhidden : server.Unhidden env name := ⟨isDir, by simpa using hshown⟩
              have hown : server.FoundBelow env P dir (dir ++ [.down name]) :=
                ⟨[name], by simp, rfl, by simpa using ⟨hunhidden, hname⟩⟩
              refine (yields_true _).bind fun own _ => ?_
              refine Yields.bind (Q := fun found => ∀ path ∈ found,
                server.FoundBelow env P (dir ++ [.down name]) path) ?_ fun rest hrest => ?_
              · cases listed with
                | some names => exact hbelow _ _ _ (hbelowNames names rfl)
                | none => exact yields_pure (by simp)
              refine yields_pure fun path hpath => ?_
              obtain hpath | hpath := List.mem_append.mp hpath
              · split at hpath
                · rw [List.mem_singleton.mp hpath]
                  exact hown
                · cases hpath
              · exact .cons ⟨hunhidden, hname⟩ (hrest path hpath)
      have hmore := ih fun other hother => hnames other (List.mem_cons_of_mem _ hother)
      refine hvisit.bind fun found hfound => hmore.bind fun rest hrest =>
        yields_pure fun path hpath => ?_
      exact (List.mem_append.mp hpath).elim (hfound path) (hrest path)

/-- The induction is on the depth; each round adds one name to the way. -/
theorem walk_yields (depth : ℕ) (ancestors : List (Location Text)) (dir : Path Text)
    {names : List Text} (hnames : ∀ name ∈ names, P name) :
    (server.walk env includeEntry depth ancestors dir names).Yields (FileOp.Lists P)
      fun found => ∀ path ∈ found, server.FoundBelow env P dir path := by
  induction depth generalizing ancestors dir names with
  | zero => exact yields_pure (by simp)
  | succ depth ih =>
      exact visitAll_yields (fun ancestors dir _ hnames => ih ancestors dir hnames)
        ancestors dir hnames

/-- A walk finds what is below directories that are open. -/
theorem collectDirEntries_yields (depth : ℕ) (access : AccessPaths) (path : Path Text) :
    (server.collectDirEntries env includeEntry depth access path).Yields (FileOp.Lists P)
      fun found => ∀ entry ∈ found, ∃ above, access.Opens above ∧
        server.FoundBelow env P (path ++ above.flatMap components) entry := by
  unfold collectDirEntries
  have hopens : ∀ dir ∈ access.entryPaths path,
      ∃ above, access.Opens above ∧ dir = path ++ above.flatMap components :=
    fun dir => AccessPaths.opens_of_entryPathsOf
  generalize access.entryPaths path = dirs at hopens
  induction dirs with
  | nil => exact yields_pure (by simp)
  | cons dir dirs ih =>
      have hdir : (server.walkFrom env includeEntry depth dir).Yields (FileOp.Lists P)
          fun found => ∀ path ∈ found, server.FoundBelow env P dir path := by
        refine .attempt_bind fun location _ => .attempt_bind fun names hnames => ?_
        split
        · exact walk_yields depth _ dir (hnames _ rfl)
        · exact yields_pure (by simp)
      have hmore := ih fun other hother => hopens other (List.mem_cons_of_mem _ hother)
      refine hdir.bind fun found hfound => hmore.bind fun rest hrest =>
        yields_pure fun entry hentry => ?_
      obtain hentry | hentry := List.mem_append.mp hentry
      · obtain ⟨above, habove, rfl⟩ := hopens dir List.mem_cons_self
        exact ⟨above, habove, hfound entry hentry⟩
      · exact hrest entry hentry

end Walk

/-- What an archive may read: what is below the directories that are open. -/
def InArchive (access : AccessPaths) (dir path : Path Text) : Prop :=
  ∃ above below, access.Opens above ∧
    path = dir ++ above.flatMap components ++ Location.path below

theorem zipDir_reads {depth : ℕ} {access : AccessPaths} {dir : Path Text}
    (h : ∀ path, InArchive access dir path → readable path) :
    (server.zipDir env depth access dir).All (FileOp.ReadsFrom readable) := by
  have hinclude : ∀ path isFile, (isPlainFile path isFile).All
      (FileOp.ReadsFrom readable) := by
    intro path isFile
    refine .attempt_bind trivial fun found => ?_
    split <;> exact all_done _
  have hfound : (server.collectDirEntries env isPlainFile depth access dir).Yields
      (fun _ _ => True) fun found => ∀ path ∈ found, readable path := by
    refine (collectDirEntries_yields (P := fun _ => True) depth access dir).mono
      (fun op _ _ => ?_) fun found hfound path hpath => ?_
    · cases op <;> simp [FileOp.Lists]
    · obtain ⟨above, hopens, below, -, rfl, -⟩ := hfound path hpath
      exact h _ ⟨above, below, hopens, rfl⟩
  exact (collectDirEntries_reads hinclude depth access dir).bind_yields hfound
    fun paths hpaths => zipEntries_reads dir hpaths

theorem handleFileJson_reads (path : Path Text) (headOnly : Bool) (res : Response) :
    (server.handleFileJson env path headOnly res).All (FileOp.ReadsFrom readable) := by
  refine (toPathitem_reads path _).bind fun item => ?_
  split
  · exact all_fail
  · exact all_done _
  · exact all_done _

theorem sendIndex_reads (path : Path Text) (paths : List PathItem) (exist : Bool)
    (query : Query) (headOnly : Bool) (user : Option Text) (access : AccessPaths)
    (res : Response) :
    (server.sendIndex env path paths exist query headOnly user access res).All
      (FileOp.ReadsFrom readable) := by
  unfold sendIndex
  split
  · exact all_done _
  · split
    · exact all_fail
    · exact all_done _

section Index

variable {path : Path Text} {query : Query} {headOnly : Bool} {user : Option Text}
  {access : AccessPaths} {res : Response}

theorem handleLsDir_reads {exist : Bool} :
    (server.handleLsDir env path exist query headOnly user access res).All
      (FileOp.ReadsFrom readable) := by
  unfold handleLsDir
  split
  · refine (listDir_reads path path access).bind fun paths => ?_
    split
    · exact all_done _
    · exact sendIndex_reads _ _ _ _ _ _ _ _
  · exact sendIndex_reads _ _ _ _ _ _ _ _

theorem handleSearchDir_reads :
    (server.handleSearchDir env path query headOnly user access res).All
      (FileOp.ReadsFrom readable) := by
  have hitems : ∀ paths, (server.searchItems env path paths).All (FileOp.ReadsFrom readable) := by
    intro paths
    induction paths with
    | nil => exact all_done _
    | cons found paths ih =>
        refine (toPathitem_reads found path).bind fun item => ih.bind fun rest => ?_
        split <;> exact all_done _
  unfold handleSearchDir
  split
  · exact all_fail
  · dsimp only
    split
    · exact handleLsDir_reads
    · split
      · exact sendIndex_reads _ _ _ _ _ _ _ _
      · refine (collectDirEntries_reads (fun _ _ => all_done _) _ _ _).bind fun found => ?_
        exact (hitems found).bind fun paths => sendIndex_reads _ _ _ _ _ _ _ _

theorem handleZipDir_reads (h : ∀ found, InArchive access path found → readable found) :
    (server.handleZipDir env path headOnly access res).All (FileOp.ReadsFrom readable) := by
  unfold handleZipDir
  split
  · exact all_fail
  · dsimp only
    split
    · exact all_done _
    · exact (zipDir_reads h).bind fun _ => all_done _

/-- In place of a list, a directory's own index page is read. -/
theorem handleRenderIndex_reads {request : Request} (h : readable (join path indexName)) :
    (server.handleRenderIndex env path request query headOnly user access res).All
      (FileOp.ReadsFrom readable) := by
  refine .attempt_bind trivial fun found => ?_
  split
  · exact handleSendFile_reads h _ _ _
  · split
    · exact handleLsDir_reads
    · exact all_done _

end Index

/-- What is read for a request: what it asks for, an index page, or an archive. -/
def Readable (server : Server) (access : AccessPaths) (asked path : Path Text) : Prop :=
  path = asked ∨
    (server.renderIndex ∨ server.renderSpa ∨ server.renderTryIndex) ∧
      path = join asked indexName ∨
    server.renderSpa = true ∧ path = join server.sharePath indexName ∨
    server.allowArchive = true ∧ InArchive access asked path

/-- A request with `GET` or `HEAD` reads what the visitor's rules let it read. -/
theorem fetch_reads (visit : Visit) (request : Request) (res : Response) :
    (server.fetch env visit request res).All
      (FileOp.ReadsFrom (server.Readable visit.access visit.path)) := by
  have hself : server.Readable visit.access visit.path visit.path := Or.inl rfl
  have harchive : server.allowArchive = true →
      ∀ found, InArchive visit.access visit.path found →
        server.Readable visit.access visit.path found :=
    fun hallow found hfound => Or.inr (Or.inr (Or.inr ⟨hallow, hfound⟩))
  have hdir : ∀ headOnly, (server.fetchDir env visit request headOnly res).All
      (FileOp.ReadsFrom (server.Readable visit.access visit.path)) := by
    intro headOnly
    simp only [fetchDir]
    split
    case isTrue htry =>
      split
      case isTrue hzip => exact handleZipDir_reads (harchive hzip.1)
      case isFalse =>
        split
        · exact handleSearchDir_reads
        · exact handleRenderIndex_reads (Or.inr (Or.inl ⟨Or.inr (Or.inr htry), rfl⟩))
    case isFalse =>
      split
      case isTrue hrender =>
        exact handleRenderIndex_reads (Or.inr (Or.inl ⟨hrender.imp_right Or.inl, rfl⟩))
      case isFalse =>
        split
        · split
          case isTrue hallow => exact handleZipDir_reads (harchive hallow)
          case isFalse => exact all_done _
        · split
          · exact handleSearchDir_reads
          · exact handleLsDir_reads
  have hfile : ∀ headOnly, (server.fetchFile env visit request headOnly res).All
      (FileOp.ReadsFrom (server.Readable visit.access visit.path)) := by
    intro headOnly
    simp only [fetchFile]
    split
    · exact handleFileJson_reads _ _ _
    · split
      · exact handleEditFile_reads hself _ _ _ _
      · split
        · exact handleEditFile_reads hself _ _ _ _
        · split
          · split
            · exact handleHashFile_reads hself _ _
            · exact all_done _
          · exact handleSendFile_reads hself _ _ _
  unfold fetch
  dsimp only
  split
  case isTrue => exact hdir _
  case isFalse =>
    split
    case isTrue => exact hfile _
    case isFalse =>
      split
      case isTrue hspa =>
        unfold handleRenderSpa
        split
        · exact all_done _
        · exact handleSendFile_reads (Or.inr (Or.inr (Or.inl ⟨hspa, rfl⟩))) _ _ _
      case isFalse =>
        split
        · exact handleLsDir_reads
        · exact all_done _

theorem handlePropfind_reads (visit : Visit) (request : Request) (res : Response) :
    (server.handlePropfind env visit request res).All (FileOp.ReadsFrom readable) := by
  have hdir : ∀ access, (server.handlePropfindDir env visit.path request access res).All
      (FileOp.ReadsFrom readable) := by
    intro access
    unfold handlePropfindDir
    split
    · exact all_done _
    · refine (toPathitem_reads _ _).bind fun own => ?_
      split
      · exact all_fail
      · refine All.bind ?_ fun children => ?_
        · split
          · exact listDir_reads _ _ _
          · exact all_done _
        · split <;> exact all_done _
  have hfile : (server.handlePropfindFile env visit.path res).All
      (FileOp.ReadsFrom readable) := by
    refine (toPathitem_reads _ _).bind fun item => ?_
    split
    · exact all_fail
    · exact all_done _
    · exact all_done _
  unfold handlePropfind
  split
  · exact hdir _
  · split
    · exact hfile
    · exact all_done _

end Server

end Yunpan.Dufs
