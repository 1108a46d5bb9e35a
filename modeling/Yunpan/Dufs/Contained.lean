import Yunpan.Dufs.Permitted

/-!
# What requests leave alone

A request path is a list of names below the shared directory, unless the path prefix
was cut off in the middle of a name that ends in two dots.  What no visitor may write
stays as it is in every run of requests that take turns, and so does everything outside
of the shared directory.
-/

namespace Yunpan.Dufs

open Yunpan.Separator Program Transition

/-! ## Request paths are locations -/

theorem components_append (left right : Text) :
    components (left ++ '/' :: right) = components left ++ components right := by
  simp [components, List.splitOn_append_cons_self]

/-- Without `..` a path is a list of names. -/
theorem components_eq_path {text : Text} (h : ['.', '.'] ∉ text.splitOn '/') :
    ∃ names : Location Text, components text = Location.path names := by
  refine ⟨(text.splitOn '/').filter fun part => part ≠ [] ∧ part ≠ ['.'], ?_⟩
  apply List.map_congr_left
  intro part hpart
  have hne : part ≠ ['.', '.'] := by
    rintro rfl
    exact h (List.mem_filter.mp hpart).1
  exact if_neg hne

namespace Server

variable {server : Server}

/-- The place of a request on the disk begins with the shared directory. -/
theorem path_eq (relative : Text) :
    server.path relative = Location.path server.root ++ components relative := by
  rw [← server.canonical, path, Args.joinPath]
  split
  case isTrue hnil => simp [hnil, components]
  case isFalse =>
    split
    case isTrue hslash =>
      obtain ⟨init, hinit⟩ : ∃ init, server.servePath = init ++ ['/'] :=
        List.getLast?_eq_some_iff.mp hslash
      rw [hinit, List.append_assoc, List.singleton_append, components_append,
        components_append]
      simp [components]
    case isFalse => exact components_append _ _

/-- What a request path stands for has no `..` in it. -/
def Named (server : Server) (path : List UInt8) : Prop :=
  ∀ relative, server.resolvePath path = some relative → ['.', '.'] ∉ relative.splitOn '/'

/-- Without a path prefix every request path is one of names. -/
theorem names_of_resolvePath {path : List UInt8} {relative : Text}
    (hmount : server.pathPrefix = []) (h : server.resolvePath path = some relative) :
    ∃ parts, (∀ part ∈ parts, IsName part) ∧ relative = joinSlash parts := by
  obtain ⟨decoded, -, h⟩ := Option.bind_eq_some_iff.mp h
  obtain ⟨parts, hparts, h⟩ := Option.bind_eq_some_iff.mp h
  rw [if_pos hmount] at h
  cases h
  refine ⟨parts, fun part hpart => ?_, rfl⟩
  obtain ⟨hdots, heq⟩ := Option.ite_none_left_eq_some.mp hparts
  cases heq
  obtain ⟨hmem, hdot⟩ := List.mem_filter.mp hpart
  obtain ⟨hsplit, hempty⟩ := List.mem_filter.mp hmem
  refine ⟨by simpa using hempty, not_mem_of_mem_splitOn hsplit, by simpa using hdot, ?_⟩
  rintro rfl
  exact hdots (Or.inr hmem)

theorem named_of_unprefixed (hmount : server.pathPrefix = []) (path : List UInt8) :
    server.Named path := by
  intro relative h
  obtain ⟨parts, hparts, rfl⟩ := names_of_resolvePath hmount h
  intro hdots
  by_cases hnone : parts = []
  · subst hnone
    simp [joinSlash] at hdots
  · rw [joinSlash, List.splitOn_intercalate '/'
      (fun part hpart => (hparts part hpart).no_slash) hnone] at hdots
    exact (hparts _ hdots).not_dots rfl

/-! ## What no request may write -/

variable {env : Environment}

/-- A relative path is the one of the request, or that of its destination. -/
def Asks (server : Server) (request : Request) (relative : Text) : Prop :=
  server.resolvePath request.path = some relative ∨
    ∃ dest ∈ request.destination, server.resolvePath dest = some relative

/-- The request names its path and its destination without `..`, and neither of them is
guarded where its visitor may write. -/
structure Keeps (env : Environment) (server : Server) (guarded : Location Text → Prop)
    (request : Request) : Prop where
  path : server.Named request.path
  destination : ∀ dest ∈ request.destination, server.Named dest
  free : ∀ relative names, server.Asks request relative →
    server.Writable env request relative → components relative = Location.path names →
      ¬guarded (server.root ++ names)

section Keeps

variable {guarded : Location Text → Prop} {request : Request}
  (h : server.Keeps env guarded request)

include h

/-- A path that may be written is outside of what is guarded. -/
theorem Keeps.writable {relative : Text} (hnamed : ['.', '.'] ∉ relative.splitOn '/')
    (hasks : server.Asks request relative)
    (hwritable : server.Writable env request relative) :
    Disk.Free guarded (server.path relative) := by
  obtain ⟨names, hnames⟩ := components_eq_path hnamed
  refine ⟨server.root ++ names, h.free relative names hasks hwritable hnames, ?_⟩
  rw [path_eq, hnames, Location.path_append]

theorem Keeps.source {path : Path Text} (hsource : server.Source env request path) :
    Disk.Free guarded path := by
  obtain ⟨relative, hrelative, hwritable, rfl⟩ := hsource
  exact h.writable (h.path relative hrelative) (Or.inl hrelative) hwritable

theorem Keeps.target {path : Path Text} (htarget : server.Target env request path) :
    Disk.Free guarded path := by
  obtain ⟨relative, hrelative, hwritable, rfl⟩ := htarget
  obtain ⟨dest, hdest, hresolve⟩ := Option.bind_eq_some_iff.mp hrelative
  exact h.writable (h.destination dest hdest relative hresolve)
    (Or.inr ⟨dest, hdest, hresolve⟩) hwritable

/-- A request keeps off what is guarded. -/
theorem Keeps.handle : (server.handle env request).All (Disk.Within guarded) := by
  apply (handle_may request).mono
  intro op hop
  cases op with
  | createDirAll path =>
      obtain ⟨-, hsource | ⟨target, htarget, hparent⟩⟩ := hop
      · obtain ⟨location, hfree, rfl⟩ := h.source hsource
        exact ⟨location, [], by rwa [List.append_nil], rfl⟩
      · have hfree : Disk.Free guarded target := htarget.elim h.source h.target
        obtain ⟨location, hfree, rfl⟩ := hfree
        obtain ⟨hne, heq⟩ := Option.ite_none_left_eq_some.mp hparent
        cases heq
        have hlocation : location ≠ [] := by
          rintro rfl
          exact hne rfl
        obtain ⟨init, last, rfl⟩ := (List.eq_nil_or_concat' location).resolve_left hlocation
        refine ⟨init, [last], hfree, ?_⟩
        rw [Location.path_append]
        exact List.dropLast_concat
  | create path => exact h.source hop.2.2
  | openAppend path => exact h.source hop.2.2
  | openWrite path offset => exact h.source hop.2.2
  | removeFile path => exact h.source hop.1
  | removeDirAll path => exact h.source hop.1
  | rename source target => exact ⟨h.source hop.1, h.target hop.2.1⟩
  | copy source target => exact h.target hop.2.1
  | _ => trivial

end Keeps

/-- A request to the server starts. -/
def Serves (server : Server) (P : Environment → Request → Prop) {State : Type}
    (_ : State) : PoolLabel (FileOp Text) FileOp.Answer Response → Prop
  | .start program =>
      ∃ env request, P env request ∧ program = server.handle env request
  | _ => True

theorem Serves.mono {P Q : Environment → Request → Prop} {State : Type} {s : State}
    {label : PoolLabel (FileOp Text) FileOp.Answer Response}
    (himp : ∀ env request, P env request → Q env request)
    (h : server.Serves P s label) : server.Serves Q s label := by
  cases label with
  | start program =>
      obtain ⟨env, request, hP, rfl⟩ := h
      exact ⟨env, request, himp env request hP, rfl⟩
  | _ => trivial

/-- Requests that take turns leave everything guarded as it was. -/
theorem confined_of_run {disk : Disk Text} {guarded : Location Text → Prop}
    (hsealed : disk.Sealed server.root guarded)
    {history : List (Pool (Disk Text) (FileOp Text) FileOp.Answer Response ×
      PoolLabel (FileOp Text) FileOp.Answer Response)}
    {pool : Pool (Disk Text) (FileOp Text) FileOp.Answer Response}
    (hrun : (Pool.system Disk.act Response disk).Run history pool)
    (hserves : Transition.System.Always
      (server.Serves fun env request => server.Keeps env guarded request) history) :
    Disk.Confined disk server.root guarded pool.state := by
  apply hsealed.confined_of_run hrun
  intro entry hentry
  have hserve := hserves entry hentry
  revert hserve
  cases entry.2 with
  | start program =>
      rintro ⟨env, request, hkeeps, rfl⟩
      exact hkeeps.handle
  | _ => exact fun _ => trivial

/-- A share at its start: a directory without links, with no file in it that has a
second name at a guarded location. -/
structure Shares (server : Server) (guarded : Location Text → Prop) (disk : Disk Text) :
    Prop where
  dir : disk.tree.lookup server.root = some .dir
  linkFree : disk.tree.LinkFree server.root
  single : ∀ location location' inode, guarded location → ¬guarded location' →
    disk.tree.lookup location = some (.file inode) →
      disk.tree.lookup location' ≠ some (.file inode)
  opened : disk.descriptors = []
  fresh : ∀ location inode, disk.tree.lookup location = some (.file inode) →
    inode < disk.fresh

/-- A shared directory without links that lead outside is sealed against what is
guarded. -/
theorem Shares.sealed {disk : Disk Text} {guarded : Location Text → Prop}
    (h : server.Shares guarded disk)
    (habove : ∀ left right, guarded (left ++ right) → guarded left)
    (hreach : ∀ left right, guarded left → ¬guarded (left ++ right) →
      disk.tree.lookup left = some .dir)
    (houtside : ∀ location, ¬server.root <+: location → guarded location) :
    disk.Sealed server.root guarded where
  dir := h.dir
  linkFree := h.linkFree
  above := habove
  reach := hreach
  outside := houtside
  inside location inode hfree hfile := by
    rintro ⟨location', hguarded, hfile'⟩
    exact h.single location' location inode hguarded hfree hfile' hfile
  opened descriptor hdescriptor := by
    rw [h.opened] at hdescriptor
    cases hdescriptor
  fresh inode hinode := by
    obtain ⟨location, -, hfile⟩ := hinode
    exact h.fresh location inode hfile

end Server

/-! ## A share to look at -/

theorem reads_single (content : List UInt8) :
    (⟨[content].filter (· ≠ []), by simp⟩ : Framing.Reads).bytes = content := by
  by_cases h : content = [] <;> simp [Framing.Reads.bytes, h]

namespace Sample

def environment : Environment where
  md5 := id
  verifyPassword _ _ := false
  verifySignature _ _ message signature := signature = message.take 64
  nonceSeed := []
  unixMillis := 0
  sign _ _ message := message.take 64
  glob pattern target := pattern = target
  lowercase text := text.map Char.toLower
  compareName _ _ := .eq
  contentType _ _ := "text/plain".toList
  isText _ := true
  mtime _ := 0
  httpDate _ := []
  uuid := []
  reads content := ⟨⟨[content].filter (· ≠ []), by simp⟩, reads_single content⟩
  escapePcdata := id
  walkDepth := 8

/-- Everybody may read and nobody may write. -/
def auth : AccessControl where
  empty := false
  useHashedPassword := false
  users := []
  anonymous := some (.new .readOnly)

def server : Server where
  servePath := "/s".toList
  pathIsFile := false
  bind := "127.0.0.1"
  port := 5000
  pathPrefix := []
  uriPrefix := [Address.slash]
  auth := auth
  allowUpload := true
  allowDelete := true
  allowSearch := true
  allowArchive := true
  root := [['s']]
  hidden := []
  allowSymlink := false
  allowHash := false
  renderIndex := false
  renderSpa := false
  renderTryIndex := false
  canonical := by decide

def tree : FileTree Text :=
  .dir [(['s'], .dir [(['d'], .dir [])]), (['b'], .file 0)]

def disk : Disk Text where
  admits _ := true
  tree := tree
  content _ := [1]
  fresh := 1
  descriptors := []

theorem lookup_tree {location : Location Text} {found : Inode Text}
    (h : tree.lookup location = some found) :
    found = .dir ∨ location = [['b']] ∧ found = .file 0 := by
  cases location with
  | nil => exact Or.inl (Option.some.inj h).symm
  | cons first rest =>
      by_cases hs : first = ['s']
      · cases rest with
        | nil =>
            subst hs
            exact Or.inl (Option.some.inj h).symm
        | cons second rest =>
            by_cases hd : second = ['d']
            · subst hs hd
              have hleaf : (FileTree.dir []).lookup rest = some found := h
              exact Or.inl (FileTree.eq_of_lookup_leaf rfl hleaf)
            · simp [FileTree.lookup, FileTree.sub_cons, tree, FileTree.entries,
                IndexMap.get, hs, Ne.symm hd] at h
      · by_cases hb : first = ['b']
        · subst hb
          have hleaf : (FileTree.file 0).lookup rest = some found := h
          cases rest with
          | nil => exact Or.inr ⟨rfl, FileTree.eq_of_lookup_leaf rfl hleaf⟩
          | cons second rest => cases hleaf
        · simp [FileTree.lookup, FileTree.sub_cons, tree, FileTree.entries, IndexMap.get,
            Ne.symm hs, Ne.symm hb] at h

theorem shares {guarded : Location Text → Prop} (hb : guarded [['b']]) :
    server.Shares guarded disk where
  dir := rfl
  linkFree below absolute target hlink := by
    obtain hdir | ⟨-, hfile⟩ := lookup_tree hlink
    · cases hdir
    · cases hfile
  single location location' inode hguarded hfree hfile hfile' := by
    obtain hdir | ⟨rfl, -⟩ := lookup_tree hfile'
    · cases hdir
    · exact hfree hb
  opened := rfl
  fresh location inode hfile := by
    obtain hdir | ⟨-, heq⟩ := lookup_tree hfile
    · cases hdir
    · cases heq
      exact Nat.one_pos

def request : Request where
  method := "PUT"
  path := [Address.slash]
  query := []
  userAgent := none
  authorization := none
  destination := none
  depth := none
  range := none
  updateRange := none
  conditions := .proceed none false
  pieces := [[1, 2], [3]]
  complete := true

/-- Everybody may write. -/
def writer : Server :=
  { server with auth := { auth with anonymous := some (.new .readWrite) } }

def sentTo (method path : String) : Request :=
  { request with method, path := bytesOf path.toList }

def sent (method : String) : Request := sentTo method "/d/f"

/-- A file comes, while a request for its directory is broken off. -/
def uploading : List (PoolLabel (FileOp Text) FileOp.Answer Response) :=
  [.start (writer.handle environment (sent "PUT")), .act 0, .act 0,
    .start (writer.handle environment (sent "MKCOL")), .act 0, .act 1, .act 0, .act 0,
    .drop 1, .act 0, .act 0]

/-- Nobody may write. -/
def closed : Server := { writer with allowUpload := false, allowDelete := false }

/-- A file is asked for and another one comes. -/
def visiting : List (PoolLabel (FileOp Text) FileOp.Answer Response) :=
  [.start (closed.handle environment (sent "GET")), .act 0,
    .start (closed.handle environment (sent "PUT")), .act 0, .act 1, .refuse 1]

/-- Everybody may write, but one directory can only be read. -/
def lent : Server :=
  { server with
    auth := { auth with
      anonymous := some (.node .readWrite [(['d'], .new .readOnly)]) } }

/-- A file comes, while somebody tries to delete that directory. -/
def lending : List (PoolLabel (FileOp Text) FileOp.Answer Response) :=
  [.start (lent.handle environment (sentTo "PUT" "/f")), .act 0, .act 0,
    .start (lent.handle environment (sentTo "DELETE" "/d"))] ++ List.replicate 6 (.act 0)

end Sample
namespace Server

variable {env : Environment} {server : Server}

/-! ## Outside of the share -/

/-- What stands at a location, and what is in the file that stands there. -/
def SameAt (before after : Disk Text) (location : Location Text) : Prop :=
  after.tree.lookup location = before.tree.lookup location ∧
    ∀ inode, before.tree.lookup location = some (.file inode) →
      after.content inode = before.content inode

/-- What is confined to the places that are free leaves a guarded one as it was. -/
theorem sameAt_of_confined {before after : Disk Text} {root location : Location Text}
    {guarded : Location Text → Prop} (h : Disk.Confined before root guarded after)
    (hguarded : guarded location) : SameAt before after location :=
  ⟨h.kept location hguarded, fun inode hfile =>
    h.content inode ⟨location, hguarded, hfile⟩⟩

def OutsideOf (root location : Location Text) : Prop := ¬root <+: location

/-- All that lies outside of the shared directory is guarded at once. -/
theorem sealed_outside {disk : Disk Text} (h : server.Shares (OutsideOf server.root) disk) :
    disk.Sealed server.root (OutsideOf server.root) := by
  apply h.sealed
  · intro left right houtside hinside
    exact houtside (hinside.trans (List.prefix_append left right))
  · intro left right houtside hinside
    obtain hbelow | ⟨more, hmore⟩ :=
      List.prefix_or_prefix_of_prefix (not_not.mp hinside) (List.prefix_append left right)
    · exact absurd hbelow houtside
    · have hne : more ≠ [] := by
        rintro rfl
        rw [List.append_nil] at hmore
        exact houtside (hmore ▸ List.prefix_refl _)
      exact FileTree.lookup_above (hmore ▸ h.dir) hne
  · exact fun location houtside => houtside

/-- Requests that take turns, that are refused something or broken off, change nothing
outside of the share, as long as no request path gets `..` behind the path prefix. -/
theorem outside_unchanged {disk : Disk Text}
    (hshares : server.Shares (OutsideOf server.root) disk)
    {history : List (Pool (Disk Text) (FileOp Text) FileOp.Answer Response ×
      PoolLabel (FileOp Text) FileOp.Answer Response)}
    {pool : Pool (Disk Text) (FileOp Text) FileOp.Answer Response}
    (hrun : (Pool.system Disk.act Response disk).Run history pool)
    (hserves : Transition.System.Always (server.Serves fun _ request =>
      server.Named request.path ∧ ∀ dest ∈ request.destination, server.Named dest) history)
    {location : Location Text} (houtside : ¬server.root <+: location) :
    SameAt disk pool.state location := by
  have hkeeps : Transition.System.Always
      (server.Serves fun env request =>
        server.Keeps env (OutsideOf server.root) request) history := by
    refine Transition.System.Always.mono hserves fun _ _ => Serves.mono ?_
    rintro env request ⟨hpath, hdestination⟩
    exact ⟨hpath, hdestination, fun _ names _ _ _ houtside =>
      houtside (List.prefix_append server.root names)⟩
  exact sameAt_of_confined (confined_of_run (sealed_outside hshares) hrun hkeeps) houtside

theorem outside_unchanged_of_uploading :
    ∃ pool, (Pool.system Disk.act Response Sample.disk).exec ⟨Sample.disk, []⟩
        Sample.uploading = some pool ∧
      pool.state.tree.lookup [['s'], ['d'], ['f']] = some (.file 1) ∧
      SameAt Sample.disk pool.state [['b']] := by
  obtain ⟨pool, hexec, hlookup⟩ :
      ∃ pool, (Pool.system Disk.act Response Sample.disk).exec ⟨Sample.disk, []⟩
        Sample.uploading = some pool ∧
        pool.state.tree.lookup [['s'], ['d'], ['f']] = some (.file 1) := ⟨_, rfl, rfl⟩
  have hlabels : ∀ label ∈ Sample.uploading, ∀ pool :
      Pool (Disk Text) (FileOp Text) FileOp.Answer Response,
      Sample.writer.Serves (fun _ request =>
        Sample.writer.Named request.path ∧
          ∀ dest ∈ request.destination, Sample.writer.Named dest) pool label := by
    have hsent : ∀ method, Sample.writer.Named (Sample.sent method).path ∧
        ∀ dest ∈ (Sample.sent method).destination, Sample.writer.Named dest :=
      fun method => ⟨named_of_unprefixed rfl _, fun dest hdest => by cases hdest⟩
    simp only [Sample.uploading, List.forall_mem_cons, List.not_mem_nil, false_implies]
    simp only [Serves, implies_true, and_true, true_and]
    exact ⟨fun _ => ⟨_, _, hsent _, rfl⟩, fun _ => ⟨_, _, hsent _, rfl⟩⟩
  obtain ⟨history, hrun, hserves⟩ :=
    Transition.System.Run.start.always_of_exec .nil hexec hlabels
  have hb : ¬[['s']] <+: [['b']] := by decide
  have h : Sample.server.Shares (OutsideOf [['s']]) Sample.disk := Sample.shares hb
  have hshares : Sample.writer.Shares (OutsideOf [['s']]) Sample.disk :=
    ⟨h.dir, h.linkFree, h.single, h.opened, h.fresh⟩
  exact ⟨pool, hexec, hlookup, outside_unchanged hshares hrun hserves hb⟩

/-! ## What no visitor may write -/

/-- Outside of the share, above a directory in it, or below that directory. -/
def Around (root dir location : Location Text) : Prop :=
  ¬root <+: location ∨ location <+: root ++ dir ∨ root ++ dir <+: location

/-- What the request has for its path or its destination, where its visitor may write,
is neither the directory nor anything above or below it. -/
def Spares (server : Server) (dir : Location Text) (env : Environment)
    (request : Request) : Prop :=
  ∀ relative names, server.Asks request relative → server.Writable env request relative →
    components relative = Location.path names → ¬names <+: dir ∧ ¬dir <+: names

/-- A directory inside the share is guarded with all that is outside of the share. -/
theorem sealed_around {disk : Disk Text} {dir : Location Text}
    (h : server.Shares (Around server.root dir) disk)
    (hdir : disk.tree.lookup (server.root ++ dir) = some .dir) :
    disk.Sealed server.root (Around server.root dir) := by
  apply h.sealed
  · rintro left right (houtside | habove | hbelow)
    · exact Or.inl fun hinside => houtside (hinside.trans (List.prefix_append left right))
    · exact Or.inr (Or.inl ((List.prefix_append left right).trans habove))
    · exact Or.inr ((List.prefix_or_prefix_of_prefix hbelow
        (List.prefix_append left right)).symm)
  · intro left right hguarded hfree
    obtain ⟨hinside, hrest⟩ := not_or.mp hfree
    obtain ⟨-, hnotBelow⟩ := not_or.mp hrest
    have hbegins : left <+: server.root ++ dir := by
      obtain houtside | habove | hbelow := hguarded
      · obtain hbelow | habove := List.prefix_or_prefix_of_prefix (not_not.mp hinside)
          (List.prefix_append left right)
        · exact absurd hbelow houtside
        · exact habove.trans (List.prefix_append server.root dir)
      · exact habove
      · exact absurd (hbelow.trans (List.prefix_append left right)) hnotBelow
    obtain ⟨more, hmore⟩ := hbegins
    by_cases hne : more = []
    · rw [hne, List.append_nil] at hmore
      rw [hmore, hdir]
    · exact FileTree.lookup_above (hmore ▸ hdir) hne
  · exact fun location houtside => Or.inl houtside

/-- A directory keeps everything that is below it, in whatever order requests take turns,
as long as none of them comes with leave to write to the directory, above it or below it. -/
theorem guarded_directory_unchanged {disk : Disk Text} {dir : Location Text}
    (hshares : server.Shares (Around server.root dir) disk)
    (hdir : disk.tree.lookup (server.root ++ dir) = some .dir)
    {history : List (Pool (Disk Text) (FileOp Text) FileOp.Answer Response ×
      PoolLabel (FileOp Text) FileOp.Answer Response)}
    {pool : Pool (Disk Text) (FileOp Text) FileOp.Answer Response}
    (hrun : (Pool.system Disk.act Response disk).Run history pool)
    (hserves : Transition.System.Always (server.Serves fun env request =>
      (server.Named request.path ∧ ∀ dest ∈ request.destination, server.Named dest) ∧
        server.Spares dir env request) history) (below : Location Text) :
    SameAt disk pool.state (server.root ++ dir ++ below) := by
  have hkeeps : Transition.System.Always
      (server.Serves fun env request =>
        server.Keeps env (Around server.root dir) request) history := by
    refine Transition.System.Always.mono hserves fun _ _ => Serves.mono ?_
    rintro env request ⟨⟨hpath, hdestination⟩, hspares⟩
    refine ⟨hpath, hdestination, fun relative names hasks hwritable hnames => ?_⟩
    obtain ⟨habove, hbelow⟩ := hspares relative names hasks hwritable hnames
    rintro (houtside | hbegins | hbegins)
    · exact houtside (List.prefix_append server.root names)
    · exact habove ((List.prefix_append_right_inj server.root).mp hbegins)
    · exact hbelow ((List.prefix_append_right_inj server.root).mp hbegins)
  refine sameAt_of_confined (confined_of_run (sealed_around hshares hdir) hrun hkeeps) ?_
  exact Or.inr (Or.inr (List.prefix_append _ below))

theorem guarded_directory_unchanged_of_lent :
    ∃ pool, (Pool.system Disk.act Response Sample.disk).exec ⟨Sample.disk, []⟩
        Sample.lending = some pool ∧
      pool.state.tree.lookup [['s'], ['f']] = some (.file 1) ∧
      SameAt Sample.disk pool.state ([['s']] ++ [['d']] ++ []) := by
  obtain ⟨pool, hexec, hlookup⟩ :
      ∃ pool, (Pool.system Disk.act Response Sample.disk).exec ⟨Sample.disk, []⟩
        Sample.lending = some pool ∧
        pool.state.tree.lookup [['s'], ['f']] = some (.file 1) := ⟨_, rfl, rfl⟩
  have hnamed : ∀ method path, Sample.lent.Named (Sample.sentTo method path).path ∧
      ∀ dest ∈ (Sample.sentTo method path).destination, Sample.lent.Named dest :=
    fun _ _ => ⟨named_of_unprefixed rfl _, fun dest hdest => by cases hdest⟩
  have hput : Sample.lent.Spares [['d']] Sample.environment
      (Sample.sentTo "PUT" "/f") := by
    rintro relative names (hresolve | ⟨dest, hdest, -⟩) - hnames
    · have hrelative : Sample.lent.resolvePath (Sample.sentTo "PUT" "/f").path =
          some ['f'] := by decide
      cases hrelative.symm.trans hresolve
      have hpath : Location.path [['f']] = Location.path names := hnames
      obtain rfl := List.map_injective_iff.mpr (fun _ _ => Move.down.inj) hpath
      decide
    · cases hdest
  have hdelete : Sample.lent.Spares [['d']] Sample.environment
      (Sample.sentTo "DELETE" "/d") := by
    rintro relative names (hresolve | ⟨dest, hdest, -⟩) ⟨user, access, hguard, -⟩ -
    · have hrelative : Sample.lent.resolvePath (Sample.sentTo "DELETE" "/d").path =
          some ['d'] := by decide
      cases hrelative.symm.trans hresolve
      cases hguard
    · cases hdest
  have hlabels : ∀ label ∈ Sample.lending, ∀ pool :
      Pool (Disk Text) (FileOp Text) FileOp.Answer Response,
      Sample.lent.Serves (fun env request =>
        (Sample.lent.Named request.path ∧
          ∀ dest ∈ request.destination, Sample.lent.Named dest) ∧
        Sample.lent.Spares [['d']] env request) pool label := by
    simp only [Sample.lending, List.cons_append, List.nil_append, List.forall_mem_cons]
    refine ⟨fun _ => ⟨_, _, ⟨hnamed _ _, hput⟩, rfl⟩, fun _ => trivial, fun _ => trivial,
      fun _ => ⟨_, _, ⟨hnamed _ _, hdelete⟩, rfl⟩, fun label hlabel _ => ?_⟩
    rw [List.eq_of_mem_replicate hlabel]
    trivial
  obtain ⟨history, hrun, hserves⟩ :=
    Transition.System.Run.start.always_of_exec .nil hexec hlabels
  have h : Sample.server.Shares (Around [['s']] [['d']]) Sample.disk :=
    Sample.shares (Or.inl (show ¬[['s']] <+: [['b']] by decide))
  have hshares : Sample.lent.Shares (Around [['s']] [['d']]) Sample.disk :=
    ⟨h.dir, h.linkFree, h.single, h.opened, h.fresh⟩
  exact ⟨pool, hexec, hlookup, guarded_directory_unchanged hshares rfl hrun hserves []⟩

/-- A visitor who may write nothing, or a server that allows no changes, leaves the
looking operations only. -/
theorem reads_of_may {request : Request} {op : FileOp Text}
    (hnone : server.allowUpload = false ∧ server.allowDelete = false ∨
      ∀ relative, ¬server.Writable env request relative)
    (hop : server.May env request op) : op.Reads := by
  have hswitches : ∀ relative, server.Writable env request relative →
      ¬(server.allowUpload = true ∨ server.allowDelete = true) := by
    intro relative hwritable hswitch
    obtain ⟨hupload, hdelete⟩ | hnowhere := hnone
    · simp [hupload, hdelete] at hswitch
    · exact hnowhere relative hwritable
  have hsource : ∀ path, server.Source env request path →
      ¬(server.allowUpload = true ∨ server.allowDelete = true) :=
    fun _ ⟨relative, _, hwritable, _⟩ => hswitches relative hwritable
  have htarget : ∀ path, server.Target env request path →
      ¬(server.allowUpload = true ∨ server.allowDelete = true) :=
    fun _ ⟨relative, _, hwritable, _⟩ => hswitches relative hwritable
  cases op with
  | createDirAll path =>
      obtain ⟨hupload, hpath | ⟨target, hpath, -⟩⟩ := hop
      · exact hsource path hpath (Or.inl hupload)
      · exact hpath.elim (hsource target · (Or.inl hupload))
          (htarget target · (Or.inl hupload))
  | create path => exact hsource path hop.2.2 (Or.inl hop.1)
  | openAppend path => exact hsource path hop.2.2 (Or.inl hop.1)
  | openWrite path offset => exact hsource path hop.2.2 (Or.inl hop.1)
  | write descriptor bytes =>
      obtain ⟨hupload, path, hpath⟩ := hop
      exact hsource path hpath (Or.inl hupload)
  | removeFile path =>
      exact hsource path hop.1 (hop.2.elim Or.inr fun h => Or.inl h.1)
  | removeDirAll path => exact hsource path hop.1 (Or.inr hop.2)
  | rename source target => exact hsource source hop.1 (Or.inl hop.2.2.1)
  | copy source target => exact hsource source hop.1 (Or.inl hop.2.2.1)
  | _ => trivial

/-- Visitors who may write nowhere change nothing, and nobody does while uploading and
deleting are switched off. -/
theorem readers_change_nothing {disk : Disk Text}
    {history : List (Pool (Disk Text) (FileOp Text) FileOp.Answer Response ×
      PoolLabel (FileOp Text) FileOp.Answer Response)}
    {pool : Pool (Disk Text) (FileOp Text) FileOp.Answer Response}
    (hrun : (Pool.system Disk.act Response disk).Run history pool)
    (hserves : Transition.System.Always (server.Serves fun env request =>
      server.allowUpload = false ∧ server.allowDelete = false ∨
        ∀ relative, ¬server.Writable env request relative) history) :
    pool.state = disk := by
  have hreads : Transition.System.Always (Pool.Starts FileOp.Reads) history := by
    intro entry hentry
    have hserve := hserves entry hentry
    revert hserve
    cases entry.2 with
    | start program =>
        rintro ⟨env, request, hnone, rfl⟩
        exact (handle_may request).mono fun op hop => reads_of_may hnone hop
    | _ => exact fun _ => trivial
  have hkept : ∀ state op, FileOp.Reads op → state = disk → (Disk.act state op).1 = disk :=
    fun state op hop hstate => (Disk.act_of_reads state op hop).trans hstate
  exact Pool.run_invariant hkept rfl hrun hreads

theorem readers_change_nothing_of_visiting :
    ∃ pool, (Pool.system Disk.act Response Sample.disk).exec ⟨Sample.disk, []⟩
        Sample.visiting = some pool ∧ pool.state = Sample.disk := by
  obtain ⟨pool, hexec⟩ : ∃ pool, (Pool.system Disk.act Response Sample.disk).exec
      ⟨Sample.disk, []⟩ Sample.visiting = some pool := ⟨_, rfl⟩
  have hlabels : ∀ label ∈ Sample.visiting, ∀ pool :
      Pool (Disk Text) (FileOp Text) FileOp.Answer Response,
      Sample.closed.Serves (fun env request =>
        Sample.closed.allowUpload = false ∧ Sample.closed.allowDelete = false ∨
          ∀ relative, ¬Sample.closed.Writable env request relative) pool label := by
    simp only [Sample.visiting, List.forall_mem_cons, List.not_mem_nil, false_implies]
    simp only [Serves, implies_true, and_true, true_and]
    exact ⟨fun _ => ⟨_, _, Or.inl ⟨rfl, rfl⟩, rfl⟩, fun _ => ⟨_, _, Or.inl ⟨rfl, rfl⟩, rfl⟩⟩
  obtain ⟨history, hrun, hserves⟩ :=
    Transition.System.Run.start.always_of_exec .nil hexec hlabels
  exact ⟨pool, hexec, readers_change_nothing hrun hserves⟩

end Server

end Yunpan.Dufs
