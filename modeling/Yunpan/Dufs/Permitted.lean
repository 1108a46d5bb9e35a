import Yunpan.Dufs.Reading

/-!
# What a request may do

The operations of a handler that change something, whatever it is answered: they are
on the path that the request names, or on its destination, and for both the guard has
let the visitor write.
-/

namespace Yunpan.Dufs

open Program

variable {env : Environment} {server : Server}

/-! ## The guard on a method that writes -/

/-- A method that is not one of the reading ones is let through only with the right to
write. -/
theorem AccessPaths.perm_of_guard {self access : AccessPaths} {path : Text}
    {method : String} (hmethod : isReadonlyMethod method = false)
    (h : self.guard path method = some access) : access.perm = .readWrite := by
  obtain ⟨target, -, h⟩ := Option.bind_eq_some_iff.mp h
  by_contra hperm
  split at h
  case isTrue => cases h
  case isFalse hnot =>
    cases h
    exact hnot ⟨by simp [hmethod], hperm⟩

/-- Whoever the visitor is, by password, by token or not known at all, the right to write
was given by a rule. -/
theorem AccessControl.perm_of_guard {self : AccessControl} {path : Text}
    {method : String} {authorization : Option (List UInt8)} {token : Option Text}
    {guardOptions : Bool} {user : Option Text} {access : AccessPaths}
    (hmethod : isReadonlyMethod method = false)
    (h : self.guard env.toPrimitives path method authorization token guardOptions =
      (user, some access)) : access.perm = .readWrite := by
  have hoptions : method ≠ "OPTIONS" := by
    rintro rfl
    cases hmethod
  unfold guard at h
  split at h
  case isTrue =>
    cases h
    rfl
  case isFalse =>
    split at h
    case h_1 => exact AccessPaths.perm_of_guard hmethod (congrArg Prod.snd h)
    case h_2 =>
      split at h
      case h_1 =>
        split at h
        case h_1 => cases h
        case h_2 =>
          split at h
          case h_1 => cases h
          case h_2 =>
            split at h
            · exact AccessPaths.perm_of_guard hmethod (congrArg Prod.snd h)
            · cases h
      case h_2 =>
        split at h
        case isTrue hboth => exact absurd hboth.2 hoptions
        case isFalse =>
          split at h
          · exact AccessPaths.perm_of_guard hmethod (congrArg Prod.snd h)
          · cases h

/-- Tokens and the flag for `OPTIONS` do not count when something is written. -/
theorem AccessControl.guard_eq {self : AccessControl} {path : Text} {method : String}
    {authorization : Option (List UInt8)} (token : Option Text) (guardOptions : Bool)
    (hmethod : isReadonlyMethod method = false) :
    self.guard env.toPrimitives path method authorization token guardOptions =
      self.guard env.toPrimitives path method authorization none false := by
  have hget : method ≠ "GET" := by
    rintro rfl
    cases hmethod
  have hoptions : method ≠ "OPTIONS" := by
    rintro rfl
    cases hmethod
  simp [guard, hget, hoptions]

/-! ## What is permitted -/

namespace Server

/-- The methods that a verb stands for. -/
def Verb.Named (method : String) : Verb → Prop
  | .fetch => method = "GET" ∨ method = "HEAD"
  | .options => method = "OPTIONS"
  | .put => method = "PUT"
  | .patch => method = "PATCH"
  | .delete => method = "DELETE"
  | .propfind => method = "PROPFIND"
  | .proppatch => method = "PROPPATCH"
  | .mkcol => method = "MKCOL"
  | .copy => method = "COPY"
  | .move => method = "MOVE"
  | .lock => method = "LOCK"
  | .unlock => method = "UNLOCK"
  | .other => True

theorem verbOf_named (method : String) : (verbOf method).Named method := by
  unfold verbOf
  repeat' split
  all_goals first | assumption | trivial

variable (env server) (request : Request)

/-- The guard lets the visitor of a request write at a relative path. -/
def Writable (relative : Text) : Prop :=
  ∃ user access, server.auth.guard env.toPrimitives relative request.method
    request.authorization none false = (user, some access) ∧ access.perm = .readWrite

/-- The path that a request names, where its visitor may write. -/
def Source (path : Path Text) : Prop :=
  ∃ relative, server.resolvePath request.path = some relative ∧
    server.Writable env request relative ∧ path = server.path relative

/-- The destination of a request, where its visitor may write. -/
def Target (path : Path Text) : Prop :=
  ∃ relative, request.destination.bind server.resolvePath = some relative ∧
    server.Writable env request relative ∧ path = server.path relative

/-- The operations that a request may come to. -/
def May : FileOp Text → Prop
  | .createDirAll path =>
      server.allowUpload = true ∧
        (server.Source env request path ∨
          ∃ target, (server.Source env request target ∨ server.Target env request target) ∧
            parent target = some path)
  | .create path =>
      server.allowUpload = true ∧ request.method = "PUT" ∧ server.Source env request path
  | .openAppend path =>
      server.allowUpload = true ∧ request.method = "PATCH" ∧
        server.Source env request path
  | .openWrite path _ =>
      server.allowUpload = true ∧ request.method = "PATCH" ∧
        server.Source env request path
  | .write _ _ =>
      server.allowUpload = true ∧ ∃ path, server.Source env request path
  | .removeFile path =>
      server.Source env request path ∧
        (server.allowDelete = true ∨ server.allowUpload = true ∧ request.method = "PUT")
  | .removeDirAll path => server.Source env request path ∧ server.allowDelete = true
  | .rename source target =>
      server.Source env request source ∧ server.Target env request target ∧
        server.allowUpload = true ∧ server.allowDelete = true
  | .copy source target =>
      server.Source env request source ∧ server.Target env request target ∧
        server.allowUpload = true ∧ request.method = "COPY"
  | _ => True

variable {server} {request}

theorem may_of_reads {op : FileOp Text} (h : op.Reads) : server.May env request op := by
  cases op with
  | metadata path => trivial
  | symlinkMetadata path => trivial
  | canonicalize path => trivial
  | readDir path => trivial
  | read path => trivial
  | _ => exact h.elim

theorem may_of_all_reads {α : Type} {program : Action α}
    (h : program.All FileOp.Reads) : program.All (server.May env request) :=
  h.mono fun _ => may_of_reads env

section Changes

variable {env} (hupload : server.allowUpload = true)

include hupload

theorem ensurePathParent_may {path : Path Text}
    (hpath : server.Source env request path ∨ server.Target env request path) :
    (ensurePathParent path).All (server.May env request) := by
  unfold ensurePathParent
  split
  case h_1 => exact all_done _
  case h_2 parent hparent =>
    refine .attempt_bind trivial fun found => ?_
    split
    · exact all_done _
    · exact (all_perform _).mpr ⟨hupload, Or.inr ⟨path, hpath, hparent⟩⟩

theorem writeAll_may {path : Path Text} (hpath : server.Source env request path)
    (descriptor : ℕ) (pieces : List (List UInt8)) :
    (writeAll descriptor pieces).All (server.May env request) := by
  induction pieces with
  | nil => exact all_done _
  | cons piece pieces ih =>
      refine .attempt_bind ⟨hupload, path, hpath⟩ fun written => ?_
      split
      · exact ih
      · exact all_done _

/-- An upload writes the path of the request; with an offset it is a `PATCH`, without
one a `PUT`. -/
theorem handleUpload_may {path : Path Text} (hpath : server.Source env request path)
    (uploadOffset : Option ℕ)
    (hmethod : request.method = if uploadOffset = none then "PUT" else "PATCH")
    (size : ℕ) (res : Response) :
    (handleUpload path uploadOffset size request res).All (server.May env request) := by
  have hopen : (openUpload path uploadOffset size).All (server.May env request) := by
    unfold openUpload
    split
    case h_1 =>
      exact (all_perform_bind _ _).mpr ⟨⟨hupload, hmethod, hpath⟩, fun _ => all_done _⟩
    case h_2 offset =>
      rw [if_neg (by simp)] at hmethod
      split
      · exact (all_perform_bind _ _).mpr
          ⟨⟨hupload, hmethod, hpath⟩, fun _ => all_done _⟩
      · exact (all_perform_bind _ _).mpr
          ⟨⟨hupload, hmethod, hpath⟩, fun _ => all_done _⟩
  refine (ensurePathParent_may hupload (Or.inl hpath)).bind fun _ => ?_
  refine hopen.bind fun opened => ?_
  refine (writeAll_may hupload hpath opened.1 request.pieces).bind fun written => ?_
  refine .attempt_bind trivial fun found => ?_
  split
  case isTrue => exact all_done _
  case isFalse =>
    split
    case isTrue hremove =>
      rw [if_pos hremove.1] at hmethod
      exact .attempt_bind ⟨hpath, Or.inr ⟨hupload, hmethod⟩⟩ fun _ => all_fail
    case isFalse => exact all_fail

theorem handleMkcol_may {path : Path Text} (hpath : server.Source env request path)
    (res : Response) : (handleMkcol path res).All (server.May env request) :=
  (all_perform_bind _ _).mpr ⟨⟨hupload, Or.inl hpath⟩, fun _ => all_done _⟩

omit hupload in
/-- A destination is one that the visitor may write. -/
theorem target_of_extractDest {res : Response} {dest : Path Text}
    (hmethod : isReadonlyMethod request.method = false)
    (h : server.extractDest env request res = .ok dest) :
    server.Target env request dest := by
  unfold extractDest at h
  split at h
  case h_1 => cases h
  case h_2 destPath hdest =>
    split at h
    case h_1 user access hguard =>
      cases h
      exact ⟨destPath, hdest,
        ⟨user, access, hguard, AccessControl.perm_of_guard hmethod hguard⟩, rfl⟩
    case h_2 => cases h

/-- A copy reads the path of the request and writes the destination, which has been
checked by its own rule. -/
theorem handleCopy_may {path : Path Text} (hpath : server.Source env request path)
    (hmethod : request.method = "COPY") (res : Response) :
    (server.handleCopy env path request res).All (server.May env request) := by
  unfold handleCopy
  split
  case h_1 => exact all_done _
  case h_2 dest hdest =>
    have htarget := target_of_extractDest (by rw [hmethod]; rfl) hdest
    refine .attempt_bind trivial fun found => ?_
    split
    case h_1 => exact all_fail
    case h_2 found =>
      split
      case isTrue => exact all_done _
      case isFalse =>
        refine (ensurePathParent_may hupload (Or.inr htarget)).bind fun _ => ?_
        refine (may_of_all_reads env (guardRootContained_reads dest)).bind fun out => ?_
        split
        · exact all_done _
        · exact (all_perform_bind _ _).mpr
            ⟨⟨hpath, htarget, hupload, hmethod⟩, fun _ => all_done _⟩

/-- A move takes the path of the request away, so that both uploads and deletions must be
allowed. -/
theorem handleMove_may (hdelete : server.allowDelete = true) {path : Path Text}
    (hpath : server.Source env request path)
    (hmethod : isReadonlyMethod request.method = false) (res : Response) :
    (server.handleMove env path request res).All (server.May env request) := by
  unfold handleMove
  split
  case h_1 => exact all_done _
  case h_2 dest hdest =>
    have htarget := target_of_extractDest hmethod hdest
    refine (ensurePathParent_may hupload (Or.inr htarget)).bind fun _ => ?_
    refine (may_of_all_reads env (guardRootContained_reads dest)).bind fun out => ?_
    split
    · exact all_done _
    · exact (all_perform_bind _ _).mpr
        ⟨⟨hpath, htarget, hupload, hdelete⟩, fun _ => all_done _⟩

end Changes

variable {env}

theorem handlePatch_may {visit : Visit} {res : Response}
    (hpath : server.Source env request visit.path) (hmethod : request.method = "PATCH") :
    (server.handlePatch visit request res).All (server.May env request) := by
  unfold handlePatch
  split
  case isTrue => exact all_done _
  case isFalse =>
    split
    case isTrue => exact all_done _
    case isFalse hnot =>
      have hupload : server.allowUpload = true := by simpa using hnot
      split
      · exact all_done _
      · exact all_done _
      · exact handleUpload_may hupload hpath (some _) hmethod _ _

/-- The request for something that has been looked up does what is permitted. -/
theorem dispatch_may {visit : Visit} {res : Response}
    (hpath : isReadonlyMethod request.method = false →
      server.Source env request visit.path) :
    (server.dispatch env visit request res).All (server.May env request) := by
  have hnamed := verbOf_named request.method
  have hwrites : ∀ method, request.method = method → isReadonlyMethod method = false →
      server.Source env request visit.path := by
    rintro method rfl hmethod
    exact hpath hmethod
  unfold dispatch
  cases hverb : verbOf request.method <;> rw [hverb] at hnamed
  case fetch =>
    exact may_of_all_reads env
      ((fetch_reads visit request res).mono fun _ hop => hop.reads)
  case put =>
    dsimp only
    split
    case isTrue => exact all_done _
    case isFalse hnot =>
      have hupload : server.allowUpload = true := by simpa using (not_or.mp (not_or.mp hnot).2).1
      exact handleUpload_may hupload (hwrites _ hnamed rfl) none hnamed _ res
  case patch => exact handlePatch_may (hwrites _ hnamed rfl) hnamed
  case delete =>
    dsimp only
    split
    case isTrue => exact all_done _
    case isFalse hnot =>
      have hdelete : server.allowDelete = true := by simpa using hnot
      have hsource := hwrites _ hnamed rfl
      split
      case isTrue =>
        unfold handleDelete
        split
        · exact (all_perform_bind _ _).mpr ⟨⟨hsource, hdelete⟩, fun _ => all_done _⟩
        · exact (all_perform_bind _ _).mpr
            ⟨⟨hsource, Or.inl hdelete⟩, fun _ => all_done _⟩
      case isFalse => exact all_done _
  case propfind => exact may_of_all_reads env (handlePropfind_reads visit request res)
  case mkcol =>
    dsimp only
    split
    case isTrue => exact all_done _
    case isFalse hnot =>
      have hupload : server.allowUpload = true := by simpa using hnot
      split
      · exact all_done _
      · exact handleMkcol_may hupload (hwrites _ hnamed rfl) res
  case copy =>
    dsimp only
    split
    case isTrue => exact all_done _
    case isFalse hnot =>
      have hupload : server.allowUpload = true := by simpa using hnot
      split
      · exact all_done _
      · exact handleCopy_may hupload (hwrites _ hnamed rfl) hnamed res
  case move =>
    dsimp only
    split
    case isTrue => exact all_done _
    case isFalse hnot =>
      obtain ⟨hupload, hdelete⟩ := not_or.mp hnot
      split
      · exact all_done _
      · exact handleMove_may (by simpa using hupload) (by simpa using hdelete)
          (hwrites _ hnamed rfl) (by rw [hnamed]; rfl) res
  all_goals exact all_done _

/-- What is answered before the dispatch looks and no more. -/
theorem handleGuarded_may {relative : Text}
    (hpath : isReadonlyMethod request.method = false →
      server.Source env request (server.path relative))
    (query : Query) (user : Option Text) (access : AccessPaths) (res : Response) :
    (server.handleGuarded env request relative query user access res).All
      (server.May env request) := by
  unfold handleGuarded
  split
  · exact all_done _
  · split
    · exact all_done _
    · split
      · unfold handleTokengen
        split
        · exact all_fail
        · exact all_done _
      · split
        · split
          · exact may_of_all_reads env (handleSendFile_reads trivial _ _ _)
          · exact all_done _
        · refine .attempt_bind trivial fun found => ?_
          refine (may_of_all_reads env (guardRootContained_reads _)).bind fun out => ?_
          split
          · exact all_done _
          · exact dispatch_may hpath

/-- Whatever it is answered, a request does what is permitted and nothing else. -/
theorem handle_may (request : Request) :
    (server.handle env request).All (server.May env request) := by
  unfold handle
  split
  case h_1 => exact all_done _
  case h_2 relative hrelative =>
    split
    case h_1 => exact all_done _
    case h_2 =>
      split
      case h_1 => exact all_done _
      case h_2 => exact all_done _
      case h_3 user access hguard =>
        apply handleGuarded_may
        intro hmethod
        rw [guardOf, AccessControl.guard_eq _ _ hmethod] at hguard
        exact ⟨relative, hrelative,
          ⟨user, access, hguard, AccessControl.perm_of_guard hmethod hguard⟩, rfl⟩

end Server

end Yunpan.Dufs
