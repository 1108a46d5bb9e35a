import Yunpan.Core.Crash
import Yunpan.Core.Stored
import Yunpan.Dufs.Permitted

/-!
# What is sent of a file

A request for a file that is stored is turned away, or gets all of the file or the
ranges that it asks for, however the reads of the file cut it into pieces.
-/

namespace Yunpan.Dufs

open Yunpan.Protocol Yunpan.Percent Yunpan.Address Program Server

variable {disk : Disk Text} {location : Location Text} {file bytes : List UInt8}

namespace Server

/-- The disk and the answer, once a schedule has run a request. -/
def answer (server : Server) (env : Environment) (schedule : List Bool)
    (disk : Disk Text) (request : Request) : Disk Text × Response :=
  let result := replay Disk.act schedule disk (server.handle env request)
  (result.1, result.2.getD serverError)

/-- A triple about a handler holds of its answer, also when the answer is a server
error. -/
theorem answer_of_wp (server : Server) {env : Environment} {request : Request}
    {post : Response → Disk Text → Prop} {broken : Disk Text → Prop}
    (schedule : List Bool)
    (h : wp Disk.act post broken (server.handle env request) disk)
    (herror : ∀ disk', broken disk' → post serverError disk') :
    broken (server.answer env schedule disk request).1 ∧
      post (server.answer env schedule disk request).2
        (server.answer env schedule disk request).1 := by
  obtain ⟨hbroken, hpost⟩ := replay_of_wp h schedule
  refine ⟨hbroken, ?_⟩
  unfold answer
  dsimp only
  cases hres : (replay Disk.act schedule disk (server.handle env request)).2 with
  | none => exact herror _ hbroken
  | some res => exact hpost res hres

end Server

/-! ## The way to a handler -/

/-- A request leads to the location and carries no parameters. -/
structure LeadsTo (server : Server) (location : Location Text) (request : Request) :
    Prop where
  resolve : ∃ relative, server.resolvePath request.path = some relative ∧
    server.path relative = location.path ∧
    (request.method = "GET" → handleInternal relative = none)
  query : request.query = []
  shared : server.pathIsFile = false

/-- The parameters that such a request is handled with. -/
def IsPlainQuery (query : Query) : Prop :=
  query = [] ∨ query = [("noscript".toList, [])]

theorem IsPlainQuery.no_flag {query : Query} (h : IsPlainQuery query) (name : String)
    (hname : "noscript".toList ≠ name.toList) : hasQueryFlag query name = false := by
  obtain rfl | rfl := h
  · rfl
  · rw [hasQueryFlag, IndexMap.get_cons, if_neg hname]
    rfl

/-- What a request gets that finds nothing or may not have it. -/
def Response.Refuses (res : Response) : Prop := 400 ≤ res.status ∧ res.status ≤ 404

section Handle

variable {env : Environment} {server : Server} {request : Request}
  {post : Response → Disk Text → Prop} {broken : Disk Text → Prop}

/-- A request is turned away, or comes to what its method asks for. -/
theorem handle_wp (hleads : LeadsTo server location request)
    (hmethod : request.method ≠ "CHECKAUTH" ∧ request.method ≠ "LOGOUT")
    (hbroken : broken disk) (hearly : ∀ res : Response, res.Refuses → post res disk)
    (hdispatch : ∀ visit res, res.status = 200 → visit.path = location.path →
      IsPlainQuery visit.query →
      visit.found = none ∨ visit.found = (disk.act (.metadata location.path)).2 →
      wp Disk.act post broken (server.dispatch env visit request res) disk) :
    wp Disk.act post broken (server.handle env request) disk := by
  obtain ⟨relative, hrelative, hpath, hinternal⟩ := hleads.resolve
  have hearly' : ∀ res : Response, res.Refuses →
      wp Disk.act post broken (pure res : Action Response) disk :=
    fun res hrefuses => ⟨hbroken, hearly res hrefuses⟩
  have hguarded : ∀ query user access res, res.status = 200 → IsPlainQuery query →
      wp Disk.act post broken
        (server.handleGuarded env request relative query user access res) disk := by
    intro query user access res hstatus hquery
    have hfound : ∀ found, found = none ∨
        found = (disk.act (.metadata location.path)).2 →
        wp Disk.act post broken (do
          if ← server.guardRootContained location.path then return res.notFound
          server.dispatch env ⟨location.path, query, user, access, found⟩ request res)
          disk := by
      intro found hfound
      refine wp_bind.mpr (wp_of_unchanged Disk.act_of_reads
        (guardRootContained_reads location.path) hbroken fun out => ?_)
      split
      · exact hearly' _ (show 400 ≤ 404 ∧ 404 ≤ 404 by decide)
      · exact hdispatch ⟨location.path, query, user, access, found⟩ res hstatus rfl hquery hfound
    unfold handleGuarded
    rw [if_neg hmethod.1, if_neg hmethod.2, if_neg
      (by rw [hquery.no_flag _ (by decide)]; decide), if_neg (by simp [hleads.shared]), hpath]
    exact (Disk.wp_reads_bind (by trivial)).mpr
      ⟨hbroken, hfound _ (Or.inr rfl), hfound none (Or.inl rfl)⟩
  have hparams : request.queryParams = [] := by rw [Request.queryParams, hleads.query]; rfl
  unfold handle
  have hpage : (if request.method = "GET" then handleInternal relative else none) =
      none := by
    split
    case isTrue hget => exact hinternal hget
    case isFalse => rfl
  rw [hrelative]
  dsimp only
  rw [hpage]
  dsimp only
  split
  case h_1 => exact hearly' _ (show 400 ≤ 401 ∧ 401 ≤ 404 by decide)
  case h_2 => exact hearly' _ (show 400 ≤ 403 ∧ 403 ≤ 404 by decide)
  case h_3 =>
    apply hguarded
    · split <;> rfl
    · rw [hparams]
      split
      · exact Or.inr rfl
      · exact Or.inl rfl

end Handle

/-! ## What is sent -/

/-- A body that is limited to a length is the first bytes of the whole. -/
theorem lengthLimited_flatten (limit : ℕ) (pieces : List (List UInt8)) :
    (lengthLimited limit pieces).flatten = pieces.flatten.take limit := by
  induction pieces generalizing limit with
  | nil => simp [lengthLimited]
  | cons piece pieces ih =>
      rw [lengthLimited]
      split
      case isTrue hzero => simp [hzero]
      case isFalse => rw [List.flatten_cons, List.flatten_cons, ih, List.take_append]

/-- The ranges of a header, for a file of a size. -/
def Request.ranges (request : Request) (size : ℕ) : Option (List (ℕ × ℕ)) :=
  (request.range.bind headerText).bind fun range => parseRange range size

def Response.header (res : Response) (name : String) : Option Text :=
  IndexMap.get res.headers name

@[simp]
theorem Response.header_setHeader (res : Response) (name : String) (value : Text)
    (other : String) :
    (res.setHeader name value).header other =
      if other = name then some value else res.header other :=
  IndexMap.get_insert _ _ _ _

@[simp]
theorem Response.header_setBody (res : Response) (body : Body) (name : String) :
    (res.setBody body).header name = res.header name := rfl

/-- What an answer says of the bytes of a file. -/
structure Shows (bytes : List UInt8) (request : Request) (headOnly : Bool)
    (res : Response) : Prop where
  whole : res.status = 200 →
    res.header "content-length" = some (number bytes.length) ∧
      (headOnly = false → res.body.bytes = some bytes)
  part : res.status = 206 → ∃ ranges, request.ranges bytes.length = some ranges ∧
    ∀ start stop, ranges = [(start, stop)] →
      res.header "content-range" = some (contentRange start stop bytes.length) ∧
      res.header "content-length" = some (number (rangeSize start stop)) ∧
      (headOnly = false →
        res.body.bytes = some ((bytes.drop start).take (rangeSize start stop)))
  unsatisfied : res.status = 416 → request.range.isSome = true ∧
    request.ranges bytes.length = none ∧
    res.header "content-range" = some ("bytes */".toList ++ number bytes.length)

theorem Shows.of_error {request : Request} {headOnly : Bool} {res : Response}
    (hstatus : res.status = 304 ∨ 400 ≤ res.status ∧ res.status ≠ 416) :
    Shows bytes request headOnly res where
  whole h := by omega
  part h := by omega
  unsatisfied h := by omega

section Send

variable {env : Environment} {request : Request} {headOnly : Bool} {res : Response}
  {path : Path Text}

/-- The answer with ranges is cut from the bytes of the file, which stays as it is. -/
theorem sendRanges_wp {contentType : Text} {ranges : List (ℕ × ℕ)}
    (hranges : request.ranges bytes.length = some ranges) :
    wp Disk.act (fun res disk' => disk' = disk ∧ Shows bytes request headOnly res)
      (· = disk) (sendRanges env contentType bytes bytes.length headOnly res ranges)
      disk := by
  have hpart : ∀ {res : Response}, res.status = 206 →
      (∀ start stop, ranges = [(start, stop)] →
        res.header "content-range" = some (contentRange start stop bytes.length) ∧
        res.header "content-length" = some (number (rangeSize start stop)) ∧
        (headOnly = false →
          res.body.bytes = some ((bytes.drop start).take (rangeSize start stop)))) →
      Shows bytes request headOnly res := by
    intro res hstatus hsingle
    exact ⟨fun h => by omega, fun _ => ⟨ranges, hranges, hsingle⟩, fun h => by omega⟩
  unfold sendRanges
  split
  case h_1 start stop =>
    refine ⟨rfl, rfl, hpart (by split <;> rfl) fun start' stop' heq => ?_⟩
    cases heq
    cases headOnly with
    | true => exact ⟨by simp, by simp, fun h => by cases h⟩
    | false =>
        refine ⟨by simp, by simp, fun _ => congrArg some ?_⟩
        rw [lengthLimited_flatten]
        exact congrArg _ (env.reads (bytes.drop start)).2
  case h_2 hnot =>
    split
    case h_1 => exact rfl
    case h_2 =>
      refine ⟨rfl, rfl, hpart (by split <;> rfl) fun start stop heq => ?_⟩
      exact absurd heq (hnot start stop)

/-- The whole file or its ranges: which of them depends on the header alone. -/
theorem sendContent_wp (hstatus : res.status = 200) {useRange : Bool} :
    wp Disk.act (fun res disk' => disk' = disk ∧ Shows bytes request headOnly res)
      (· = disk) (sendContent env path request headOnly useRange bytes bytes.length res)
      disk := by
  refine wp_bind.mpr (wp_of_unchanged Disk.act_of_reads (getContentType_reads trivial) rfl
    fun contentType => ?_)
  dsimp only
  split
  case h_1 => exact rfl
  case h_2 filename hname =>
    have hranges : requestedRanges request useRange bytes.length = none ∨
        request.range.isSome = true ∧ requestedRanges request useRange bytes.length =
          some (request.ranges bytes.length) := by
      unfold requestedRanges Request.ranges
      cases useRange <;> cases request.range <;> simp
    obtain hnone | ⟨hrange, hsome⟩ := hranges
    · rw [hnone]
      refine ⟨rfl, rfl, ⟨fun _ => ?_, fun h => ?_, fun h => ?_⟩⟩
      · cases headOnly with
        | true => exact ⟨by simp, fun h => by cases h⟩
        | false => exact ⟨by simp, fun _ => congrArg some (env.reads bytes).2⟩
      · cases headOnly <;> cases hstatus.symm.trans h
      · cases headOnly <;> cases hstatus.symm.trans h
    · rw [hsome]
      cases hasked : request.ranges bytes.length with
      | some ranges => exact sendRanges_wp hasked
      | none =>
          refine ⟨rfl, rfl, ⟨fun h => ?_, fun h => ?_, fun _ => ⟨hrange, hasked, by simp⟩⟩⟩
          · cases h
          · cases h

/-- A file that is stored is sent as it is, or not at all. -/
theorem handleSendFile_wp (h : disk.Stored location bytes) (hstatus : res.status = 200) :
    wp Disk.act (fun res disk' => disk' = disk ∧ Shows bytes request headOnly res)
      (· = disk) (handleSendFile env location.path request headOnly res) disk := by
  have hread : (disk.act (.read location.path)).2 = some bytes := Disk.read_stored h
  have hfound : ∃ found : Metadata,
      (disk.act (.metadata location.path)).2 = some found ∧ found.len = bytes.length := by
    obtain ⟨hsettled, inode, hfile, rfl⟩ := h
    exact ⟨_, by rw [Disk.metadata_settled hsettled, hfile]; rfl, rfl⟩
  obtain ⟨found, hfound, hlen⟩ := hfound
  refine (Disk.wp_reads_bind (by trivial)).mpr ⟨rfl, ?_, ?_⟩
  · rw [hread]
    refine (Disk.wp_reads_bind (by trivial)).mpr ⟨rfl, ?_, rfl⟩
    rw [hfound]
    dsimp only
    split
    case h_1 => exact ⟨rfl, rfl, .of_error (Or.inr (show 400 ≤ 412 ∧ 412 ≠ 416 by decide))⟩
    case h_2 => exact ⟨rfl, rfl, .of_error (Or.inl rfl)⟩
    case h_3 validators useRange _ =>
      rw [hlen]
      refine sendContent_wp ?_
      cases validators with
      | none => exact hstatus
      | some validators => exact hstatus
  · exact (Disk.wp_reads_bind (by trivial)).mpr ⟨rfl, rfl, rfl⟩

/-- A request to fetch what is at the location is turned away or shows the file that
is there. -/
theorem handle_fetch_wp {server : Server} (hleads : LeadsTo server location request)
    (hfetch : request.method = "GET" ∨ request.method = "HEAD")
    (hspa : server.renderSpa = false) (hslash : request.path.getLast? ≠ some slash)
    (h : disk.Settled location) :
    wp Disk.act
      (fun res disk' => disk' = disk ∧ (res.Refuses ∨ ∃ bytes,
        disk.Stored location bytes ∧ Shows bytes request (request.method = "HEAD") res))
      (· = disk) (server.handle env request) disk := by
  have hverb : verbOf request.method = .fetch := by
    rw [verbOf, if_pos hfetch]
  have hmethod : request.method ≠ "CHECKAUTH" ∧ request.method ≠ "LOGOUT" := by
    obtain hget | hhead := hfetch
    · rw [hget]
      decide
    · rw [hhead]
      decide
  refine handle_wp hleads hmethod rfl (fun res hrefuses => ⟨rfl, Or.inl hrefuses⟩) ?_
  intro visit res hstatus hpath hquery hfound
  have hfile : visit.found = none ∨
      visit.isDir = false ∧ visit.isFile = true ∧ ∃ bytes, disk.Stored location bytes := by
    obtain hnone | hmetadata := hfound
    · exact Or.inl hnone
    · rw [Disk.metadata_settled h] at hmetadata
      obtain hnothing | ⟨inode, hstored⟩ := h.lookup_cases
      · rw [hnothing] at hmetadata
        exact Or.inl hmetadata
      · rw [hstored] at hmetadata
        refine Or.inr ⟨?_, ?_, disk.content inode, h, inode, hstored, rfl⟩
        · rw [Visit.isDir, hmetadata]
          rfl
        · rw [Visit.isFile, hmetadata]
          rfl
  rw [dispatch, hverb]
  dsimp only
  unfold fetch
  obtain hnone | ⟨hdir, hisFile, bytes, hbytes⟩ := hfile
  · rw [if_neg (by simp [Visit.isDir, hnone]), if_neg (by simp [Visit.isFile, hnone]),
      if_neg (by simp [hspa]), if_neg (by simp [hslash])]
    exact ⟨rfl, rfl, Or.inl (show 400 ≤ 404 ∧ 404 ≤ 404 by decide)⟩
  · rw [if_neg (by simp [hdir]), if_pos hisFile]
    unfold fetchFile
    rw [if_neg (by simp [hquery.no_flag "json" (by decide)]),
      if_neg (by simp [hquery.no_flag "edit" (by decide)]),
      if_neg (by simp [hquery.no_flag "view" (by decide)]),
      if_neg (by simp [hquery.no_flag "hash" (by decide)]), hpath]
    exact wp_mono (handleSendFile_wp hbytes hstatus) fun _ _ hshows =>
      ⟨hshows.1, Or.inr ⟨bytes, hbytes, hshows.2⟩⟩

end Send

end Yunpan.Dufs
