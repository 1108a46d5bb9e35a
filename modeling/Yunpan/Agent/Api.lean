import Yunpan.Agent.Target
import Yunpan.Core.Traced
import Yunpan.Protocol.Ascii

/-!
# The agent's client of the file server

One function for each thing the agent can do to the share.  Every one of them
makes one request; an upload opens the local file before it, a download creates
the local file after it.
-/

namespace Yunpan.Agent

open Yunpan.Protocol Yunpan.Percent Yunpan.Address

/-- An entry of a directory listing. -/
structure PathItem where
  pathType : String
  name : String
  size : Option UInt64

/-- What the HTTP client makes of an answer: its status with the text behind it,
its body as a listing, and its body piece by piece. -/
structure Response where
  status : UInt16
  reason : String
  index : Except String (List PathItem)
  chunks : List (Except String (List UInt8))

inductive Effect where
  | openFile (path : String)
  | send (request : Request)
  | createDirs (path : String)
  | createFile (path : String)
  | write (path : String) (chunk : List UInt8)
  | flush (path : String)
  deriving DecidableEq

/-- What the machine and the network answer while one message is handled. -/
structure World where
  openFile : String → Except String Unit
  metadata : String → Except String UInt64
  build : Request → Except String Unit
  send : Request → Except String Response
  createDirs : String → Except String Unit
  createFile : String → Except String Unit
  write : ℕ → Except String Unit
  flush : Except String Unit

abbrev Task := Traced Effect String

/-- The client sends only what it could build. -/
def Task.send (w : World) (request : Request) : Task Response := do
  let _ ← Traced.ofExcept (w.build request)
  Traced.perform (.send request) (w.send request)

def unreachable : String := "连不上云链盘（共享启动了吗？）"

def Response.isSuccess (resp : Response) : Bool :=
  200 ≤ resp.status && resp.status < 300

def ensureOk (resp : Response) (doing : String) : Task Unit :=
  if resp.isSuccess then pure ()
  else if resp.status = 401 then
    .fail (doing ++ "失败：需要账号密码（设 YUNPAN_USER / YUNPAN_PASS，或与共享页一致）")
  else if resp.status = 403 then
    .fail (doing ++ "失败：没有权限——共享页对应的开关（允许上传/删除）没开")
  else if resp.status = 404 then .fail (doing ++ "失败：路径不存在")
  else .fail (doing ++ "失败：HTTP " ++ resp.status.toNat.repr ++ " " ++ resp.reason)

/-! ## Local paths -/

/-- Behind the first part of a path, empty parts and dots are no components: the parts
up to the last component. -/
def trimParts (parts : List String) : List String :=
  (parts.reverse.dropWhile fun part => part = "" ∨ part = ".").reverse

/-- `Path::parent`: the text before the last component.  What stands between the
components before it is kept. -/
def parentDir (path : String) : Option String :=
  match (path.toList.splitOn '/').map String.ofList with
  | [] => none
  | first :: rest =>
      match trimParts rest with
      | [] => if first = "" then none else some ""
      | parts =>
          match trimParts parts.dropLast with
          | [] => some (if first = "" then "/" else first)
          | kept => some ("/".intercalate (first :: kept))

example : ["/a//b/c", "a/./b/", "/a", "./a", "a", "/", "."].map parentDir =
    [some "/a//b", some "a", some "/", some ".", some "", none, some ""] := by
  decide +kernel

/-! ## The functions -/

/-- The text of an address. -/
def Target.urlText (t : Target) (remotePath : String) : String :=
  t.baseUrl ++ "/" ++ String.ofList
    (asciiText (List.intercalate [slash] ((pathSegments remotePath).map urlencode)))

def upload (w : World) (t : Target) (localPath remotePath : String) : Task String := do
  let _ ← (Traced.perform (.openFile localPath) (w.openFile localPath)).context
    ("打不开本地文件 " ++ localPath)
  let size ← Traced.ofExcept (w.metadata localPath)
  let resp ← (Task.send w (t.request .put (t.url remotePath))).context unreachable
  ensureOk resp "上传"
  return "已上传 " ++ localPath ++ "（" ++ size.toNat.repr ++ " 字节）→ " ++
    t.urlText remotePath

/-- Write the pieces of the body to the file, with the bytes counted so far. -/
def saveChunks (w : World) (localPath : String) :
    ℕ → List (Except String (List UInt8)) → UInt64 → Task UInt64
  | _, [], total => return total
  | written, chunk :: chunks, total => do
      let chunk ← Traced.ofExcept chunk
      let _ ← Traced.perform (.write localPath chunk) (w.write written)
      saveChunks w localPath (written + 1) chunks (total + UInt64.ofNat chunk.length)

def download (w : World) (t : Target) (remotePath localPath : String) :
    Task String := do
  let resp ← (Task.send w (t.request .get (t.url remotePath))).context unreachable
  ensureOk resp "下载"
  match parentDir localPath with
  | some parent =>
      let _ ← (Traced.perform (.createDirs parent) (w.createDirs parent)).attempt
  | none => pure ()
  let _ ← (Traced.perform (.createFile localPath) (w.createFile localPath)).context
    ("建不了本地文件 " ++ localPath)
  let total ← saveChunks w localPath 0 resp.chunks 0
  let _ ← Traced.perform (.flush localPath) w.flush
  return "已下载 " ++ remotePath ++ "（" ++ total.toNat.repr ++ " 字节）→ " ++ localPath

def fetchIndex (w : World) (t : Target) (url : List UInt8) (doing : String) :
    Task (List PathItem) := do
  let resp ← (Task.send w (t.request .get url)).context unreachable
  ensureOk resp doing
  Traced.ofExcept resp.index

def PathItem.kind (item : PathItem) : String :=
  if "Dir".toList.isPrefixOf item.pathType.toList then "目录" else "文件"

def PathItem.render (item : PathItem) : String :=
  match item.size with
  | some size =>
      if item.kind = "文件" then
        item.kind ++ "  " ++ item.name ++ "  " ++ size.toNat.repr ++ " 字节"
      else item.kind ++ "  " ++ item.name
  | none => item.kind ++ "  " ++ item.name

def renderItems (items : List PathItem) (emptyHint : String) : String :=
  if items.isEmpty then emptyHint else "\n".intercalate (items.map PathItem.render)

def listUrl (t : Target) (path : String) : List UInt8 := t.url path ++ utf8 "?json"

def listDir (w : World) (t : Target) (path : String) : Task String := do
  let items ← fetchIndex w t (listUrl t path) "列目录"
  return renderItems items "（空目录）"

def searchUrl (t : Target) (query path : String) : List UInt8 :=
  t.url path ++ utf8 "?q=" ++ urlencode query ++ utf8 "&json"

def search (w : World) (t : Target) (query path : String) : Task String := do
  let items ← fetchIndex w t (searchUrl t query path) "搜索"
  return renderItems items "没搜到"

def delete (w : World) (t : Target) (remotePath : String) : Task String := do
  let resp ← (Task.send w (t.request .delete (t.url remotePath))).context unreachable
  ensureOk resp "删除"
  return "已删除 " ++ remotePath

def makeDir (w : World) (t : Target) (remotePath : String) : Task String := do
  let resp ← (Task.send w (t.request .mkcol (t.url remotePath))).context unreachable
  ensureOk resp "建目录"
  return "已建目录 " ++ remotePath

/-- The one tool that never fails: a share that is not there is its answer. -/
def status (w : World) (t : Target) : Task String := do
  let offline := "共享不在线（" ++ t.baseUrl ++
    "）。到云链盘桌面端点「启动共享」，或检查 YUNPAN_BASE_URL"
  match ← (Task.send w (statusRequest t)).attempt with
  | .ok resp =>
      return if resp.isSuccess then "共享在线：" ++ t.baseUrl else offline
  | .error _ => return offline

/-- The address that an upload reports is the one it was sent to. -/
theorem utf8_urlText (t : Target) (remotePath : String) :
    utf8 (t.urlText remotePath) = t.url remotePath := by
  have hascii : ∀ b : UInt8, keepInPath b = true → b < 128 := by
    apply forall_byte
    decide +kernel
  have hjoin : ∀ b ∈ List.intercalate [slash] ((pathSegments remotePath).map urlencode),
      b < 128 := by
    apply forall_mem_join
    · decide
    intro segment hsegment b hb
    obtain ⟨text, -, rfl⟩ := List.mem_map.mp hsegment
    exact hascii b (urlencode_visible text b hb).2.2.2.2
  rw [Target.urlText, Target.url, utf8_append, utf8_append, utf8_asciiText hjoin,
    List.append_assoc]
  congr 1

/-! ## Requests that are turned away -/

/-- Nothing was sent, no local file was created, and the task failed. -/
structure Refused {α : Type} (task : Task α) : Prop where
  unsent : ∀ request, Effect.send request ∉ task.effects
  uncreated : ∀ path, Effect.createFile path ∉ task.effects
  failed : ∃ error, task.result = .error error

/-- The HTTP client cannot build the request. -/
def World.Unbuildable (w : World) (request : Request) : Prop :=
  ∃ cause, w.build request = .error cause

variable {w : World} {t : Target} {α : Type}

theorem send_of_unbuildable {request : Request} {cause : String}
    (h : w.build request = .error cause) :
    Task.send w request = ⟨[], .error cause⟩ := by
  have hbuild :
      (Traced.ofExcept (w.build request) : Task Unit).result = .error cause := h
  exact Traced.bind_error hbuild _

theorem send_of_built {request : Request} (h : w.build request = .ok ()) :
    Task.send w request = ⟨[.send request], w.send request⟩ := by
  have hbuild : (Traced.ofExcept (w.build request) : Task Unit).result = .ok () := h
  exact Traced.bind_ok hbuild _

/-- A task that starts with its request is turned away exactly when the request
cannot be built. -/
theorem refused_send_iff (request : Request) (text : String)
    (next : Response → Task α) :
    Refused ((Task.send w request).context text >>= next) ↔ w.Unbuildable request := by
  constructor
  · intro h
    cases hbuild : w.build request with
    | error cause => exact ⟨cause, hbuild⟩
    | ok _ =>
        have hsent :
            Effect.send request ∈ ((Task.send w request).context text).effects := by
          rw [send_of_built hbuild]
          exact List.mem_singleton_self _
        exact absurd (Traced.mem_effects_bind hsent next) (h.unsent request)
  · rintro ⟨cause, hbuild⟩
    have hfailed : ((Task.send w request).context text).result =
        .error (text ++ ": " ++ cause) := by
      rw [send_of_unbuildable hbuild]
      rfl
    rw [Traced.bind_error hfailed, send_of_unbuildable hbuild]
    exact ⟨fun _ => List.not_mem_nil, fun _ => List.not_mem_nil, _, rfl⟩

/-- A step that neither sends nor creates leaves the rest to be turned away, or
fails and turns the task away. -/
theorem refused_bind_iff {first : Task α} {β : Type} (next : α → Task β)
    (hsend : ∀ request, Effect.send request ∉ first.effects)
    (hcreate : ∀ path, Effect.createFile path ∉ first.effects) :
    Refused (first >>= next) ↔
      (∃ cause, first.result = .error cause) ∨
        ∃ value, first.result = .ok value ∧ Refused (next value) := by
  cases hfirst : first.result with
  | error cause =>
      rw [Traced.bind_error hfirst]
      constructor
      · exact fun _ => Or.inl ⟨cause, rfl⟩
      · exact fun _ => ⟨hsend, hcreate, cause, rfl⟩
  | ok value =>
      rw [Traced.bind_ok hfirst]
      constructor
      · intro h
        refine Or.inr ⟨value, rfl, ?_, ?_, h.failed⟩
        · exact fun request hmem => h.unsent request (List.mem_append_right _ hmem)
        · exact fun path hmem => h.uncreated path (List.mem_append_right _ hmem)
      · rintro (⟨cause, hcause⟩ | ⟨value', hvalue, h⟩)
        · cases hcause
        · cases hvalue
          refine ⟨fun request hmem => ?_, fun path hmem => ?_, h.failed⟩
          · obtain hmem | hmem := List.mem_append.mp hmem
            · exact hsend request hmem
            · exact h.unsent request hmem
          · obtain hmem | hmem := List.mem_append.mp hmem
            · exact hcreate path hmem
            · exact h.uncreated path hmem

/-- The local file can be opened and looked at. -/
def World.Readable (w : World) (path : String) : Prop :=
  (∃ opened, w.openFile path = .ok opened) ∧ ∃ size, w.metadata path = .ok size

theorem refused_upload_iff (localPath remotePath : String) :
    Refused (upload w t localPath remotePath) ↔
      ¬w.Readable localPath ∨ w.Unbuildable (t.request .put (t.url remotePath)) := by
  unfold upload World.Readable
  rw [refused_bind_iff _ (by simp) (by simp)]
  cases hopen : w.openFile localPath with
  | error cause => simp [Except.mapError]
  | ok _ =>
      rw [refused_bind_iff _ (by simp) (by simp)]
      cases hsize : w.metadata localPath with
      | error cause => simp [Except.mapError]
      | ok size => simp [Except.mapError, refused_send_iff]

theorem refused_fetchIndex_iff (url : List UInt8) (doing : String)
    (next : List PathItem → Task α) :
    Refused (fetchIndex w t url doing >>= next) ↔
      w.Unbuildable (t.request .get url) := by
  unfold fetchIndex
  rw [bind_assoc]
  exact refused_send_iff _ _ _

end Yunpan.Agent
