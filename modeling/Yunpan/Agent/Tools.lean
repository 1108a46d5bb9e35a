import Yunpan.Agent.Api
import Yunpan.Core.Value

/-!
# The agent's tools

The agent offers its functions as tools: the list of tools tells the client which
arguments each one takes and requires, and a call looks its arguments up by name.
The two are separate descriptions; nothing compares a call with the list.
-/

namespace Yunpan.Agent

open Yunpan.Protocol

/-! ## The list -/

/-- A tool as the list describes it.  Every property is a string. -/
structure ToolDef where
  name : String
  description : String
  properties : List (String × String)
  required : List String

def ToolDef.inputSchema (tool : ToolDef) : Value :=
  let properties := tool.properties.map fun (key, description) =>
    (key, Value.object [("type", .string "string"),
      ("description", .string description)])
  .object ([("type", .string "object"), ("properties", .object properties)] ++
    if tool.required = [] then []
    else [("required", .array (tool.required.map .string))])

def ToolDef.toJson (tool : ToolDef) : Value :=
  .object [("name", .string tool.name), ("description", .string tool.description),
    ("inputSchema", tool.inputSchema)]

def uploadFile : ToolDef where
  name := "upload_file"
  description := "把本机的一个文件上传到云链盘共享目录。" ++
    "remote_path 是共享盘内的目标路径（含文件名），如 报告/月报.pdf"
  properties := [("local_path", "本机文件的绝对路径"),
    ("remote_path", "共享盘内的目标路径（含文件名）")]
  required := ["local_path", "remote_path"]

def downloadFile : ToolDef where
  name := "download_file"
  description := "从云链盘共享目录下载一个文件到本机"
  properties := [("remote_path", "共享盘内的文件路径"), ("local_path", "存到本机的绝对路径")]
  required := ["remote_path", "local_path"]

def listDirTool : ToolDef where
  name := "list_dir"
  description := "列出云链盘共享目录里某个目录的内容"
  properties := [("path", "目录路径，空串或省略 = 根目录")]
  required := []

def searchTool : ToolDef where
  name := "search"
  description := "在云链盘共享目录里按文件名搜索"
  properties := [("query", "关键词"), ("path", "限定在哪个目录下搜，省略 = 根目录")]
  required := ["query"]

def makeDirTool : ToolDef where
  name := "make_dir"
  description := "在云链盘共享目录里新建目录"
  properties := [("remote_path", "要建的目录路径")]
  required := ["remote_path"]

def deleteTool : ToolDef where
  name := "delete"
  description := "删除云链盘共享目录里的文件或目录（需要共享端开了「允许删除」）"
  properties := [("remote_path", "要删的路径")]
  required := ["remote_path"]

def statusTool : ToolDef where
  name := "status"
  description := "看云链盘共享是否在线、连的是哪个地址"
  properties := []
  required := []

def toolDefs : List ToolDef :=
  [uploadFile, downloadFile, listDirTool, searchTool, makeDirTool, deleteTool,
    statusTool]

/-! ## Calls -/

/-- What a call takes for an argument: a string of that name, else the empty one. -/
def argument (args : Value) (key : String) : String :=
  ((args.get key).bind Value.asStr).getD ""

def callTool (w : World) (t : Target) (name : String) (args : Value) : Task String :=
  let s := argument args
  match name with
  | "upload_file" => upload w t (s "local_path") (s "remote_path")
  | "download_file" => download w t (s "remote_path") (s "local_path")
  | "list_dir" => listDir w t (s "path")
  | "search" => search w t (s "query") (s "path")
  | "make_dir" => makeDir w t (s "remote_path")
  | "delete" => delete w t (s "remote_path")
  | "status" => status w t
  | other => .fail ("没有叫 " ++ other ++ " 的工具")

/-! ## Messages -/

def method (msg : Value) : String := ((msg.get "method").bind Value.asStr).getD ""

def params (msg : Value) : Value := (msg.get "params").getD (.object [])

def calledName (msg : Value) : String :=
    (((params msg).get "name").bind Value.asStr).getD ""

def arguments (msg : Value) : Value := ((params msg).get "arguments").getD (.object [])

def protocolVersion (msg : Value) : String :=
  (((params msg).get "protocolVersion").bind Value.asStr).getD "2025-06-18"

def initializeResult (version : String) : Value :=
  .object [
    ("protocolVersion", .string version),
    ("capabilities", .object [("tools", .object [])]),
    ("serverInfo",
      .object [("name", .string "yunpan-agent"), ("version", .string "0.1.0")])]

def toolResult (text : String) (isError : Bool) : Value :=
  .object [
    ("content", .array [.object [("type", .string "text"), ("text", .string text)]]),
    ("isError", .bool isError)]

/-- A failed call is a tool result too, so that the model can read the reason. -/
def callResult : Except String String → Value
  | .ok text => toolResult text false
  | .error error => toolResult error true

def respond (id : Value) (member : String × Value) : Value :=
  .object [("jsonrpc", .string "2.0"), ("id", id), member]

/-- What a line did, and the reply to it. -/
structure Handled where
  effects : List Effect
  reply : Option Value

/-- A message without an id is a notification: nothing is done about it. -/
def handleMessage (w : World) (t : Target) (msg : Value) : Handled :=
  match msg.get "id" with
  | none => ⟨[], none⟩
  | some id =>
      match method msg with
      | "initialize" =>
          ⟨[], some (respond id ("result", initializeResult (protocolVersion msg)))⟩
      | "tools/list" =>
          let tools := Value.array (toolDefs.map ToolDef.toJson)
          ⟨[], some (respond id ("result", .object [("tools", tools)]))⟩
      | "tools/call" =>
          let task := callTool w t (calledName msg) (arguments msg)
          ⟨task.effects, some (respond id ("result", callResult task.result))⟩
      | "ping" => ⟨[], some (respond id ("result", .object []))⟩
      | other =>
          let error := Value.object [("code", .number (.negative (-32601))),
            ("message", .string ("不支持的方法：" ++ other))]
          ⟨[], some (respond id ("error", error))⟩

/-- A line that is not JSON is ignored. -/
def handleLine (parse : String → Option Value) (w : World) (t : Target)
    (line : String) :
    Handled :=
  match parse line with
  | none => ⟨[], none⟩
  | some msg => handleMessage w t msg

/-! ## Calls without their arguments -/

/-- No request was sent, no local file was created, and the reply, if there is
one, is the result of a tool that failed. -/
structure Handled.Harmless (handled : Handled) : Prop where
  unsent : ∀ request, Effect.send request ∉ handled.effects
  uncreated : ∀ path, Effect.createFile path ∉ handled.effects
  failed : ∀ reply, handled.reply = some reply →
    ((reply.get "result").bind fun result => (result.get "isError").bind Value.asBool) =
      some true

/-- A message that calls the tool and leaves out something it requires. -/
structure Malformed (msg : Value) (tool : ToolDef) : Prop where
  call : method msg = "tools/call"
  name : calledName msg = tool.name
  missing : ∃ key ∈ tool.required, ((arguments msg).get key).bind Value.asStr = none

/-- The request that a call comes down to. -/
def callRequest (t : Target) (name : String) (args : Value) : Request :=
  let s := argument args
  match name with
  | "upload_file" => t.request .put (t.url (s "remote_path"))
  | "download_file" => t.request .get (t.url (s "remote_path"))
  | "list_dir" => t.request .get (listUrl t (s "path"))
  | "search" => t.request .get (searchUrl t (s "query") (s "path"))
  | "make_dir" => t.request .mkcol (t.url (s "remote_path"))
  | "delete" => t.request .delete (t.url (s "remote_path"))
  | _ => statusRequest t

variable {w : World} {t : Target}

/-- A tool that requires anything is turned away only by the local file it is to
upload, or by an address that no request can be built for. -/
theorem refused_callTool_iff {tool : ToolDef} (htool : tool ∈ toolDefs)
    (hrequired : tool.required ≠ []) (args : Value) :
    Refused (callTool w t tool.name args) ↔
      (tool.name = "upload_file" ∧ ¬w.Readable (argument args "local_path")) ∨
        w.Unbuildable (callRequest t tool.name args) := by
  simp only [toolDefs, List.mem_cons, List.not_mem_nil, or_false] at htool
  obtain rfl | rfl | rfl | rfl | rfl | rfl | rfl := htool
  case inl =>
    have hcall := refused_upload_iff (w := w) (t := t) (argument args "local_path")
      (argument args "remote_path")
    simpa [callTool, callRequest, uploadFile] using hcall
  case inr.inr.inl => exact absurd rfl hrequired
  case inr.inr.inr.inr.inr.inr => exact absurd rfl hrequired
  case inr.inr.inr.inl =>
    have hcall := refused_fetchIndex_iff (w := w) (t := t)
      (searchUrl t (argument args "query") (argument args "path")) "搜索"
      fun items => pure (renderItems items "没搜到")
    simpa [callTool, callRequest, searchTool, search] using hcall
  all_goals
    simp [callTool, callRequest, downloadFile, makeDirTool, deleteTool, download,
    makeDir,
      delete, refused_send_iff]

theorem handleMessage_call {msg id : Value} (hid : msg.get "id" = some id)
    (hmethod : method msg = "tools/call") :
    handleMessage w t msg =
      ⟨(callTool w t (calledName msg) (arguments msg)).effects,
        some (respond id
          ("result",
            callResult (callTool w t (calledName msg) (arguments msg)).result))⟩ := by
  simp [handleMessage, hid, hmethod]

/-- The reply to a call reports a failure exactly when the call failed. -/
theorem isError_respond_iff (id : Value) (result : Except String String) :
    (((respond id ("result", callResult result)).get "result").bind
        fun result => (result.get "isError").bind Value.asBool) = some true ↔
      ∃ error, result = .error error := by
  cases result <;> simp [respond, callResult, toolResult, Value.get, Value.asBool]

theorem harmless_call_iff {msg id : Value} (hid : msg.get "id" = some id)
    (hmethod : method msg = "tools/call") :
    (handleMessage w t msg).Harmless ↔
      Refused (callTool w t (calledName msg) (arguments msg)) := by
  rw [handleMessage_call hid hmethod]
  constructor
  · rintro ⟨hunsent, huncreated, hfailed⟩
    exact ⟨hunsent, huncreated, (isError_respond_iff id _).mp (hfailed _ rfl)⟩
  · rintro ⟨hunsent, huncreated, hfailed⟩
    refine ⟨hunsent, huncreated, ?_⟩
    rintro reply ⟨⟩
    exact (isError_respond_iff id _).mpr hfailed

/-- A malformed call is harmless exactly when it is a notification, or the file it
is to upload cannot be read, or no request can be built for it. -/
theorem malformed_harmless_iff (parse : String → Option Value) (w : World) (t : Target)
    (line : String) (msg : Value) (hparse : parse line = some msg) (tool : ToolDef)
    (htool : tool ∈ toolDefs) (h : Malformed msg tool) :
    (handleLine parse w t line).Harmless ↔
      msg.get "id" = none ∨
        (tool.name = "upload_file" ∧
          ¬w.Readable (argument (arguments msg) "local_path")) ∨
        w.Unbuildable (callRequest t tool.name (arguments msg)) := by
  have hline : handleLine parse w t line = handleMessage w t msg := by
    rw [handleLine, hparse]
  have hrequired : tool.required ≠ [] := by
    obtain ⟨key, hkey, -⟩ := h.missing
    exact List.ne_nil_of_mem hkey
  rw [hline]
  cases hid : msg.get "id" with
  | none =>
      have hnothing : handleMessage w t msg = ⟨[], none⟩ := by rw [handleMessage, hid]
      have hharmless : (handleMessage w t msg).Harmless := by
        rw [hnothing]
        exact ⟨fun _ => List.not_mem_nil, fun _ => List.not_mem_nil, by rintro _ ⟨⟩⟩
      simp [hharmless]
  | some id =>
      rw [harmless_call_iff hid h.call, h.name, refused_callTool_iff htool hrequired]
      simp

/-! ## Calls on fixed inputs -/

def emptyCall (tool : ToolDef) : Value :=
  .object [("jsonrpc", .string "2.0"), ("id", .number (.natural 4)),
    ("method", .string "tools/call"),
    ("params", .object [("name", .string tool.name), ("arguments", .object [])])]

/-- A machine without local files in front of a share that takes every request. -/
def sampleWorld : World where
  openFile _ := .error "No such file or directory (os error 2)"
  metadata _ := .error "No such file or directory (os error 2)"
  build _ := .ok ()
  send _ := .ok ⟨204, "No Content", .ok [], []⟩
  createDirs _ := .ok ()
  createFile _ := .ok ()
  write _ := .ok ()
  flush := .ok ()

theorem malformed_emptyCall {tool : ToolDef} (h : tool.required ≠ []) :
    Malformed (emptyCall tool) tool := by
  obtain ⟨key, hkey⟩ := List.exists_mem_of_ne_nil _ h
  exact ⟨rfl, rfl, key, hkey, rfl⟩

theorem malformed_harmless_sample :
    (handleLine (fun _ => some (emptyCall uploadFile)) sampleWorld
      sampleTarget "").Harmless :=
  (malformed_harmless_iff _ sampleWorld sampleTarget "" (emptyCall uploadFile) rfl
    uploadFile
    List.mem_cons_self (malformed_emptyCall (List.cons_ne_nil _ _))).mpr
    (Or.inr (Or.inl ⟨rfl, by rintro ⟨⟨opened, hopened⟩, -⟩; cases hopened⟩))

/-- `delete` without its path is carried out on the directory that the share is. -/
theorem root_is_deleted :
    Malformed (emptyCall deleteTool) deleteTool ∧
      Effect.send (FileTool.delete.request sampleTarget "") ∈
        (handleLine (fun _ => some (emptyCall deleteTool)) sampleWorld
          sampleTarget "").effects ∧
      ¬(handleLine (fun _ => some (emptyCall deleteTool)) sampleWorld sampleTarget
        "").Harmless := by
  have hsent : Effect.send (FileTool.delete.request sampleTarget "") ∈
      (handleLine (fun _ => some (emptyCall deleteTool)) sampleWorld sampleTarget
        "").effects := by
    decide +kernel
  exact ⟨malformed_emptyCall (List.cons_ne_nil _ _), hsent, fun h => h.unsent _ hsent⟩

end Yunpan.Agent
