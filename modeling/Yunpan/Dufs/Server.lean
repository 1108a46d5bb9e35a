import Yunpan.Core.Confined
import Yunpan.Core.Reads
import Yunpan.Dufs.Resolve

/-!
# The server, its requests and its answers

What the server reads of a request and sets in an answer.  The file system is
reached through operations only, so that a handler is a program over them.
-/

namespace Yunpan.Dufs

open Yunpan.Protocol Yunpan.Percent Yunpan.Separator

/-- What a handler does with files until it has its result. -/
abbrev Action (α : Type) := Program (FileOp Text) FileOp.Answer α

namespace Fs

abbrev metadata (path : Path Text) : Action (Option Metadata) :=
  Program.attempt (FileOp.metadata path)

abbrev symlinkMetadata (path : Path Text) : Action (Option Metadata) :=
  Program.attempt (FileOp.symlinkMetadata path)

abbrev canonicalize (path : Path Text) : Action (Option (Location Text)) :=
  Program.attempt (FileOp.canonicalize path)

abbrev readDir (path : Path Text) : Action (Option (List Text)) :=
  Program.attempt (FileOp.readDir path)

abbrev read (path : Path Text) : Action (Option (List UInt8)) :=
  Program.attempt (FileOp.read path)

end Fs

/-! ## Paths -/

/-- The components of an absolute path, or of one that is joined to it. -/
def components (text : Text) : Path Text :=
  ((text.splitOn '/').filter fun part => part ≠ [] ∧ part ≠ ['.']).map fun part =>
    if part = ['.', '.'] then .up else .down part

def join (path : Path Text) (name : Text) : Path Text := path ++ components name

def parent (path : Path Text) : Option (Path Text) :=
  if path = [] then none else some path.dropLast

/-- `try_get_file_name`, as far as it succeeds. -/
def fileName (path : Path Text) : Option Text :=
  match path.getLast? with
  | some (.down name) => some name
  | _ => none

def getFileName (path : Path Text) : Text := (fileName path).getD []

/-- `Path::extension` is there. -/
def hasExtension (path : Path Text) : Bool :=
  (fileName path).any fun name => (name.drop 1).contains '.'

/-- `strip_prefix` and then `normalize_path`. -/
def stripPrefix (base path : Path Text) : Option Text :=
  if base <+: path then
    some (joinSlash ((path.drop base.length).map fun move =>
      match move with
      | .up => ['.', '.']
      | .down name => name))
  else none

/-! ## The server -/

/-- The arguments of a server.  The shared path is canonical: it leads through the
names of `root`. -/
structure Server extends Args where
  root : Location Text
  hidden : List Text
  allowSymlink : Bool
  allowHash : Bool
  renderIndex : Bool
  renderSpa : Bool
  renderTryIndex : Bool
  canonical : components toArgs.servePath = Location.path root

/-- The path of the file system that a relative path stands for. -/
def Server.path (server : Server) (relative : Text) : Path Text :=
  components (server.joinPath relative)

/-- The functions of other packages, the clocks, and how the reads of a file cut its
bytes into pieces. -/
structure Environment extends Primitives where
  /-- A signature under the key derived from a user and a password. -/
  sign : (user pass : Text) → (message : List UInt8) → List UInt8
  /-- `glob::Pattern::new` and `matches`; an invalid pattern matches nothing. -/
  glob : (pattern target : Text) → Bool
  /-- `str::to_lowercase`. -/
  lowercase : Text → Text
  /-- `alphanumeric_sort::compare_str`. -/
  compareName : Text → Text → Ordering
  /-- The type of a file by its name and its first 1024 bytes. -/
  contentType : Path Text → List UInt8 → Text
  /-- `content_inspector` takes the bytes for a text. -/
  isText : List UInt8 → Bool
  /-- Milliseconds since the epoch. -/
  mtime : Path Text → ℕ
  httpDate : ℕ → Text
  /-- `Uuid::new_v4`. -/
  uuid : Text
  reads : (content : List UInt8) → { r : Framing.Reads // r.bytes = content }
  /-- `xml::escape::escape_str_pcdata`. -/
  escapePcdata : Text → Text
  /-- As many names as the system takes in a path. -/
  walkDepth : ℕ

/-! ## Requests -/

/-- What the conditions of a request come to for the file that is sent: its entity
tag and time, and whether ranges are looked at. -/
inductive Conditions where
  | preconditionFailed
  | notModified
  | proceed (validators : Option (Text × Text)) (useRange : Bool)

/-- `query` holds the decoded pairs, `destination` the path of the URI in the header
of that name, `pieces` what is written of the body, and `complete` tells whether the
body has come to its end. -/
structure Request where
  method : String
  path : List UInt8
  query : List (Text × Text)
  userAgent : Option (List UInt8)
  authorization : Option (List UInt8)
  destination : Option (List UInt8)
  depth : Option (List UInt8)
  range : Option (List UInt8)
  updateRange : Option (List UInt8)
  conditions : Conditions
  pieces : List (List UInt8)
  complete : Bool

/-- `HeaderValue::to_str`. -/
def headerText (value : List UInt8) : Option Text :=
  if value.all fun b => (32 ≤ b && b < 127) || b = 9 then
    some (value.map fun b => Char.ofNat b.toNat)
  else none

abbrev Query := List (Text × Text)

/-- A key that stands there twice has its last value. -/
def Request.queryParams (request : Request) : Query :=
  request.query.foldl (fun params (key, value) => IndexMap.insert params key value) []

def hasQueryFlag (query : Query) (name : String) : Bool :=
  IndexMap.get query name.toList = some []

def Request.userAgentText (request : Request) : Text :=
  ((request.userAgent.bind headerText).getD []).map Char.toLower

def isMicrosoftWebdav (userAgent : Text) : Bool :=
  "microsoft-webdav-miniredir/".toList.isPrefixOf userAgent

def detectNoscript (userAgent : Text) : Bool :=
  ["lynx/", "w3m/", "links ", "elinks/", "curl/", "wget/", "httpie/", "aria2/"].any
    fun agent => agent.toList.isPrefixOf userAgent

/-! ## Ranges -/

def u64 : ℕ := 2 ^ 64

def parseSpec (size : ℕ) (range : Text) : Option (ℕ × ℕ) := do
  let (start, stop) ← splitOnce '-' (Text.trimMatches Text.isWhitespace range)
  if start = [] then
    let offset ← Text.parseNat u64 stop
    if offset ≤ size then some (size - offset, (size + (u64 - 1)) % u64) else none
  else
    let start ← Text.parseNat u64 start
    if start < size then
      if stop = [] then some (start, size - 1)
      else
        let stop ← Text.parseNat u64 stop
        if stop < size ∧ start ≤ stop then some (start, stop) else none
    else none

def parseRange (range : Text) (size : ℕ) : Option (List (ℕ × ℕ)) := do
  let (unit, ranges) ← splitOnce '=' range
  if unit ≠ "bytes".toList then none
  else (ranges.splitOn ',').mapM (parseSpec size)

/-- `end - start + 1` on machine words. -/
def rangeSize (start stop : ℕ) : ℕ := (stop + 1 + (u64 - start)) % u64

/-- `parse_upload_offset`; the error is the text of a bad request. -/
def parseUploadOffset (updateRange : Option (List UInt8)) (size : ℕ) :
    Except String (Option ℕ) :=
  match updateRange with
  | none => .ok none
  | some value =>
      match headerText value with
      | none => .error "Invalid X-Update-Range Header"
      | some value =>
          if value = "append".toList then .ok (some size)
          else
            match (parseRange value size).bind List.head? with
            | some (start, _) => .ok (some start)
            | none => .error "Invalid X-Update-Range Header"

/-- `LengthLimitedStream`: pass the reads on until so many bytes have come. -/
def lengthLimited : ℕ → List (List UInt8) → List (List UInt8)
  | _, [] => []
  | remaining, piece :: pieces =>
      if remaining = 0 then []
      else piece.take remaining :: lengthLimited (remaining - piece.length) pieces

/-! ## Answers -/

inductive PathType where
  | dir
  | symlinkDir
  | file
  | symlinkFile
  deriving DecidableEq

structure PathItem where
  pathType : PathType
  name : Text
  mtime : ℕ
  size : ℕ
  deriving DecidableEq

structure IndexData where
  href : Text
  uriPrefix : List UInt8
  allowUpload : Bool
  allowDelete : Bool
  allowSearch : Bool
  allowArchive : Bool
  dirExists : Bool
  auth : Bool
  user : Option Text
  paths : List PathItem

structure EditData where
  href : Text
  view : Bool
  uriPrefix : List UInt8
  allowUpload : Bool
  allowDelete : Bool
  auth : Bool
  user : Option Text
  editable : Bool

/-- How an index is shown; the pages themselves are templates. -/
inductive Rendering where
  | json
  | noscript
  | html

/-- A `listing` is a text that is made of items: of the one that was asked for, and of
others. -/
inductive Body where
  | text (content : Text)
  | listing (own others : List PathItem) (content : Text)
  | frames (pieces : List (List UInt8))
  | page (name : Text)
  | index (rendering : Rendering) (data : IndexData)
  | edit (data : EditData)
  | item (item : PathItem)
  | archive (entries : List (Text × List UInt8))

/-- The bytes of a body that is not made from a template. -/
def Body.bytes : Body → Option (List UInt8)
  | .text content => some (bytesOf content)
  | .listing _ _ content => some (bytesOf content)
  | .frames pieces => some pieces.flatten
  | _ => none

structure Response where
  status : ℕ
  headers : List (String × Text)
  body : Body

namespace Response

def default : Response where
  status := 200
  headers := []
  body := .text []

variable (res : Response)

def setStatus (status : ℕ) : Response := { res with status }

def setBody (body : Body) : Response := { res with body }

def setHeader (name : String) (value : Text) : Response :=
  { res with headers := IndexMap.insert res.headers name value }

def say (text : String) : Response := res.setBody (.text text.toList)

def forbid : Response := (res.setStatus 403).say "Forbidden"

def notFound : Response := (res.setStatus 404).say "Not Found"

def noContent : Response := res.setStatus 204

def badRequest (text : String) : Response :=
  let res := res.setStatus 400
  if text = "" then res else res.say text

def setWebdavHeaders : Response :=
  let res := res.setHeader "allow"
    "GET,HEAD,PUT,OPTIONS,DELETE,PATCH,PROPFIND,COPY,MOVE,CHECKAUTH,LOGOUT".toList
  res.setHeader "dav" "1, 2, 3".toList

/-- `res_multistatus`. -/
def multistatus (own others : List PathItem) (content : Text) : Response :=
  ((res.setStatus 207).setHeader "content-type"
    "application/xml; charset=utf-8".toList).setBody
    (.listing own others ("<?xml version=\"1.0\" encoding=\"utf-8\" ?>\n".toList ++
      "<D:multistatus xmlns:D=\"DAV:\">\n".toList ++ content ++
      "\n</D:multistatus>".toList))

def asciiText (bytes : List UInt8) : Text := bytes.map fun b => Char.ofNat b.toNat

def isControl (c : Char) : Bool := c.toNat < 32 || c.toNat = 127

def setContentDisposition (inline : Bool) (filename : Text) : Response :=
  let kind := (if inline then "inline" else "attachment").toList
  let filename := filename.map fun c => if isControl c ∧ c ≠ '\t' then ' ' else c
  let quoted := kind ++ "; filename=\"".toList ++ filename ++ "\"".toList
  res.setHeader "content-disposition"
    (if filename.all fun c => c.toNat < 128 then quoted
     else quoted ++ "; filename*=UTF-8''".toList ++ asciiText (encodeUri filename))

end Response

/-- `create_nonce`. -/
def createNonce (env : Primitives) : List UInt8 :=
  let secs := env.unixMillis / 1000 % 2 ^ 32
  ((List.range 8).map fun i => hexLower (secs / 16 ^ (7 - i) % 16)) ++
    (env.md5 (env.nonceSeed ++ Framing.toBe32 secs)).take 26
where
  hexLower (digit : ℕ) : UInt8 :=
    UInt8.ofNat (if digit < 10 then 48 + digit else 87 + digit)

/-- `www_authenticate`: the values of the header. -/
def wwwAuthenticate (env : Primitives) (auth : AccessControl) : Text :=
  let basic := "Basic realm=\"".toList ++ realm ++ "\"".toList
  if auth.useHashedPassword then basic
  else
    "Digest realm=\"".toList ++ realm ++ "\", nonce=\"".toList ++
      Response.asciiText (createNonce env) ++ "\", qop=\"auth\", ".toList ++ basic

end Yunpan.Dufs
