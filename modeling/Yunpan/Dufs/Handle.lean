import Yunpan.Dufs.Listing
import Yunpan.Protocol.Sha256
import Yunpan.Protocol.Signature

/-!
# Handling a request

The handlers in the order in which a request comes to them.  An error that a handler
does not catch is an answer without a body.
-/

namespace Yunpan.Dufs

open Yunpan.Protocol Yunpan.Percent Yunpan.Address Program

def editableTextMaxSize : ℕ := 4194304

def resumableUploadMinSize : ℕ := 20971520

def indexName : Text := "index.html".toList

def number (n : ℕ) : Text := n.repr.toList

/-! ## Tokens

A user can have a token made for a path, which stands in for a password in a `GET`
request until it expires.
-/

def tokenExpiration : ℕ := 1000 * 60 * 60 * 24 * 3

def toBe64 (n : ℕ) : List UInt8 :=
  [7, 6, 5, 4, 3, 2, 1, 0].map fun i => UInt8.ofNat (n / 256 ^ i)

/-- What is signed. -/
def tokenMessage (path : Text) (exp : ℕ) : List UInt8 :=
  bytesOf path ++ utf8 (":" ++ exp.repr)

/-- `generate_token`; `none` is an error for an unknown user. -/
def AccessControl.generateToken (env : Environment) (self : AccessControl)
    (path user : Text) : Option Text :=
  (IndexMap.get self.users user).map fun (pass, _) =>
    let exp := (env.unixMillis + tokenExpiration) % u64
    let raw := env.sign user pass (tokenMessage path exp) ++ toBe64 exp ++ bytesOf user
    (hexEncode raw).toList

/-! ## Files -/

def setValidators (res : Response) : Option (Text × Text) → Response
  | none => res
  | some (etag, lastModified) =>
      ((res.setHeader "cache-control" "no-cache".toList).setHeader
        "last-modified" lastModified).setHeader "etag" etag

def getContentType (env : Environment) (path : Path Text) : Action Text := do
  match ← Fs.read path with
  | some content => return env.contentType path (content.take 1024)
  | none => .fail

def contentRange (start stop size : ℕ) : Text :=
  "bytes ".toList ++ number start ++ ['-'] ++ number stop ++ ['/'] ++ number size

/-- One part of several; `none` when the file ends too early. -/
def rangePart (boundary contentType : Text) (content : List UInt8) (size : ℕ) :
    ℕ × ℕ → Option (List UInt8)
  | (start, stop) =>
      let part := (content.drop start).take (rangeSize start stop)
      if part.length = rangeSize start stop then
        some (bytesOf ("--".toList ++ boundary ++ "\r\nContent-Type: ".toList ++
          contentType ++ "\r\nContent-Range: ".toList ++ contentRange start stop size ++
          "\r\n\r\n".toList) ++ part ++ bytesOf "\r\n".toList)
      else none

def multipart (boundary contentType : Text) (content : List UInt8) (size : ℕ)
    (ranges : List (ℕ × ℕ)) : Option (List UInt8) := do
  let parts ← ranges.mapM (rangePart boundary contentType content size)
  return parts.flatten ++ bytesOf ("--".toList ++ boundary ++ "--\r\n".toList)

/-- The answer with some ranges of a file. -/
def sendRanges (env : Environment) (contentType : Text) (content : List UInt8)
    (size : ℕ) (headOnly : Bool) (res : Response) : List (ℕ × ℕ) → Action Response
  | [(start, stop)] =>
      let size' := rangeSize start stop
      let res := ((res.setStatus 206).setHeader "content-range"
        (contentRange start stop size)).setHeader "content-length" (number size')
      return if headOnly then res
        else res.setBody (.frames
          (lengthLimited size' (env.reads (content.drop start)).1.pieces))
  | ranges =>
      match multipart env.uuid contentType content size ranges with
      | none => .fail
      | some body =>
          let res := ((res.setStatus 206).setHeader "content-type"
            ("multipart/byteranges; boundary=".toList ++ env.uuid)).setHeader
            "content-length" (number body.length)
          return if headOnly then res else res.setBody (.frames [body])

/-- The ranges that a header asks for; none of them when they cannot be had. -/
def requestedRanges (request : Request) (useRange : Bool) (size : ℕ) :
    Option (Option (List (ℕ × ℕ))) :=
  if useRange then
    request.range.map fun range => (headerText range).bind fun range =>
      parseRange range size
  else none

def sendContent (env : Environment) (path : Path Text) (request : Request)
    (headOnly useRange : Bool) (content : List UInt8) (size : ℕ) (res : Response) :
    Action Response := do
  let contentType ← getContentType env path
  let res := res.setHeader "content-type" contentType
  match fileName path with
  | none => .fail
  | some filename =>
      let res := (res.setContentDisposition true filename).setHeader
        "accept-ranges" "bytes".toList
      match requestedRanges request useRange size with
      | some (some ranges) =>
          sendRanges env contentType content size headOnly res ranges
      | some none =>
          return (res.setStatus 416).setHeader "content-range"
            ("bytes */".toList ++ number size)
      | none =>
          let res := res.setHeader "content-length" (number size)
          return if headOnly then res
            else res.setBody (.frames (env.reads content).1.pieces)

def handleSendFile (env : Environment) (path : Path Text) (request : Request)
    (headOnly : Bool) (res : Response) : Action Response := do
  match ← Fs.read path, ← Fs.metadata path with
  | some content, some found =>
      match request.conditions with
      | .preconditionFailed => return res.setStatus 412
      | .notModified => return res.setStatus 304
      | .proceed validators useRange =>
          sendContent env path request headOnly useRange content found.len
            (setValidators res validators)
  | _, _ => .fail

def handleHashFile (path : Path Text) (headOnly : Bool) (res : Response) :
    Action Response := do
  match ← Fs.read path with
  | none => .fail
  | some content =>
      let output := (hexEncode (Sha256.sha256 content)).toList
      let res := (res.setHeader "content-type" "text/html; charset=utf-8".toList).setHeader
        "content-length" (number output.length)
      return if headOnly then res else res.setBody (.text output)

namespace Server

variable (env : Environment) (server : Server)

/-- The path of the shared directory or file. -/
def sharePath : Path Text := components server.servePath

def handleEditFile (path : Path Text) (view headOnly : Bool) (user : Option Text)
    (res : Response) : Action Response := do
  match ← Fs.read path, ← Fs.metadata path, stripPrefix server.sharePath path with
  | some content, some found, some href =>
      let res := (res.setHeader "content-type" "text/html; charset=utf-8".toList).setHeader
        "cache-control" "no-cache".toList
      return if headOnly then res
        else res.setBody (.edit
          { href := '/' :: href
            view
            uriPrefix := server.uriPrefix
            allowUpload := server.allowUpload
            allowDelete := server.allowDelete
            auth := !server.auth.users.isEmpty
            user
            editable := found.len ≤ editableTextMaxSize ∧
              env.isText (content.take 1024) = true })
  | _, _, _ => .fail

def handleFileJson (path : Path Text) (headOnly : Bool) (res : Response) :
    Action Response := do
  match ← server.toPathitem env path server.sharePath with
  | none => .fail
  | some none => return res.notFound
  | some (some item) =>
      let res := res.setHeader "content-type" "application/json".toList
      return if headOnly then res else res.setBody (.item item)

/-! ## Directories -/

def compareType (v1 v2 : PathItem) : Ordering :=
  let value (item : PathItem) := if PathItem.isDir item then 0 else 1
  compare (value v1) (value v2)

def compareItems (sort : Option Text) (v1 v2 : PathItem) : Ordering :=
  (compareType v1 v2).then
    (if sort = none ∨ sort = some "name".toList then
      env.compareName (env.lowercase v1.name) (env.lowercase v2.name)
    else if sort = some "mtime".toList then compare v1.mtime v2.mtime
    else compare v1.size v2.size)

/-- The order of an index; an unknown key leaves the items as they are. -/
def sortItems (query : Query) (paths : List PathItem) : List PathItem :=
  let sort := IndexMap.get query "sort".toList
  let sorted :=
    if sort = none ∨ sort = some "name".toList ∨ sort = some "mtime".toList ∨
        sort = some "size".toList then
      paths.mergeSort fun v1 v2 => compareItems env sort v1 v2 ≠ .gt
    else paths
  if sort ≠ none ∧ IndexMap.get query "order".toList = some "desc".toList then
    sorted.reverse
  else sorted

/-- The lines of a simple index. -/
def simpleIndex (paths : List PathItem) : Text :=
  paths.flatMap fun item =>
    env.escapePcdata item.name ++ (if PathItem.isDir item then ['/'] else []) ++ ['\n']

def sendIndex (path : Path Text) (paths : List PathItem) (exist : Bool) (query : Query)
    (headOnly : Bool) (user : Option Text) (access : AccessPaths) (res : Response) :
    Action Response := do
  let paths := sortItems env query paths
  if hasQueryFlag query "simple" then
    let output := simpleIndex env paths
    return ((res.setHeader "content-type" "text/html; charset=utf-8".toList).setHeader
      "content-length" (number (bytesOf output).length)).setBody
        (.listing [] paths output)
  match stripPrefix server.sharePath path with
  | none => .fail
  | some href =>
      let readwrite := access.perm = .readWrite
      let data : IndexData :=
        { href := '/' :: href
          uriPrefix := server.uriPrefix
          allowUpload := server.allowUpload ∧ readwrite
          allowDelete := server.allowDelete ∧ readwrite
          allowSearch := server.allowSearch
          allowArchive := server.allowArchive
          dirExists := exist
          auth := !server.auth.users.isEmpty
          user
          paths }
      let rendering :=
        if hasQueryFlag query "json" then Rendering.json
        else if hasQueryFlag query "noscript" then .noscript
        else .html
      let contentType := match rendering with
        | .json => "application/json"
        | _ => "text/html; charset=utf-8"
      let res := ((res.setHeader "content-type" contentType.toList).setHeader
        "cache-control" "no-cache".toList).setHeader
        "x-content-type-options" "nosniff".toList
      return if headOnly then res else res.setBody (.index rendering data)

def handleLsDir (path : Path Text) (exist : Bool) (query : Query) (headOnly : Bool)
    (user : Option Text) (access : AccessPaths) (res : Response) : Action Response := do
  if headOnly = false ∧ exist = true then
    match ← server.listDir env path path access with
    | none => return res.forbid
    | some paths => server.sendIndex env path paths exist query headOnly user access res
  else server.sendIndex env path [] exist query headOnly user access res

/-- The items of the paths that a search has found; what has gone is left out. -/
def searchItems (base : Path Text) : List (Path Text) → Action (List PathItem)
  | [] => return []
  | path :: paths => do
      let item ← server.toPathitem env path base
      let rest ← searchItems base paths
      match item with
      | some (some item) => return item :: rest
      | _ => return rest

def handleSearchDir (path : Path Text) (query : Query) (headOnly : Bool)
    (user : Option Text) (access : AccessPaths) (res : Response) : Action Response := do
  match IndexMap.get query ['q'] with
  | none => .fail
  | some search =>
      let search := env.lowercase search
      if search = [] then
        server.handleLsDir env path true query headOnly user access res
      else if headOnly then
        server.sendIndex env path [] true query headOnly user access res
      else
        let found ← server.collectDirEntries env (nameContains env search) env.walkDepth
          access path
        let paths ← server.searchItems env path found
        server.sendIndex env path paths true query headOnly user access res

def handleZipDir (path : Path Text) (headOnly : Bool) (access : AccessPaths)
    (res : Response) : Action Response := do
  match fileName path with
  | none => .fail
  | some filename =>
      let res := (res.setContentDisposition false (filename ++ ".zip".toList)).setHeader
        "content-type" "application/zip".toList
      if headOnly then return res
      return res.setBody (.archive (← server.zipDir env env.walkDepth access path))

def handleRenderIndex (path : Path Text) (request : Request) (query : Query)
    (headOnly : Bool) (user : Option Text) (access : AccessPaths) (res : Response) :
    Action Response := do
  let indexPath := join path indexName
  let found ← Fs.metadata indexPath
  if found.any Metadata.isFile then handleSendFile env indexPath request headOnly res
  else if server.renderTryIndex then
    server.handleLsDir env path true query headOnly user access res
  else return res.notFound

def handleRenderSpa (path : Path Text) (request : Request) (headOnly : Bool)
    (res : Response) : Action Response :=
  if hasExtension path then return res.notFound
  else handleSendFile env (join server.sharePath indexName) request headOnly res

/-! ## WebDAV -/

/-- The link of an item, before the slash that a directory gets. -/
def davHref (uriPrefix name : Text) : List UInt8 := encodeUri (uriPrefix ++ name)

/-- `to_dav_xml`. -/
def toDavXml (uriPrefix : Text) (item : PathItem) : Text :=
  let href := davHref uriPrefix item.name
  let href := if PathItem.isDir item ∧ href.getLast? ≠ some slash then
    href ++ [slash] else href
  let displayname := env.escapePcdata ((item.name.splitOn '/').getLastD [])
  let properties :=
    if PathItem.isDir item then
      "<D:getlastmodified>".toList ++ env.httpDate item.mtime ++
        "</D:getlastmodified>\n<D:resourcetype><D:collection/></D:resourcetype>".toList
    else
      "<D:getcontentlength>".toList ++ number item.size ++
        "</D:getcontentlength>\n<D:getlastmodified>".toList ++ env.httpDate item.mtime ++
        "</D:getlastmodified>\n<D:resourcetype></D:resourcetype>".toList
  "<D:response>\n<D:href>".toList ++ Response.asciiText href ++
    "</D:href>\n<D:propstat>\n<D:prop>\n<D:displayname>".toList ++ displayname ++
    "</D:displayname>\n".toList ++ properties ++
    "\n</D:prop>\n<D:status>HTTP/1.1 200 OK</D:status>\n</D:propstat>\n</D:response>".toList

/-- The depth that a header asks for; without one it is 1. -/
def propfindDepth (depth : Option (List UInt8)) : Option ℕ :=
  match depth with
  | none => some 1
  | some value =>
      match (headerText value).bind (Text.parseNat (2 ^ 32)) with
      | some 0 => some 0
      | some 1 => some 1
      | _ => none

def handlePropfindDir (path : Path Text) (request : Request) (access : AccessPaths)
    (res : Response) : Action Response := do
  match propfindDepth request.depth with
  | none => return res.badRequest "Invalid depth: only 0 and 1 are allowed."
  | some depth =>
      match ← server.toPathitem env path server.sharePath with
      | none => .fail
      | some own =>
          let children ← (if depth = 1 then
            server.listDir env path server.sharePath access else pure (some []))
          match children with
          | none => return res.forbid
          | some children =>
              let uriPrefix := Response.asciiText server.uriPrefix
              return res.multistatus own.toList children
                ((own.toList ++ children).flatMap (toDavXml env uriPrefix))

def handlePropfindFile (path : Path Text) (res : Response) : Action Response := do
  match ← server.toPathitem env path server.sharePath with
  | none => .fail
  | some none => return res.notFound
  | some (some item) =>
      return res.multistatus [item] []
        (toDavXml env (Response.asciiText server.uriPrefix) item)

def handleProppatch (request : Request) (res : Response) : Response :=
  res.multistatus [] [] ("<D:response>\n<D:href>".toList ++ Response.asciiText request.path ++
    "</D:href>\n<D:propstat>\n<D:prop>\n</D:prop>\n".toList ++
    "<D:status>HTTP/1.1 403 Forbidden</D:status>\n</D:propstat>\n</D:response>".toList)

def handleLock (request : Request) (res : Response) : Response :=
  let token :=
    if request.authorization.isSome then "opaquelocktoken:".toList ++ env.uuid
    else number (env.unixMillis / 1000)
  ((res.setHeader "content-type" "application/xml; charset=utf-8".toList).setHeader
    "lock-token" ('<' :: token ++ ['>'])).setBody (.text
    ("<?xml version=\"1.0\" encoding=\"utf-8\"?>\n".toList ++
      "<D:prop xmlns:D=\"DAV:\"><D:lockdiscovery><D:activelock>\n".toList ++
      "<D:locktoken><D:href>".toList ++ token ++
      "</D:href></D:locktoken>\n<D:lockroot><D:href>".toList ++
      Response.asciiText request.path ++
      "</D:href></D:lockroot>\n</D:activelock></D:lockdiscovery></D:prop>".toList))

/-! ## Changes -/

def ensurePathParent (path : Path Text) : Action Unit :=
  match parent path with
  | none => return ()
  | some parent => do
      match ← Fs.symlinkMetadata parent with
      | some _ => return ()
      | none => perform (FileOp.createDirAll parent)

/-- `io::copy` into a file; the first write that is refused ends it. -/
def writeAll (descriptor : ℕ) : List (List UInt8) → Action Bool
  | [] => return true
  | piece :: pieces => do
      match ← attempt (FileOp.write descriptor piece) with
      | some () => writeAll descriptor pieces
      | none => return false

/-- Open the file of an upload: anew, at its end, or at an offset. -/
def openUpload (path : Path Text) (uploadOffset : Option ℕ) (size : ℕ) :
    Action (ℕ × ℕ) := do
  match uploadOffset with
  | none => return (← perform (FileOp.create path), 201)
  | some offset =>
      if offset = size then return (← perform (FileOp.openAppend path), 204)
      else return (← perform (FileOp.openWrite path offset), 204)

def handleUpload (path : Path Text) (uploadOffset : Option ℕ) (size : ℕ)
    (request : Request) (res : Response) : Action Response := do
  ensurePathParent path
  let (descriptor, status) ← openUpload path uploadOffset size
  let written ← writeAll descriptor request.pieces
  let found ← Fs.metadata path
  if written ∧ request.complete then return res.setStatus status
  if uploadOffset = none ∧ (found.map Metadata.len).getD 0 < resumableUploadMinSize then
    let _ ← attempt (FileOp.removeFile path)
  .fail

def handleDelete (path : Path Text) (isDir : Bool) (res : Response) :
    Action Response := do
  if isDir then perform (FileOp.removeDirAll path) else perform (FileOp.removeFile path)
  return res.noContent

def handleMkcol (path : Path Text) (res : Response) : Action Response := do
  perform (FileOp.createDirAll path)
  return res.setStatus 201

/-- `extract_dest`: where a request may put something, or the answer to it. -/
def extractDest (request : Request) (res : Response) : Except Response (Path Text) :=
  match request.destination.bind server.resolvePath with
  | none => .error (res.badRequest "Invalid Destination")
  | some destPath =>
      match server.auth.guard env.toPrimitives destPath request.method
          request.authorization none false with
      | (_, some _) => .ok (server.path destPath)
      | (_, none) => .error res.forbid

def handleCopy (path : Path Text) (request : Request) (res : Response) :
    Action Response := do
  match server.extractDest env request res with
  | .error res => return res
  | .ok dest =>
      match ← Fs.symlinkMetadata path with
      | none => .fail
      | some found =>
          if found.isDir then return res.forbid
          ensurePathParent dest
          if ← server.guardRootContained dest then
            return res.badRequest "Invalid Destination"
          perform (FileOp.copy path dest)
          return res.noContent

def handleMove (path : Path Text) (request : Request) (res : Response) :
    Action Response := do
  match server.extractDest env request res with
  | .error res => return res
  | .ok dest =>
      ensurePathParent dest
      if ← server.guardRootContained dest then
        return res.badRequest "Invalid Destination"
      perform (FileOp.rename path dest)
      return res.noContent

/-! ## The request -/

inductive Verb where
  | fetch
  | options
  | put
  | patch
  | delete
  | propfind
  | proppatch
  | mkcol
  | copy
  | move
  | lock
  | unlock
  | other
  deriving DecidableEq

def verbOf (method : String) : Verb :=
  if method = "GET" ∨ method = "HEAD" then .fetch
  else if method = "OPTIONS" then .options
  else if method = "PUT" then .put
  else if method = "PATCH" then .patch
  else if method = "DELETE" then .delete
  else if method = "PROPFIND" then .propfind
  else if method = "PROPPATCH" then .proppatch
  else if method = "MKCOL" then .mkcol
  else if method = "COPY" then .copy
  else if method = "MOVE" then .move
  else if method = "LOCK" then .lock
  else if method = "UNLOCK" then .unlock
  else .other

/-- What a request has been found to be for. -/
structure Visit where
  path : Path Text
  query : Query
  user : Option Text
  access : AccessPaths
  found : Option Metadata

def Visit.isDir (visit : Visit) : Bool := visit.found.any Metadata.isDir

def Visit.isFile (visit : Visit) : Bool := visit.found.any Metadata.isFile

def Visit.size (visit : Visit) : ℕ := (visit.found.map Metadata.len).getD 0

def fetchDir (visit : Visit) (request : Request) (headOnly : Bool) (res : Response) :
    Action Response :=
  let zip := hasQueryFlag visit.query "zip"
  let search := server.allowSearch ∧ (IndexMap.get visit.query ['q']).isSome = true
  let searchDir :=
    server.handleSearchDir env visit.path visit.query headOnly visit.user visit.access res
  let renderIndex := server.handleRenderIndex env visit.path request visit.query headOnly
    visit.user visit.access res
  if server.renderTryIndex then
    if server.allowArchive ∧ zip then
      server.handleZipDir env visit.path headOnly visit.access res
    else if search then searchDir
    else renderIndex
  else if server.renderIndex ∨ server.renderSpa then renderIndex
  else if zip then
    if server.allowArchive then
      server.handleZipDir env visit.path headOnly visit.access res
    else return res.notFound
  else if search then searchDir
  else
    server.handleLsDir env visit.path true visit.query headOnly visit.user visit.access res

def fetchFile (visit : Visit) (request : Request) (headOnly : Bool) (res : Response) :
    Action Response :=
  let path := visit.path
  if hasQueryFlag visit.query "json" then server.handleFileJson env path headOnly res
  else if hasQueryFlag visit.query "edit" then
    server.handleEditFile env path false headOnly visit.user res
  else if hasQueryFlag visit.query "view" then
    server.handleEditFile env path true headOnly visit.user res
  else if hasQueryFlag visit.query "hash" then
    if server.allowHash then handleHashFile path headOnly res else return res.forbid
  else handleSendFile env path request headOnly res

def fetch (visit : Visit) (request : Request) (res : Response) : Action Response :=
  let headOnly : Bool := request.method = "HEAD"
  if visit.isDir then server.fetchDir env visit request headOnly res
  else if visit.isFile then server.fetchFile env visit request headOnly res
  else if server.renderSpa then
    server.handleRenderSpa env visit.path request headOnly res
  else if server.allowUpload ∧ request.path.getLast? = some slash then
    server.handleLsDir env visit.path false visit.query headOnly visit.user visit.access
      res
  else return res.notFound

/-- `PATCH`.  After the check of what may be overwritten the upload goes on. -/
def handlePatch (visit : Visit) (request : Request) (res : Response) :
    Action Response :=
  if visit.found.isNone then return res.notFound
  else if server.allowUpload = false then return res.forbid
  else
    match parseUploadOffset request.updateRange visit.size with
    | .error text => return res.badRequest text
    | .ok none => return res.setStatus 405
    | .ok (some offset) =>
        let res :=
          if offset < visit.size ∧ server.allowDelete = false then res.forbid else res
        handleUpload visit.path (some offset) visit.size request res

def handlePropfind (visit : Visit) (request : Request) (res : Response) :
    Action Response :=
  if visit.isDir then
    let access :=
      if visit.access.perm = .indexOnly ∧ request.authorization.isNone then
        AccessPaths.new .readOnly
      else visit.access
    server.handlePropfindDir env visit.path request access res
  else if visit.isFile then server.handlePropfindFile env visit.path res
  else return res.notFound

/-- The request for something in a shared directory, by its method. -/
def dispatch (visit : Visit) (request : Request) (res : Response) : Action Response :=
  match verbOf request.method with
  | .fetch => server.fetch env visit request res
  | .options => return res.setWebdavHeaders
  | .put =>
      if visit.isDir ∨ server.allowUpload = false ∨
          server.allowDelete = false ∧ 0 < visit.size then
        return res.forbid
      else handleUpload visit.path none visit.size request res
  | .patch => server.handlePatch visit request res
  | .delete =>
      if server.allowDelete = false then return res.forbid
      else if visit.found.isSome then handleDelete visit.path visit.isDir res
      else return res.notFound
  | .propfind => server.handlePropfind env visit request res
  | .proppatch =>
      return if visit.isFile then handleProppatch request res else res.notFound
  | .mkcol =>
      if server.allowUpload = false then return res.forbid
      else if visit.found.isSome then return (res.setStatus 405).say "Already exists"
      else handleMkcol visit.path res
  | .copy =>
      if server.allowUpload = false then return res.forbid
      else if visit.found.isNone then return res.notFound
      else server.handleCopy env visit.path request res
  | .move =>
      if server.allowUpload = false ∨ server.allowDelete = false then return res.forbid
      else if visit.found.isNone then return res.notFound
      else server.handleMove env visit.path request res
  | .lock => return if visit.isFile then handleLock env request res else res.notFound
  | .unlock => return if visit.found.isNone then res.notFound else res
  | .other => return res.setStatus 405

def authReject (res : Response) : Response :=
  ((res.setWebdavHeaders).setHeader "www-authenticate"
    (wwwAuthenticate env.toPrimitives server.auth)).setStatus 401

def handleCheckauth (query : Query) (user : Option Text) (access : AccessPaths)
    (res : Response) : Response :=
  match user with
  | some user => res.setBody (.text user)
  | none =>
      if hasQueryFlag query "login" ∨ access.perm ≠ .readWrite then
        server.authReject env res
      else res

def handleTokengen (relative : Text) (user : Option Text) (res : Response) :
    Action Response :=
  match server.auth.generateToken env relative (user.getD []) with
  | none => .fail
  | some output =>
      return ((res.setHeader "content-type" "text/plain; charset=utf-8".toList).setHeader
        "content-length" (number output.length)).setBody (.text output)

/-- A request that the guard has let through. -/
def handleGuarded (request : Request) (relative : Text) (query : Query)
    (user : Option Text) (access : AccessPaths) (res : Response) : Action Response := do
  if request.method = "CHECKAUTH" then
    return server.handleCheckauth env query user access res
  if request.method = "LOGOUT" then return server.authReject env res
  if hasQueryFlag query "tokengen" then server.handleTokengen env relative user res
  else if server.pathIsFile then
    if server.singleFileReqPaths.any (· = request.path) then
      handleSendFile env server.sharePath request (request.method = "HEAD") res
    else return res.notFound
  else
    let path := server.path relative
    let found ← Fs.metadata path
    if ← server.guardRootContained path then return res.notFound
    server.dispatch env { path, query, user, access, found } request res

def internalPage (res : Response) : Internal → Response
  | .health =>
      (res.setHeader "content-type" "application/json".toList).setBody
        (.text "\x7b\"status\":\"OK\"\x7d".toList)
  | .asset name =>
      let known (contentType : String) :=
        (res.setHeader "content-type" contentType.toList).setBody (.page name)
      let res :=
        if name = "index.js".toList then known "application/javascript; charset=UTF-8"
        else if name = "index.css".toList then known "text/css; charset=UTF-8"
        else if name = "favicon.ico".toList then known "image/x-icon"
        else res.notFound
      (res.setHeader "cache-control" "public, max-age=31536000, immutable".toList).setHeader
        "x-content-type-options" "nosniff".toList

/-- The user that a request is made for and what it opens. -/
def guardOf (request : Request) (relative : Text) : Option Text × Option AccessPaths :=
  server.auth.guard env.toPrimitives relative request.method request.authorization
    (IndexMap.get request.queryParams "token".toList)
    (isMicrosoftWebdav request.userAgentText)

def handle (request : Request) : Action Response :=
  match server.resolvePath request.path with
  | none => return Response.default.badRequest "Invalid Path"
  | some relative =>
      match if request.method = "GET" then handleInternal relative else none with
      | some page => return internalPage .default page
      | none =>
          let userAgent := request.userAgentText
          let res := if isMicrosoftWebdav userAgent then
            Response.default.setHeader "connection" "close".toList else .default
          match server.guardOf env request relative with
          | (none, none) => return server.authReject env res
          | (some _, none) => return res.forbid
          | (user, some access) =>
              let query := if detectNoscript userAgent then
                IndexMap.insert request.queryParams "noscript".toList []
                else request.queryParams
              server.handleGuarded env request relative query user access res

/-- An error that nothing has caught. -/
def serverError : Response := Response.default.setStatus 500

end Server

end Yunpan.Dufs
