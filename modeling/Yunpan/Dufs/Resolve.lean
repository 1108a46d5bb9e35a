import Yunpan.Core.Address
import Yunpan.Desktop.Config
import Yunpan.Dufs.Rules

/-!
# Where a request path leads

The file server's arguments come from the document that the desktop writes.  A
request path is decoded, cut into file names as `std::path` does on Unix, freed of
the path prefix, and joined to the shared directory.
-/

namespace Yunpan.Dufs

open Yunpan.Protocol Yunpan.Percent Yunpan.Address Yunpan.Desktop

/-- `encode_uri`: every part percent-encoded, the slashes kept. -/
def encodeUri (text : Text) : List UInt8 :=
  List.intercalate [slash]
    ((text.splitOn '/').map fun part => encode isUnreserved (bytesOf part))

/-- `decode_uri`. -/
def decodeUri (bytes : List UInt8) : Option Text := textOf (decode bytes)

def trimSlashes (text : Text) : Text := Text.trimMatches (· = '/') text

structure Args where
  servePath : Text
  pathIsFile : Bool
  bind : String
  port : UInt16
  pathPrefix : Text
  uriPrefix : List UInt8
  auth : AccessControl
  allowUpload : Bool
  allowDelete : Bool
  allowSearch : Bool
  allowArchive : Bool

/-- What an existing path canonicalises to, and whether it is a file. -/
abbrev FileSystem := Text → Option (Text × Bool)

def uriPrefixOf (pathPrefix : Text) : List UInt8 :=
  if pathPrefix = [] then [slash] else slash :: encodeUri pathPrefix ++ [slash]

/-- The fields that are read, and those that `Args::finalize` derives. -/
def Args.finalize (doc : DufsYaml) (auth : AccessControl) (servePath : Text)
    (pathIsFile : Bool) : Args :=
  let pathPrefix := trimSlashes (doc.pathPrefix.getD "").toList
  { servePath
    pathIsFile
    bind := doc.bind
    port := doc.port
    pathPrefix
    uriPrefix := uriPrefixOf pathPrefix
    auth
    allowUpload := doc.allowUpload
    allowDelete := doc.allowDelete
    allowSearch := doc.allowSearch
    allowArchive := doc.allowArchive }

/-- `Args::from_yaml` on the document of the desktop. -/
def Args.fromYaml (fs : FileSystem) (doc : DufsYaml) : Except String Args := do
  let auth ← AccessControl.new (doc.auth.map String.toList)
  match fs doc.servePath.toList with
  | none => .error ("Path `" ++ doc.servePath ++ "` doesn't exist")
  | some (servePath, pathIsFile) => .ok (finalize doc auth servePath pathIsFile)

/-- What the server is started with of a configuration that was read without an error. -/
theorem Args.fromYaml_ok {fs : FileSystem} {doc : DufsYaml} {args : Args}
    (h : Args.fromYaml fs doc = .ok args) :
    AccessControl.new (doc.auth.map String.toList) = .ok args.auth ∧
      args.pathPrefix = trimSlashes (doc.pathPrefix.getD "").toList ∧
      args.uriPrefix = uriPrefixOf args.pathPrefix := by
  obtain ⟨auth, hauth, h⟩ := bind_eq_ok h
  cases hfs : fs doc.servePath.toList with
  | none =>
      rw [hfs] at h
      cases h
  | some found =>
      rw [hfs] at h
      cases h
      exact ⟨hauth, rfl, rfl⟩

/-- The file names of a relative path; `none` when a component is not a file name.
A dot counts as a component only at the beginning. -/
def normalComponents (path : Text) : Option (List Text) :=
  let parts := (path.splitOn '/').filter fun part => part ≠ []
  if parts.head? = some ['.'] ∨ ['.', '.'] ∈ parts then none
  else some (parts.filter fun part => part ≠ ['.'])

def joinSlash (parts : List Text) : Text := List.intercalate ['/'] parts

namespace Args

variable (args : Args)

def resolvePath (path : List UInt8) : Option Text := do
  let path ← decodeUri path
  let parts ← normalComponents (trimSlashes path)
  let newPath := joinSlash parts
  if args.pathPrefix = [] then some newPath
  else if args.pathPrefix <+: newPath then
    some (trimSlashes (newPath.drop args.pathPrefix.length))
  else none

/-- `PathBuf::join` behind a check for the root of the share. -/
def joinPath (path : Text) : Text :=
  if path = [] then args.servePath
  else if args.servePath.getLast? = some '/' then args.servePath ++ path
  else args.servePath ++ '/' :: path

def fileName : Text := (args.servePath.splitOn '/').getLastD []

/-- The request paths under which a single shared file is served. -/
def singleFileReqPaths : List (List UInt8) :=
  match textOf args.uriPrefix with
  | some uriPrefix =>
      [args.uriPrefix, args.uriPrefix.dropLast, encodeUri (uriPrefix ++ args.fileName)]
  | none => []

/-- The file or directory that a request path stands for.  The server's own pages,
which `handleInternal` answers before the share is looked at, are left out. -/
def locate (path : List UInt8) : Option Text := do
  let relative ← args.resolvePath path
  if args.pathIsFile then
    if path ∈ args.singleFileReqPaths then some args.servePath else none
  else some (args.joinPath relative)

end Args

/-- Pages that the server answers itself. -/
inductive Internal where
  | asset (name : Text)
  | health
  deriving DecidableEq

def dufsVersion : String := "0.46.0"

def assetsPrefix : Text := ("__dufs_v" ++ dufsVersion ++ "__/").toList

def healthCheckPath : Text := "__dufs__/health".toList

/-- `handle_internal`; `none` when the request goes on to the shared files. -/
def handleInternal (path : Text) : Option Internal :=
  if assetsPrefix <+: path then some (.asset (path.drop assetsPrefix.length))
  else if path = healthCheckPath then some .health
  else none

/-! ## Texts and their bytes -/

theorem textOf_bytesOf (text : Text) : textOf (bytesOf text) = some text := by
  rw [textOf, bytesOf, fromUTF8?_utf8, Option.map_some, String.toList_ofList]

theorem bytesOf_append (left right : Text) :
    bytesOf (left ++ right) = bytesOf left ++ bytesOf right := by
  rw [bytesOf, String.ofList_append, utf8_append]
  rfl

theorem bytesOf_joinSlash (parts : List Text) :
    bytesOf (joinSlash parts) = List.intercalate [slash] (parts.map bytesOf) := by
  unfold joinSlash
  induction parts with
  | nil => rfl
  | cons part parts ih =>
      cases parts with
      | nil => simp
      | cons next parts =>
          rw [List.intercalate_cons_cons, bytesOf_append, bytesOf_append, ih,
            List.map_cons,
            List.map_cons, List.map_cons, List.intercalate_cons_cons]
          rfl

/-! ## Paths of file names -/

/-- A name that a file or directory can have. -/
structure IsName (part : Text) : Prop where
  nonempty : part ≠ []
  no_slash : '/' ∉ part
  not_dot : part ≠ ['.']
  not_dots : part ≠ ['.', '.']

/-- Parts that are encoded one by one and joined are decoded as they were. -/
theorem decode_join (parts : List Text) (rest : List UInt8) :
    decode (List.intercalate [slash]
      (parts.map fun part => encode isUnreserved (bytesOf part)) ++ rest) =
      List.intercalate [slash] (parts.map bytesOf) ++ decode rest := by
  induction parts with
  | nil => rfl
  | cons part parts ih =>
      cases parts with
      | nil => simpa using decode_encode_append rfl (bytesOf part) rest
      | cons next parts =>
          rw [List.map_cons] at ih
          calc _ = decode (encode isUnreserved (bytesOf part) ++ (slash ::
                (List.intercalate [slash] (encode isUnreserved (bytesOf next) ::
                parts.map
                  fun part => encode isUnreserved (bytesOf part)) ++ rest))) := by
                simp [List.intercalate_cons_cons]
            _ = bytesOf part ++ slash ::
                (List.intercalate [slash] ((next :: parts).map bytesOf) ++
                  decode rest) := by
                rw [decode_encode_append rfl, decode_cons (by decide), ih]
            _ = _ := by simp [List.intercalate_cons_cons]

/-- Names that are joined are the components of the path again. -/
theorem normalComponents_join {parts : List Text} (h : ∀ part ∈ parts, IsName part) :
    normalComponents (joinSlash parts) = some parts := by
  have hkept : parts.filter (fun part => part ≠ []) = parts := by
    rw [List.filter_eq_self]
    intro part hpart
    simp [(h part hpart).nonempty]
  have hparts :
      ((joinSlash parts).splitOn '/').filter (fun part => part ≠ []) = parts := by
    by_cases hnone : parts = []
    · rw [hnone]
      rfl
    · rw [joinSlash, List.splitOn_intercalate '/' (fun part hpart =>
        (h part hpart).no_slash)
        hnone, hkept]
  have hhead : parts.head? ≠ some ['.'] := fun hdot =>
    (h _ (List.mem_of_head? hdot)).not_dot rfl
  have hdots : ['.', '.'] ∉ parts := fun hdots => (h _ hdots).not_dots rfl
  have hplain : parts.filter (fun part => part ≠ ['.']) = parts := by
    rw [List.filter_eq_self]
    intro part hpart
    simp [(h part hpart).not_dot]
  rw [normalComponents, hparts, if_neg (not_or.mpr ⟨hhead, hdots⟩), hplain]

theorem IsName.head_ne {part : Text} (h : IsName part) (rest : Text) :
    ∀ c ∈ (part ++ rest).head?, decide (c = '/') = false := by
  intro c hc
  rw [List.head?_append_of_ne_nil _ h.nonempty] at hc
  have hmem : c ∈ part := List.mem_of_head? hc
  exact decide_eq_false fun heq => h.no_slash (heq ▸ hmem)

theorem IsName.last_ne {part : Text} (h : IsName part) (front : Text) :
    ∀ c ∈ (front ++ part).getLast?, decide (c = '/') = false := by
  intro c hc
  rw [List.getLast?_append_of_ne_nil _ h.nonempty] at hc
  have hmem : c ∈ part := List.mem_of_getLast? hc
  exact decide_eq_false fun heq => h.no_slash (heq ▸ hmem)

/-- Slashes around a path of names are trimmed, and only they. -/
theorem trimSlashes_join {parts : List Text} (h : ∀ part ∈ parts, IsName part) :
    trimSlashes ('/' :: joinSlash parts) = joinSlash parts := by
  have hhead : ∀ c ∈ (joinSlash parts).head?, decide (c = '/') = false := by
    cases parts with
    | nil => simp [joinSlash]
    | cons part parts =>
        have hpart := h part List.mem_cons_self
        cases parts with
        | nil => simpa [joinSlash] using hpart.head_ne []
        | cons next parts =>
            rw [joinSlash, List.intercalate_cons_cons, List.append_assoc]
            exact hpart.head_ne _
  have hlast : ∀ c ∈ (joinSlash parts).getLast?, decide (c = '/') = false := by
    obtain rfl | ⟨init, last, rfl⟩ := List.eq_nil_or_concat' parts
    · simp [joinSlash]
    · have hname := h last (List.mem_append_right _ List.mem_cons_self)
      have hjoin : List.intercalate ['/'] (init ++ [[] ++ last]) =
          List.intercalate ['/'] (init ++ [[]]) ++ last :=
        Separator.intercalate_concat_append init [] last
      rw [List.nil_append] at hjoin
      rw [joinSlash, hjoin]
      exact hname.last_ne _
  calc trimSlashes ('/' :: joinSlash parts) = trimSlashes (joinSlash parts) := by
        simp [trimSlashes, Text.trimMatches]
    _ = joinSlash parts := Text.trimMatches_eq_self hhead hlast

/-- Without a path prefix the path of some names stands for these names. -/
theorem Args.resolvePath_join {args : Args} (hmount : args.pathPrefix = [])
    {parts : List Text} (h : ∀ part ∈ parts, IsName part) :
    args.resolvePath (slash :: List.intercalate [slash]
      (parts.map fun part => encode isUnreserved (bytesOf part))) =
      some (joinSlash parts) := by
  have hdecode : decodeUri (slash :: List.intercalate [slash]
      (parts.map fun part => encode isUnreserved (bytesOf part))) =
        some ('/' :: joinSlash parts) := by
    have hjoin := decode_join parts []
    rw [List.append_nil, ← bytesOf_joinSlash] at hjoin
    have hbytes : slash :: bytesOf (joinSlash parts) =
        bytesOf ('/' :: joinSlash parts) :=
      (bytesOf_append ['/'] (joinSlash parts)).symm
    rw [decodeUri, decode_cons (by decide), hjoin, decode, List.append_nil, hbytes,
      textOf_bytesOf]
    simp
  rw [resolvePath, hdecode]
  simp [trimSlashes_join h, normalComponents_join h, hmount]

end Yunpan.Dufs
