import Yunpan.Core.Base64
import Yunpan.Core.Framing
import Yunpan.Core.IndexMap
import Yunpan.Core.Percent
import Yunpan.Core.Text
import Yunpan.Protocol.Json

/-!
# Credentials in an `Authorization` header

A visitor shows a user name and a password either in the clear or as a digest of
them.  The hash functions are parameters; everything that decides which text they are
applied to is here.
-/

namespace Yunpan.Dufs

open Yunpan.Protocol Yunpan.Percent Yunpan.Separator Yunpan.Framing

/-- The functions of other packages, and what one server process draws at random
or reads off the clock. -/
structure Primitives where
  /-- The hexadecimal MD5 digest. -/
  md5 : List UInt8 → List UInt8
  /-- `ShaCrypt::SHA512.verify_password` of a password and a stored hash. -/
  verifyPassword : Text → Text → Bool
  /-- A signature under the key derived from a user and a password. -/
  verifySignature : (user pass : Text) → (message signature : List UInt8) → Bool
  /-- The bytes that went into `NONCESTARTHASH`. -/
  nonceSeed : List UInt8
  unixMillis : ℕ

def bytesOf (text : Text) : List UInt8 := utf8 (String.ofList text)

def textOf (bytes : List UInt8) : Option Text :=
  (String.fromUTF8? ⟨bytes.toArray⟩).map String.toList

/-! ## The fields of a digest -/

/-- Where commas end the fields and where equals signs divide them, outside quotes. -/
def scanFields (i : ℕ) (esc : Bool) : List UInt8 → List ℕ × List ℕ
  | [] => ([i], [])
  | c :: rest =>
      let (sep, assign) := scanFields (i + 1) (if c = 34 then !esc else esc) rest
      if c = 61 ∧ esc = false then (sep, i :: assign)
      else if c = 44 ∧ esc = false then (i :: sep, assign)
      else (sep, assign)

def slice (bytes : List UInt8) (start stop : ℕ) : List UInt8 :=
  (bytes.take stop).drop start

/-- `none` is a refusal or a panic on an index out of range. -/
def readFields (header : List UInt8) (ret : List (List UInt8 × List UInt8)) :
    ℕ → List (ℕ × ℕ) → Option (List (List UInt8 × List UInt8))
  | _, [] => some ret
  | i, (k, a) :: rest =>
      let i := i + ((header.drop i).takeWhile (· = 32)).length
      if header.length ≤ i ∨ a ≤ i ∨ k ≤ 1 + a then none
      else
        let quoted := header[1 + a]? = some 34 ∧ header[k - 1]? = some 34
        if quoted ∧ k - 1 < 2 + a then none
        else
          let value := if quoted then slice header (2 + a) (k - 1)
            else slice header (1 + a) k
          readFields header (IndexMap.insert ret (slice header i a) value) (1 + k) rest

def toHeadermap (header : List UInt8) : Option (List (List UInt8 × List UInt8)) :=
  let (sep, assign) := scanFields 0 false header
  readFields header [] 0 (sep.zip assign)

/-- `u32::from_str_radix(_, 16)` of at most eight characters. -/
def parseHex32 (text : List UInt8) : Option ℕ :=
  let digits := match text with
    | 43 :: rest => rest
    | _ => text
  if digits = [] then none
  else digits.foldlM (fun acc b => (hexValue b).map fun digit => 16 * acc + digit) 0

def digestAuthTimeout : ℕ := 60 * 60 * 24 * 7

/-- The nonce was made by this process, less than seven days ago. -/
def validateNonce (env : Primitives) (nonce : List UInt8) : Bool :=
  if nonce.length ≠ 34 ∨ (textOf nonce).isNone then false
  else
    match parseHex32 (nonce.take 8) with
    | none => false
    | some secs =>
        let now := env.unixMillis / 1000 % 2 ^ 32
        secs ≤ now ∧ (env.md5 (env.nonceSeed ++ toBe32 secs)).take 26 = nonce.drop 8 ∧
          now - secs < digestAuthTimeout

def realm : Text := ['D', 'U', 'F', 'S']

/-- The response that proves knowledge of a password. -/
def digestResponse (env : Primitives) (method : String) (user pass : Text)
    (fields : List (List UInt8 × List UInt8)) (nonce : List UInt8) : List UInt8 :=
  let field (name : String) := IndexMap.get fields (utf8 name)
  let colon : List UInt8 := [58]
  let ha1 := env.md5 (bytesOf (user ++ ':' :: realm ++ ':' :: pass))
  let ha2 := env.md5 (utf8 method ++ colon ++ (field "uri").getD [])
  let plain := env.md5 (ha1 ++ colon ++ nonce ++ colon ++ ha2)
  match field "qop" with
  | some qop =>
      if qop = utf8 "auth" ∨ qop = utf8 "auth-int" then
        env.md5 (ha1 ++ colon ++ nonce ++ colon ++ (field "nc").getD [] ++ colon ++
          (field "cnonce").getD [] ++ colon ++ qop ++ colon ++ ha2)
      else plain
  | none => plain

/-! ## The header -/

inductive Credential where
  /-- The text that base64 covered. -/
  | basic (text : Option Text)
  | digest (fields : Option (List (List UInt8 × List UInt8)))
  | other

def credential (authorization : List UInt8) : Credential :=
  if utf8 "Basic " <+: authorization then
    .basic ((Base64.decode (authorization.drop 6)).bind textOf)
  else if utf8 "Digest " <+: authorization then
    .digest (toHeadermap (authorization.drop 7))
  else .other

def getAuthUser (authorization : List UInt8) : Option Text :=
  match credential authorization with
  | .basic text => text.map fun text => (text.splitOn ':').headD []
  | .digest fields => do
      let fields ← fields
      let username ← IndexMap.get fields (utf8 "username")
      textOf username
  | .other => none

def hashPrefix : Text := ['$', '6', '$']

/-- Whether a password in the clear passes for a stored one. -/
def passwordMatches (env : Primitives) (pass authPass : Text) : Bool :=
  if hashPrefix <+: authPass then env.verifyPassword pass authPass else pass = authPass

/-- A valid digest of a user name and a password. -/
def digestMatches (env : Primitives) (method : String) (user pass : Text)
    (fields : List (List UInt8 × List UInt8)) : Bool :=
  let field (name : String) := IndexMap.get fields (utf8 name)
  match (field "username").bind textOf, field "nonce", field "response" with
  | some username, some nonce, some response =>
      validateNonce env nonce && decide (user = username) &&
        decide (digestResponse env method user pass fields nonce = response)
  | _, _, _ => false

def checkAuth (env : Primitives) (authorization : List UInt8) (method : String)
    (authUser authPass : Text) : Bool :=
  match credential authorization with
  | .basic text =>
      match text.bind (splitOnce ':') with
      | some (user, pass) => user = authUser && passwordMatches env pass authPass
      | none => false
  | .digest (some fields) => digestMatches env method authUser authPass fields
  | .digest none => false
  | .other => false

end Yunpan.Dufs
