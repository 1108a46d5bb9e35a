import Mathlib.Data.List.Infix
import Yunpan.Dufs.Credentials
import Yunpan.Dufs.Paths

/-!
# Access control

The rules of the configuration are taken apart by their separators: `|` between
rules, the first `@/` between an account and its paths, the first `:` between a
user and a password.  `AccessControl.guard` then decides every request.
-/

namespace Yunpan.Dufs

open Yunpan.Protocol Yunpan.Percent Yunpan.Separator

structure AccessControl where
  empty : Bool
  useHashedPassword : Bool
  users : List (Text × (Text × AccessPaths))
  anonymous : Option AccessPaths

/-- What stands between an account and its paths. -/
def mark : Text := ['@', '/']

/-- Cut before the slash of the first mark. -/
def splitAccountPaths : Text → Option (Text × Text)
  | '@' :: '/' :: rest => some ([], '/' :: rest)
  | c :: rest => (splitAccountPaths rest).map fun (account, paths) =>
      (c :: account, paths)
  | [] => none

/-- The loop of `split_rules` over the parts of one rule text: a part with a mark
completes a rule, any other part is put back with its bar. -/
def splitParts (concated : Text) : List Text → List Text
  | [] => if concated = [] then [] else [concated]
  | part :: rest =>
      if mark <:+: part then (concated ++ part) :: splitParts [] rest
      else splitParts (concated ++ part ++ if rest = [] then [] else ['|']) rest

def splitRules (rules : List Text) : List Text :=
  rules.flatMap fun rule => splitParts [] (rule.splitOn '|')

namespace AccessControl

def default : AccessControl where
  empty := true
  useHashedPassword := false
  users := []
  anonymous := some (.new .readWrite)

/-- The anonymous paths and the accounts that were read so far. -/
structure Rules where
  anonymous : Option Text
  accounts : List (Text × Text × Text)

/-- One rule.  An account without a colon is passed over. -/
def readRule (rules : Rules) (rule : Text) : Except String Rules :=
  match splitAccountPaths rule with
  | none => .error ("Invalid auth `" ++ String.ofList rule ++ "`")
  | some ([], paths) =>
      if rules.anonymous.isSome then
        .error "Invalid auth, no duplicate anonymous rules"
      else .ok { rules with anonymous := some paths }
  | some (account, paths) =>
      match splitOnce ':' account with
      | none => .ok rules
      | some (user, pass) =>
          if user = [] ∨ pass = [] then
            .error ("Invalid auth `" ++ String.ofList rule ++ "`")
          else .ok { rules with accounts := rules.accounts ++ [(user, pass, paths)] }

def readAnonymous : Option Text → Except String (Option AccessPaths)
  | none => .ok none
  | some paths =>
      match AccessPaths.default.merge paths with
      | some accessPaths => .ok (some accessPaths)
      | none => .error ("Invalid auth value `@" ++ String.ofList paths)

def addAccount (anonymous : Option AccessPaths) (self : AccessControl) :
    Text × Text × Text → Except String AccessControl
  | (user, pass, paths) =>
      match AccessPaths.default.merge paths with
      | none => .error ("Invalid auth value `" ++ String.ofList user ++ ":" ++
          String.ofList pass ++ "@" ++ String.ofList paths ++ "`")
      | some own =>
          let accessPaths := match anonymous with
            | some anon => own.absorbAnon anon own .indexOnly .indexOnly
            | none => own
          .ok { self with
            useHashedPassword := self.useHashedPassword || decide (hashPrefix <+: pass)
            users := IndexMap.insert self.users user (pass, accessPaths) }

def new (rawRules : List Text) : Except String AccessControl :=
  if rawRules = [] then .ok default
  else do
    let rules ← (splitRules rawRules).foldlM readRule ⟨none, []⟩
    let anonymous ← readAnonymous rules.anonymous
    rules.accounts.foldlM (addAccount anonymous)
      { empty := false, useHashedPassword := false, users := [], anonymous }

/-- `verify_token`: the user for whom an unexpired token for this path was signed. -/
def verifyToken (env : Primitives) (self : AccessControl) (token path : Text) :
    Option (Text × AccessPaths) := do
  let raw ← hexDecode (bytesOf token)
  if raw.length < 72 then none
  let exp := (raw.drop 64).take 8 |>.foldl (fun acc b => 256 * acc + b.toNat) 0
  if exp < env.unixMillis then none
  let user ← textOf (raw.drop 72)
  let (pass, accessPaths) ← IndexMap.get self.users user
  let message := bytesOf path ++ utf8 (":" ++ exp.repr)
  if env.verifySignature user pass message (raw.take 64) then some (user, accessPaths)
  else none
where
  /-- `hex::decode`. -/
  hexDecode : List UInt8 → Option (List UInt8)
    | [] => some []
    | [_] => none
    | hi :: lo :: rest => do
        let byte ← hexPair hi lo
        let bytes ← hexDecode rest
        return byte :: bytes

/-- The user a request is made for, and the paths it may use; no paths means that
it is turned away. -/
def guard (env : Primitives) (self : AccessControl) (path : Text) (method : String)
    (authorization : Option (List UInt8)) (token : Option Text) (guardOptions : Bool) :
    Option Text × Option AccessPaths :=
  if self.empty then (none, some (.new .readWrite))
  else
    match if method = "GET" then token.bind fun token => self.verifyToken env token path
      else none with
    | some (user, accessPaths) => (some user, accessPaths.guard path method)
    | none =>
        match authorization with
        | some authorization =>
            match getAuthUser authorization with
            | none => (none, none)
            | some user =>
                match IndexMap.get self.users user with
                | none => (none, none)
                | some (pass, accessPaths) =>
                    if method = "OPTIONS" then (some user, some (.new .readOnly))
                    else if checkAuth env authorization method user pass then
                      (some user, accessPaths.guard path method)
                    else (none, none)
        | none =>
            if guardOptions = false ∧ method = "OPTIONS" then
              (none, some (.new .readOnly))
            else
              match self.anonymous with
              | some accessPaths => (none, accessPaths.guard path method)
              | none => (none, none)

/-- A request with a header is made for the user that the header names, if the
password that it shows passes for the stored one. -/
theorem guard_user_iff {env : Primitives} {self : AccessControl} {path : Text}
    {method : String} (hmethod : method ≠ "OPTIONS") {header : List UInt8}
    {guardOptions : Bool} {user : Text} :
    (self.guard env path method (some header) none guardOptions).1 = some user ↔
      self.empty = false ∧ getAuthUser header = some user ∧
        ∃ pass paths, IndexMap.get self.users user = some (pass, paths) ∧
          checkAuth env header method user pass = true := by
  unfold guard
  cases self.empty with
  | true => simp
  | false =>
      simp only [Option.bind_none, ite_self, Bool.false_eq_true, if_false,
        if_neg hmethod]
      cases getAuthUser header with
      | none => simp
      | some shown =>
          cases hget : IndexMap.get self.users shown with
          | none =>
              simp only [hget, Option.some.injEq, reduceCtorEq, true_and, false_iff]
              rintro ⟨rfl, pass, paths, hsome, -⟩
              cases hget.symm.trans hsome
          | some entry =>
              obtain ⟨stored, paths⟩ := entry
              by_cases hcheck : checkAuth env header method shown stored = true
              · simp only [hget, if_pos hcheck, Option.some.injEq, true_and]
                constructor
                · rintro rfl
                  exact ⟨rfl, stored, paths, hget, hcheck⟩
                · exact fun h => h.1
              · simp only [hget, if_neg hcheck, Option.some.injEq, reduceCtorEq,
                  true_and,
                  false_iff]
                rintro ⟨rfl, pass, paths', hsome, hpass⟩
                cases hget.symm.trans hsome
                exact hcheck hpass

end AccessControl

end Yunpan.Dufs
