import Yunpan.Core.BigEndian
import Yunpan.Dufs.Contained
import Yunpan.Dufs.Rules
import Yunpan.Protocol.Ascii

/-!
# Who holds a token

A token is made by a request and stands in for a password in later ones.  Any visitor
may show any text for a token, and what a visitor was answered may be shown by another:
requests are looked at without asking who makes them.
-/

namespace Yunpan.Dufs

open Yunpan.Protocol Yunpan.Percent Yunpan.Separator Program

/-! ## What a token says -/

/-- A token is read back from its hexadecimal digits. -/
theorem hexDecode_hexEncode (bytes : List UInt8) :
    AccessControl.verifyToken.hexDecode (bytesOf (hexEncode bytes).toList) = some bytes := by
  have hvalue : ∀ d < 16, hexValue (UInt8.ofNat (Nat.digitChar d).toNat) = some d := by
    decide
  have hascii : ∀ d < 16, (Nat.digitChar d).toNat < 128 := by decide
  have htext : ∀ c ∈ bytes.flatMap hexByte, c.toNat < 128 := by
    intro c hc
    obtain ⟨b, -, hb⟩ := List.mem_flatMap.mp hc
    have hlt := b.toNat_lt
    obtain rfl | hb := List.mem_cons.mp hb
    · exact hascii _ (by omega)
    · rw [List.mem_singleton.mp hb]
      exact hascii _ (by omega)
  rw [bytesOf, hexEncode, String.toList_ofList, utf8_ascii htext]
  clear htext
  induction bytes with
  | nil => rfl
  | cons b bytes ih =>
      have hlt := b.toNat_lt
      have hsum : 16 * (b.toNat / 16) + b.toNat % 16 = b.toNat := by omega
      rw [List.flatMap_cons, hexByte, List.cons_append, List.cons_append, List.nil_append,
        List.map_cons, List.map_cons, AccessControl.verifyToken.hexDecode, ih, hexPair,
        hvalue _ (by omega), hvalue _ (by omega)]
      simp only [hsum, UInt8.ofNat_toNat]
      rfl

theorem textOf_eq_some {bytes : List UInt8} {text : Text} :
    textOf bytes = some text ↔ bytes = bytesOf text := by
  constructor
  · intro h
    obtain ⟨string, hstring, rfl⟩ := Option.map_eq_some_iff.mp h
    unfold String.fromUTF8? at hstring
    split at hstring
    case isTrue =>
      cases hstring
      rw [bytesOf, String.ofList_toList]
      simp [utf8, String.fromUTF8]
    case isFalse => cases hstring
  · rintro rfl
    exact textOf_bytesOf text

namespace AccessControl

/-- A token that passes is an unexpired time, a user, and a signature for the path and
the time. -/
theorem verifyToken_eq_some {env : Primitives} {self : AccessControl} {token path user : Text}
    {paths : AccessPaths} :
    self.verifyToken env token path = some (user, paths) ↔
      ∃ signature exp pass, signature.length = 64 ∧ exp < u64 ∧
        verifyToken.hexDecode (bytesOf token) =
          some (signature ++ toBe64 exp ++ bytesOf user) ∧
        env.unixMillis ≤ exp ∧ IndexMap.get self.users user = some (pass, paths) ∧
        env.verifySignature user pass (tokenMessage path exp) signature = true := by
  have hwrite (exp : ℕ) : toBe64 exp = BigEndian.write 8 exp := rfl
  have hword : u64 = 256 ^ 8 := rfl
  constructor
  · intro h
    unfold verifyToken at h
    simp only [Option.bind_eq_bind, Option.bind_none, Option.bind_eq_some_iff,
      Option.ite_none_left_eq_some, Option.ite_none_right_eq_some] at h
    obtain ⟨raw, hraw, hlength, hexp, name, hname, ⟨pass, access⟩, hget, hverify, heq⟩ := h
    cases heq
    have hexpLength : ((raw.drop 64).take 8).length = 8 := by
      rw [List.length_take, List.length_drop]
      omega
    refine ⟨raw.take 64, BigEndian.read ((raw.drop 64).take 8), pass, ?_, ?_, ?_,
      Nat.le_of_not_lt hexp, hget, hverify⟩
    · rw [List.length_take]
      omega
    · have hlt := BigEndian.read_lt ((raw.drop 64).take 8)
      rwa [hexpLength, ← hword] at hlt
    · have hbytes := BigEndian.write_read ((raw.drop 64).take 8)
      rw [hexpLength] at hbytes
      rw [hraw, hwrite, hbytes, ← textOf_eq_some.mp hname, List.append_assoc,
        show raw.drop 72 = (raw.drop 64).drop 8 by rw [List.drop_drop], List.take_append_drop,
        List.take_append_drop]
  · rintro ⟨signature, exp, pass, hlength, hexp, hraw, hnow, hget, hverify⟩
    have hexpLength : (toBe64 exp).length = 8 := rfl
    have hread : (toBe64 exp).foldl (fun acc b => 256 * acc + b.toNat) 0 = exp := by
      change BigEndian.read (toBe64 exp) = exp
      rw [hwrite, BigEndian.read_write, ← hword, Nat.mod_eq_of_lt hexp]
    have htail : (signature ++ toBe64 exp ++ bytesOf user).drop 64 =
        toBe64 exp ++ bytesOf user := by
      rw [List.append_assoc, ← hlength, List.drop_left]
    have htake : (signature ++ toBe64 exp ++ bytesOf user).take 64 = signature := by
      rw [List.append_assoc, ← hlength, List.take_left]
    have huser : (signature ++ toBe64 exp ++ bytesOf user).drop 72 = bytesOf user := by
      rw [show 72 = 64 + 8 from rfl, ← List.drop_drop, htail, ← hexpLength, List.drop_left]
    have hlong : ¬(signature ++ toBe64 exp ++ bytesOf user).length < 72 := by
      rw [List.length_append, List.length_append, hlength, hexpLength]
      omega
    unfold verifyToken
    simp only [Option.bind_eq_bind, Option.bind_some, hraw, if_neg hlong, htail, htake, huser,
      show (toBe64 exp ++ bytesOf user).take 8 = toBe64 exp by rw [← hexpLength, List.take_left],
      textOf_bytesOf, hget, hread, if_neg (Nat.not_lt.mpr hnow)]
    exact if_pos hverify

/-- Every account that a rule adds has a name. -/
theorem readRule_named {rules rules' : Rules} {rule : Text}
    (h : readRule rules rule = .ok rules') :
    ∀ account ∈ rules'.accounts, account ∈ rules.accounts ∨ account.1 ≠ [] := by
  unfold readRule at h
  split at h
  case h_1 => cases h
  case h_2 =>
    split at h
    · cases h
    · cases h
      exact fun account haccount => Or.inl haccount
  case h_3 =>
    split at h
    case h_1 =>
      cases h
      exact fun account haccount => Or.inl haccount
    case h_2 user pass _ =>
      split at h
      case isTrue => cases h
      case isFalse hboth =>
        cases h
        intro account haccount
        apply (List.mem_append.mp haccount).imp_right
        intro haccount
        rw [List.mem_singleton.mp haccount]
        exact fun hempty => hboth (Or.inl hempty)

theorem addAccount_empty {anonymous : Option AccessPaths} {self self' : AccessControl}
    {account : Text × Text × Text} (h : addAccount anonymous self account = .ok self') :
    self'.empty = self.empty := by
  obtain ⟨user, pass, paths⟩ := account
  rw [addAccount] at h
  split at h
  · cases h
  · cases h
    rfl

/-- Where there are users, they have names and are asked for them. -/
theorem named_of_new {rawRules : List Text} {self : AccessControl}
    (h : new rawRules = .ok self) {user : Text} {entry : Text × AccessPaths}
    (hget : IndexMap.get self.users user = some entry) :
    user ≠ [] ∧ self.empty = false := by
  unfold new at h
  split at h
  case isTrue =>
    cases h
    cases hget
  case isFalse =>
    obtain ⟨rules, hrules, h⟩ := bind_eq_ok h
    obtain ⟨anonymous, -, haccounts⟩ := bind_eq_ok h
    have hnamed : ∀ account ∈ rules.accounts, account.1 ≠ [] := by
      apply foldlM_invariant (P := fun rules => ∀ account ∈ rules.accounts, account.1 ≠ [])
        _ _ hrules
      · intro s rule s' _ hs hstep account haccount
        obtain hold | hnew := readRule_named hstep account haccount
        · exact hs account hold
        · exact hnew
      · simp
    have hself : (∀ entry ∈ self.users, entry.1 ≠ []) ∧ self.empty = false := by
      apply foldlM_invariant (P := fun self =>
        (∀ entry ∈ self.users, entry.1 ≠ []) ∧ self.empty = false) _ _ haccounts
      · rintro s account s' haccount ⟨hs, hempty⟩ hstep
        refine ⟨fun entry hentry => ?_, (addAccount_empty hstep).trans hempty⟩
        obtain hold | ⟨huser, -⟩ := addAccount_users hstep entry hentry
        · exact hs entry hold
        · rw [huser]
          exact hnamed account haccount
      · simp
    exact ⟨hself.1 _ (IndexMap.mem_of_get hget), hself.2⟩

end AccessControl

/-! ## Requests for tokens -/

/-- A request and the surroundings that it meets. -/
structure Exchange where
  env : Environment
  request : Request

namespace Exchange

/-- When a token expires that the request is answered with. -/
def expires (exchange : Exchange) : ℕ := (exchange.env.unixMillis + tokenExpiration) % u64

def token (exchange : Exchange) : Option Text :=
  IndexMap.get exchange.request.queryParams "token".toList

end Exchange

namespace Server

variable (server : Server)

/-- A request is answered with a token for a path, signed under the key of a user. -/
structure Issues (exchange : Exchange) (path user pass : Text) : Prop where
  resolve : server.resolvePath exchange.request.path = some path
  outer : exchange.request.method = "GET" → handleInternal path = none
  admitted : ∃ visitor access,
    server.guardOf exchange.env exchange.request path = (visitor, some access) ∧
      visitor.getD [] = user
  method : exchange.request.method ≠ "CHECKAUTH" ∧ exchange.request.method ≠ "LOGOUT"
  asked : hasQueryFlag exchange.request.queryParams "tokengen" = true
  account : ∃ paths, IndexMap.get server.auth.users user = some (pass, paths)

variable {server} {exchange : Exchange} {past : List Exchange} {path user pass : Text}
  {paths : AccessPaths}

/-- A request that issues a token is answered with the token and nothing else. -/
theorem Issues.handle_eq (h : server.Issues exchange path user pass) :
    ∃ token res, server.auth.generateToken exchange.env path user = some token ∧
      server.handle exchange.env exchange.request = pure res ∧ res.body = .text token := by
  obtain ⟨hresolve, houter, ⟨visitor, access, hguard, rfl⟩, hmethod, hasked, paths, hget⟩ := h
  have hpage : (if exchange.request.method = "GET" then handleInternal path else none) =
      none := by
    split
    case isTrue hmethod => exact houter hmethod
    case isFalse => rfl
  have hflag : hasQueryFlag (if detectNoscript exchange.request.userAgentText then
      IndexMap.insert exchange.request.queryParams "noscript".toList []
      else exchange.request.queryParams) "tokengen" = true := by
    split
    case isTrue =>
      rw [hasQueryFlag, IndexMap.get_insert, if_neg (by decide)]
      exact hasked
    case isFalse => exact hasked
  have hguarded : ∀ query res, hasQueryFlag query "tokengen" = true → ∃ token res',
      server.auth.generateToken exchange.env path (visitor.getD []) = some token ∧
        server.handleGuarded exchange.env exchange.request path query visitor access res =
          pure res' ∧ res'.body = .text token := by
    intro query res hquery
    rw [handleGuarded, if_neg hmethod.1, if_neg hmethod.2, if_pos hquery, handleTokengen,
      AccessControl.generateToken, hget]
    exact ⟨_, _, rfl, rfl, rfl⟩
  unfold handle
  rw [hresolve]
  dsimp only
  rw [hpage]
  dsimp only
  rw [hguard]
  cases visitor with
  | none => exact hguarded _ _ hflag
  | some name => exact hguarded _ _ hflag

variable (server) in
/-- A signature that a request shows has been made by an earlier one, if it passes. -/
def Unforged (exchange : Exchange) (past : List Exchange) : Prop :=
  ∀ shown signature exp user pass message, exchange.token = some shown →
    AccessControl.verifyToken.hexDecode (bytesOf shown) =
      some (signature ++ toBe64 exp ++ bytesOf user) →
    signature.length = 64 →
    exchange.env.verifySignature user pass message signature = true →
    ∃ other ∈ past, ∃ path, server.Issues other path user pass ∧
      message = tokenMessage path other.expires

/-- Signatures are 64 bytes long and pass in later surroundings. -/
def SignsFor (env : Environment) (later : Primitives) : Prop :=
  ∀ user pass message, (env.sign user pass message).length = 64 ∧
    later.verifySignature user pass message (env.sign user pass message) = true

/-- A token that was generated passes until it expires, for the path it was made for. -/
theorem verifyToken_generateToken {self : AccessControl} {env : Environment}
    {later : Primitives} {token : Text} (hsigns : SignsFor env later)
    (hget : IndexMap.get self.users user = some (pass, paths))
    (htoken : self.generateToken env path user = some token)
    (hnow : later.unixMillis ≤ (env.unixMillis + tokenExpiration) % u64) :
    self.verifyToken later token path = some (user, paths) := by
  rw [AccessControl.generateToken, hget] at htoken
  cases htoken
  exact AccessControl.verifyToken_eq_some.mpr
    ⟨_, _, pass, (hsigns user pass _).1, Nat.mod_lt _ (by decide), hexDecode_hexEncode _, hnow,
      hget, (hsigns user pass _).2⟩

/-- The token stands in for a password, and the rules of its user decide. -/
theorem guardOf_of_token (hempty : server.auth.empty = false)
    (hmethod : exchange.request.method = "GET") {shown : Text}
    (htoken : exchange.token = some shown)
    (hverify : server.auth.verifyToken exchange.env.toPrimitives shown path =
      some (user, paths)) :
    server.guardOf exchange.env exchange.request path =
      (some user, paths.guard path "GET") := by
  have hshown : IndexMap.get exchange.request.queryParams "token".toList = some shown := htoken
  unfold guardOf AccessControl.guard
  rw [hempty, if_neg Bool.false_ne_true, hmethod, if_pos rfl, hshown, Option.bind_some, hverify]

/-- The password of an `OPTIONS` request is not looked at. -/
theorem issues_of_options (hempty : server.auth.empty = false)
    (hmethod : exchange.request.method = "OPTIONS") {header : List UInt8}
    (hheader : exchange.request.authorization = some header)
    (hname : getAuthUser header = some user)
    (hget : IndexMap.get server.auth.users user = some (pass, paths))
    (hresolve : server.resolvePath exchange.request.path = some path)
    (hasked : hasQueryFlag exchange.request.queryParams "tokengen" = true) :
    server.Issues exchange path user pass := by
  have hget' : exchange.request.method ≠ "GET" := by
    rw [hmethod]
    decide
  have hadmitted : server.guardOf exchange.env exchange.request path =
      (some user, some (.new .readOnly)) := by
    unfold guardOf AccessControl.guard
    rw [hempty, if_neg Bool.false_ne_true, if_neg hget', hheader]
    dsimp only
    rw [hname]
    dsimp only
    rw [hget]
    exact if_pos hmethod
  exact
    { resolve := hresolve
      outer := fun hmethod' => absurd hmethod' hget'
      admitted := ⟨some user, _, hadmitted, rfl⟩
      method := by
        rw [hmethod]
        decide
      asked := hasked
      account := ⟨paths, hget⟩ }

end Server

namespace Sample

/-- One user, who has a password. -/
def account : AccessControl where
  empty := false
  useHashedPassword := false
  users := [(['u'], (['p'], .new .readWrite))]
  anonymous := none

theorem account_new : AccessControl.new ["u:p@/:rw".toList] = .ok account := rfl

def keeper : Server := { server with auth := account }

def pad (message : List UInt8) : List UInt8 := (message ++ List.replicate 64 0).take 64

/-- Every signature that is made passes. -/
def signer (unixMillis : ℕ) : Environment :=
  { environment with
    unixMillis
    sign := fun _ _ message => pad message
    verifySignature := fun _ _ message signature => signature = pad message }

theorem signsFor (earlier later : ℕ) :
    Server.SignsFor (signer earlier) (signer later).toPrimitives := by
  refine fun user pass message => ⟨?_, by simp [signer]⟩
  simp [signer, pad]

/-- The header shows a wrong password. -/
def ask : Exchange where
  env := signer 0
  request :=
    { request with
      method := "OPTIONS"
      path := bytesOf "/d/f".toList
      query := [("tokengen".toList, [])]
      authorization := some (utf8 "Basic " ++ Base64.encode (bytesOf "u:x".toList)) }

theorem ask_named :
    getAuthUser (utf8 "Basic " ++ Base64.encode (bytesOf "u:x".toList)) = some ['u'] := by
  decide +kernel

/-- The token that is made for the request. -/
def handed : Text :=
  (hexEncode (pad (tokenMessage "d/f".toList ask.expires) ++ toBe64 ask.expires ++
    bytesOf ['u'])).toList

theorem handed_passes {unixMillis : ℕ} (h : unixMillis ≤ ask.expires) :
    account.verifyToken (signer unixMillis).toPrimitives handed "d/f".toList =
      some (['u'], .new .readWrite) :=
  Server.verifyToken_generateToken (signsFor 0 unixMillis) rfl rfl h

end Sample

namespace Server

variable {server : Server} {exchange : Exchange} {past : List Exchange} {path user pass : Text}
  {paths : AccessPaths}

/-! ## Where a token comes from -/

/-- An `OPTIONS` request that names a user, with whatever password, is answered with a
token that opens the path to anybody who shows it, as the password would. -/
theorem options_token_admits {rules : List Text}
    (hauth : AccessControl.new rules = .ok server.auth)
    (hmethod : exchange.request.method = "OPTIONS") {header : List UInt8}
    (hheader : exchange.request.authorization = some header)
    (hname : getAuthUser header = some user)
    (hget : IndexMap.get server.auth.users user = some (pass, paths))
    (hresolve : server.resolvePath exchange.request.path = some path)
    (hasked : hasQueryFlag exchange.request.queryParams "tokengen" = true) :
    ∃ token res, server.handle exchange.env exchange.request = pure res ∧
      res.body = .text token ∧
      ∀ later : Exchange, later.request.method = "GET" → later.token = some token →
        SignsFor exchange.env later.env.toPrimitives →
        later.env.unixMillis ≤ exchange.expires →
        server.guardOf later.env later.request path =
          (some user, paths.guard path "GET") := by
  have hempty := (AccessControl.named_of_new hauth hget).2
  have hissues := issues_of_options hempty hmethod hheader hname hget hresolve hasked
  obtain ⟨token, res, htoken, hhandle, hbody⟩ := hissues.handle_eq
  refine ⟨token, res, hhandle, hbody, fun later hlater hshown hsigns hnow => ?_⟩
  exact guardOf_of_token hempty hlater hshown
    (verifyToken_generateToken hsigns hget htoken hnow)

theorem options_token_admits_of_wrong :
    ∃ token res, Sample.keeper.handle Sample.ask.env Sample.ask.request = pure res ∧
      res.body = .text token ∧
      ∀ later : Exchange, later.request.method = "GET" → later.token = some token →
        SignsFor Sample.ask.env later.env.toPrimitives →
        later.env.unixMillis ≤ Sample.ask.expires →
        Sample.keeper.guardOf later.env later.request "d/f".toList =
          (some ['u'], some (.new .readWrite)) :=
  @options_token_admits Sample.keeper Sample.ask _ _ _ _ _ Sample.account_new rfl _ rfl
    Sample.ask_named rfl
    (show Sample.keeper.resolvePath (bytesOf "/d/f".toList) = some "d/f".toList by decide) rfl

/-! ## Keeping a token alive -/

/-- A request shows a token and nothing else, and asks for a new one. -/
def renewal (raw : List UInt8) (token : Text) : Request where
  method := "GET"
  path := raw
  query := [("token".toList, token), ("tokengen".toList, [])]
  userAgent := none
  authorization := none
  destination := none
  depth := none
  range := none
  updateRange := none
  conditions := .proceed none false
  pieces := []
  complete := true

variable (server) in
/-- Requests that each show the token that the one before was answered with. -/
inductive Renews (raw : List UInt8) : Text → List Environment → Text → Prop
  | done (token : Text) : Renews raw token [] token
  | more {token next last : Text} {env : Environment} {envs : List Environment}
      {res : Response} :
      server.handle env (renewal raw token) = pure res → res.body = .text next →
      Renews raw next envs last → Renews raw token (env :: envs) last

/-- Surroundings in which a token passes that was made in the ones before. -/
def Follows (earlier later : Environment) : Prop :=
  SignsFor earlier later.toPrimitives ∧
    later.unixMillis ≤ (earlier.unixMillis + tokenExpiration) % u64

/-- A token that is shown in time again and again never expires: no password is asked for
when it is renewed. -/
theorem token_renewed {rules : List Text}
    (hauth : AccessControl.new rules = .ok server.auth) {raw : List UInt8}
    (hresolve : server.resolvePath raw = some path) (houter : handleInternal path = none)
    {access : AccessPaths} (hopen : paths.guard path "GET" = some access)
    {env : Environment} {envs : List Environment} {last : Environment} {token : Text}
    (hverify : server.auth.verifyToken env.toPrimitives token path = some (user, paths))
    (hfollows : (env :: envs ++ [last]).IsChain Follows) :
    ∃ renewed, server.Renews raw token (env :: envs) renewed ∧
      server.auth.verifyToken last.toPrimitives renewed path = some (user, paths) := by
  obtain ⟨-, -, pass, -, -, -, -, hget, -⟩ := AccessControl.verifyToken_eq_some.mp hverify
  have hempty := (AccessControl.named_of_new hauth hget).2
  have hstep {env : Environment} {token : Text}
      (hverify : server.auth.verifyToken env.toPrimitives token path = some (user, paths)) :
      ∃ next res, server.auth.generateToken env path user = some next ∧
        server.handle env (renewal raw token) = pure res ∧ res.body = .text next := by
    let exchange : Exchange := ⟨env, renewal raw token⟩
    have hadmitted : server.guardOf exchange.env exchange.request path =
        (some user, some access) :=
      (guardOf_of_token hempty rfl rfl hverify).trans (congrArg _ hopen)
    have hissues : server.Issues exchange path user pass :=
      { resolve := hresolve
        outer := fun _ => houter
        admitted := ⟨some user, access, hadmitted, rfl⟩
        method := show "GET" ≠ "CHECKAUTH" ∧ "GET" ≠ "LOGOUT" by decide
        asked := rfl
        account := ⟨paths, hget⟩ }
    exact hissues.handle_eq
  induction envs generalizing env token with
  | nil =>
      obtain ⟨next, res, hnext, hhandle, hbody⟩ := hstep hverify
      have hlast := (List.isChain_cons_cons.mp hfollows).1
      exact ⟨next, .more hhandle hbody (.done next),
        verifyToken_generateToken hlast.1 hget hnext hlast.2⟩
  | cons later envs ih =>
      obtain ⟨next, res, hnext, hhandle, hbody⟩ := hstep hverify
      obtain ⟨hlater, hrest⟩ := List.isChain_cons_cons.mp hfollows
      obtain ⟨renewed, hrenews, hpasses⟩ :=
        ih (verifyToken_generateToken hlater.1 hget hnext hlater.2) hrest
      exact ⟨renewed, .more hhandle hbody hrenews, hpasses⟩

theorem token_renewed_of_handed :
    ∃ renewed, Sample.keeper.Renews (bytesOf "/d/f".toList) Sample.handed
        [Sample.signer Sample.ask.expires] renewed ∧
      Sample.keeper.auth.verifyToken (Sample.signer (2 * Sample.ask.expires)).toPrimitives renewed
        "d/f".toList = some (['u'], .new .readWrite) :=
  token_renewed Sample.account_new
    (show Sample.keeper.resolvePath (bytesOf "/d/f".toList) = some "d/f".toList by decide)
    (by decide) (show (AccessPaths.new .readWrite).guard "d/f".toList "GET" = some _ from rfl)
    (Sample.handed_passes (le_refl _))
    (List.isChain_cons_cons.mpr ⟨⟨Sample.signsFor _ _, by decide⟩, by simp⟩)

end Server

end Yunpan.Dufs
