import Yunpan.Agent.Target
import Yunpan.Desktop.Password
import Yunpan.Dufs.Resolve
import Yunpan.Protocol.Ascii

/-!
# The agent finds the share

The agent reads the desktop's configuration file on its own and makes an address
and credentials of it.  Whether these lead to the file server that the desktop
started from the same configuration is a matter of both.
-/

namespace Yunpan.Agent

open Yunpan.Protocol Yunpan.Percent Yunpan.Address Yunpan.Desktop Yunpan.Dufs

/-- What the agent finds at the place of the configuration file. -/
inductive ConfigFile where
  | noDirectory
  | unreadable (path : String)
  | malformed (error : String)
  | parsed (value : Value)

structure Environment where
  baseUrl : Option String
  user : Option String
  pass : Option String
  config : ConfigFile

/-- A string of the configuration without the blanks around it, if anything is
left. -/
def trimmedField (cfg : Value) (key : String) : Option String :=
  (((cfg.get key).bind Value.asStr).map Text.trim).filter fun text => text ≠ ""

def Target.ofConfig (cfg : Value) : Target :=
  let port := (((cfg.get "port").bind Value.asU64).map UInt64.toNat).getD 5000
  let user := trimmedField cfg "auth_user"
  { baseUrl := "http://127.0.0.1:" ++ port.repr
    user
    pass := (trimmedField cfg "auth_pass").filter fun _ => user.isSome }

def Target.resolve (env : Environment) : Except String Target :=
  match env.baseUrl with
  | some baseUrl =>
      .ok {
        baseUrl := String.ofList (baseUrl.toList.reverse.dropWhile (· = '/')).reverse
        user := env.user.filter fun text => text ≠ ""
        pass := env.pass.filter fun text => text ≠ "" }
  | none =>
      match env.config with
      | .noDirectory => .error "找不到系统配置目录"
      | .unreadable path =>
          .error ("读不到云链盘配置 " ++ path ++ "。要么先在桌面端跑一次云链盘，" ++
            "要么用 YUNPAN_BASE_URL 环境变量直接指定地址")
      | .malformed error => .error error
      | .parsed cfg => .ok (.ofConfig cfg)

def Method.name : Method → String
  | .get => "GET"
  | .put => "PUT"
  | .delete => "DELETE"
  | .mkcol => "MKCOL"

/-- The `Authorization` header of a request. -/
def Request.authorization (request : Request) : Option (List UInt8) :=
  request.basicAuth.map fun (user, pass) =>
    utf8 "Basic " ++ Base64.encode (utf8 (user ++ ":" ++ pass))

/-! ## Agreement -/

/-- The port that the file server listens on: a configured zero lets the system
choose one. -/
def listenPort (cfg : AppConfig) (chosen : UInt16) : UInt16 :=
  if cfg.port = 0 then chosen else cfg.port

/-- The path of a request as the file server receives it. -/
def requestPath (url : List UInt8) : Option (List UInt8) :=
  (parseUrl url).map fun parsed => parsed.path.flatMap fun segment => slash :: segment

def named (remotePath : String) : Text :=
  joinSlash ((pathSegments remotePath).map String.toList)

/-- The agent's target leads to the file server: same port, same files, the health
page, and the configured user. -/
structure Agrees (env : Primitives) (cfg : AppConfig) (args : Args) (chosen : UInt16)
    (t : Target) : Prop where
  reached : t.baseUrl = "http://127.0.0.1:" ++ (listenPort cfg chosen).toNat.repr
  located : ∀ remotePath, (∀ text ∈ pathSegments remotePath, text ≠ "." ∧ text ≠ "..") →
    (requestPath (t.url remotePath)).bind args.locate =
      some (args.joinPath (named remotePath))
  online : ((requestPath (statusRequest t).url).bind args.resolvePath).bind
    handleInternal =
    some .health
  authenticated : cfg.authEnabled = true → ∀ path (method : Method) url guardOptions,
    (args.auth.guard env path method.name
      (t.request method url).authorization none guardOptions).1 = some cfg.user

/-- A port of its own, no path prefix, a directory, and a plain account if any. -/
structure Plain (cfg : AppConfig) (args : Args) : Prop where
  port : cfg.port ≠ 0
  no_prefix : trimSlashes (cfg.pathPrefix.getD "").toList = []
  directory : args.pathIsFile = false
  account : cfg.authEnabled = true → PlainAccount cfg.user cfg.pass

/-! ## The local address -/

/-- The address of this machine at a port. -/
def localBase (port : ℕ) : BaseUrl where
  secure := false
  authority := utf8 "127.0.0.1:" ++ utf8 port.repr
  pathPrefix := []
  authority_ne := by
    intro h
    have hempty := (List.append_eq_nil_iff.mp h).1
    revert hempty
    decide +kernel
  authority_plain := by
    have hdigit : ∀ b : UInt8, 48 ≤ b ∧ b ≤ 57 → 32 < b ∧ endsAuthority b = false := by
      apply forall_byte
      decide +kernel
    have hhost : ∀ b ∈ utf8 "127.0.0.1:", 32 < b ∧ endsAuthority b = false := by
      decide +kernel
    intro b hb
    obtain hb | hb := List.mem_append.mp hb
    · exact hhost b hb
    · exact hdigit b (mem_utf8_repr hb)
  prefix_rooted := by simp
  prefix_open := by simp
  prefix_plain := by simp

theorem localBase_text (port : ℕ) :
    utf8 ("http://127.0.0.1:" ++ port.repr) = (localBase port).text := by
  have hstart : utf8 "http://127.0.0.1:" =
      http ++ colon :: slash :: slash :: utf8 "127.0.0.1:" := by
    decide +kernel
  rw [utf8_append, hstart]
  simp [BaseUrl.text, BaseUrl.scheme, localBase]

variable {cfg : AppConfig}

theorem ofConfig_baseUrl :
    (Target.ofConfig cfg.toJson).baseUrl =
      "http://127.0.0.1:" ++ cfg.port.toNat.repr := by
  have hport : (((cfg.toJson.get "port").bind Value.asU64).map UInt64.toNat).getD 5000 =
      cfg.port.toNat := by
    simp [AppConfig.toJson, Value.get, portValue, Value.asU64]
  rw [← hport]
  rfl

theorem trimmedField_user (h : Text.trim cfg.authUser ≠ "") :
    trimmedField cfg.toJson "auth_user" = some (String.ofList cfg.user) := by
  simp [trimmedField, AppConfig.toJson, Value.get, Value.asStr, AppConfig.user, h,
    Option.filter]

theorem trimmedField_pass (h : Text.trim cfg.authPass ≠ "") :
    trimmedField cfg.toJson "auth_pass" = some (String.ofList cfg.pass) := by
  simp [trimmedField, AppConfig.toJson, Value.get, Value.asStr, AppConfig.pass, h,
    Option.filter]

theorem ofConfig_user (config : Value) :
    (Target.ofConfig config).user = trimmedField config "auth_user" := rfl

theorem ofConfig_pass (config : Value) : (Target.ofConfig config).pass =
    (trimmedField config "auth_pass").filter
      fun _ => (trimmedField config "auth_user").isSome := rfl

theorem ofConfig_credentials (henabled : cfg.authEnabled = true) :
    (Target.ofConfig cfg.toJson).user = some (String.ofList cfg.user) ∧
      (Target.ofConfig cfg.toJson).pass = some (String.ofList cfg.pass) := by
  obtain ⟨huser, hpass⟩ : Text.trim cfg.authUser ≠ "" ∧
      Text.trim cfg.authPass ≠ "" := by
    simpa [AppConfig.authEnabled] using henabled
  constructor
  · rw [ofConfig_user, trimmedField_user huser]
  · rw [ofConfig_pass, trimmedField_user huser, trimmedField_pass hpass]
    rfl

/-- A request for a path without dot segments names the path's parts. -/
theorem requestPath_url {t : Target} {base : BaseUrl}
    (hbase : utf8 t.baseUrl = base.text)
    (hroot : base.path = []) {remotePath : String}
    (h : ∀ text ∈ pathSegments remotePath, text ≠ "." ∧ text ≠ "..") :
    requestPath (t.url remotePath) =
      some (slash ::
        List.intercalate [slash] ((pathSegments remotePath).map urlencode)) := by
  rw [requestPath, parseUrl_url hbase, hroot]
  by_cases hnone : pathSegments remotePath = []
  · simp [hnone, pathState, finish_plain isPlain_nil, encode]
  · have hne : (pathSegments remotePath).map urlencode ≠ [] := by simpa using hnone
    simp only [Option.map_some, pathState_plain [] hnone h, List.nil_append,
      flatMap_slash hne]

theorem isName_of_mem {remotePath : String}
    (h : ∀ text ∈ pathSegments remotePath, text ≠ "." ∧ text ≠ "..") :
    ∀ part ∈ (pathSegments remotePath).map String.toList, IsName part := by
  intro part hpart
  obtain ⟨text, htext, rfl⟩ := List.mem_map.mp hpart
  obtain ⟨hdot, hdots⟩ := h text htext
  obtain ⟨source, hsource, rfl⟩ := List.mem_map.mp htext
  have hmem := (List.mem_filter.mp hsource).1
  have hofList : ∀ literal : String, String.ofList source ≠ literal →
      (String.ofList source).toList ≠ literal.toList :=
    fun literal hne heq => hne (String.toList_inj.mp heq)
  exact {
    nonempty := hofList "" (pathSegments_ne htext)
    no_slash := by simpa using Separator.not_mem_of_mem_splitOn hmem
    not_dot := hofList "." hdot
    not_dots := hofList ".." hdots }

theorem map_urlencode (texts : List String) :
    texts.map urlencode =
      (texts.map String.toList).map fun part => encode isUnreserved (bytesOf part) := by
  simp [urlencode, bytesOf]

/-! ## What the file server makes of the requests -/

theorem located_of_plain {args : Args} (hmount : args.pathPrefix = [])
    (hdirectory : args.pathIsFile = false) {t : Target} {base : BaseUrl}
    (hbase : utf8 t.baseUrl = base.text) (hroot : base.path = []) {remotePath : String}
    (h : ∀ text ∈ pathSegments remotePath, text ≠ "." ∧ text ≠ "..") :
    (requestPath (t.url remotePath)).bind args.locate =
      some (args.joinPath (named remotePath)) := by
  have hresolve := Args.resolvePath_join hmount (isName_of_mem h)
  rw [← map_urlencode] at hresolve
  rw [requestPath_url hbase hroot h, Option.bind_some, Args.locate, hresolve]
  simp [hdirectory, named]

/-- The root of the share is only found without a path prefix. -/
theorem no_prefix_of_located {args : Args} {t : Target} {base : BaseUrl}
    (hbase : utf8 t.baseUrl = base.text) (hroot : base.path = [])
    (h : ∀ remotePath, (∀ text ∈ pathSegments remotePath, text ≠ "." ∧ text ≠ "..") →
      (requestPath (t.url remotePath)).bind args.locate =
        some (args.joinPath (named remotePath))) : args.pathPrefix = [] := by
  have hempty : pathSegments "" = [] := by decide +kernel
  have hplain : ∀ text ∈ pathSegments "", text ≠ "." ∧ text ≠ ".." := by simp [hempty]
  have hroot := requestPath_url hbase hroot hplain
  have hlocated := h "" hplain
  rw [hroot, hempty] at hlocated
  by_contra hmount
  have hdecode : decodeUri [slash] = some ['/'] := by decide +kernel
  have hparts : normalComponents (trimSlashes ['/']) = some [] := by decide +kernel
  have hnone : args.resolvePath [slash] = none := by
    rw [Args.resolvePath, hdecode]
    simp [hparts, joinSlash, hmount]
  simp [Args.locate, hnone] at hlocated

/-- Below a single file nothing is found. -/
theorem directory_of_located {args : Args} {t : Target}
    (h : ∀ remotePath, (∀ text ∈ pathSegments remotePath, text ≠ "." ∧ text ≠ "..") →
      (requestPath (t.url remotePath)).bind args.locate =
        some (args.joinPath (named remotePath))) : args.pathIsFile = false := by
  have hlocated := h "x" (by decide +kernel)
  have hname : named "x" = ['x'] := by decide +kernel
  obtain ⟨path, -, hpath⟩ := Option.bind_eq_some_iff.mp hlocated
  obtain ⟨relative, -, hfound⟩ := Option.bind_eq_some_iff.mp hpath
  by_contra hfile
  rw [if_pos (Bool.eq_true_of_not_eq_false hfile), hname] at hfound
  split at hfound
  case isTrue =>
    have hlength := congrArg List.length (Option.some.inj hfound)
    simp only [Args.joinPath, List.cons_ne_nil, if_false] at hlength
    split at hlength <;> simp at hlength
  case isFalse => cases hfound

theorem online_of_plain {args : Args} (hmount : args.pathPrefix = []) {t : Target}
    {base : BaseUrl} (hbase : utf8 t.baseUrl = base.text) (hroot : base.path = []) :
    ((requestPath (statusRequest t).url).bind args.resolvePath).bind handleInternal =
      some .health := by
  have hpath : requestPath (statusRequest t).url =
      some (utf8 "/__dufs__/health") := by
    have hurl :
        (statusRequest t).url = base.text ++ slash :: utf8 "__dufs__/health" := by
      rw [← hbase]
      rfl
    have hfree : ∀ b ∈ utf8 "__dufs__/health", 32 < b ∧ b ≠ question ∧
        b ≠ hashSign := by
      decide +kernel
    have hstate : pathState [] [] (utf8 "__dufs__/health") =
        [utf8 "__dufs__", utf8 "health"] := by
      decide +kernel
    have hflat :
        ([utf8 "__dufs__", utf8 "health"].flatMap fun segment => slash :: segment) =
        utf8 "/__dufs__/health" := by
      decide +kernel
    rw [requestPath, hurl, base.parseUrl_text hfree, hroot, hstate,
      Option.map_some, hflat]
  have hnames : ∀ part ∈ ["__dufs__".toList, "health".toList], IsName part := by
    intro part hpart
    obtain rfl | hpart := List.mem_cons.mp hpart
    · exact ⟨by decide +kernel, by decide +kernel, by decide +kernel, by decide +kernel⟩
    · obtain rfl := List.mem_singleton.mp hpart
      exact ⟨by decide +kernel, by decide +kernel, by decide +kernel, by decide +kernel⟩
  have hresolve := Args.resolvePath_join hmount hnames
  have hbytes : slash :: List.intercalate [slash]
      (["__dufs__".toList, "health".toList].map fun part =>
        encode isUnreserved (bytesOf part)) = utf8 "/__dufs__/health" := by
    decide +kernel
  rw [hbytes] at hresolve
  rw [hpath, Option.bind_some, hresolve]
  decide +kernel

theorem credential_basic (text : Text) :
    credential (utf8 "Basic " ++ Base64.encode (bytesOf text)) =
      .basic (some text) := by
  have hlength : (utf8 "Basic ").length = 6 := by decide +kernel
  have hdrop : (utf8 "Basic " ++ Base64.encode (bytesOf text)).drop 6 =
      Base64.encode (bytesOf text) := by
    rw [← hlength, List.drop_left]
  rw [credential, if_pos (List.prefix_append _ _), hdrop, Base64.decode_encode,
    Option.bind_some,
    textOf_bytesOf]

/-- The header of a request with credentials. -/
theorem authorization_eq {t : Target} {user pass : Text}
    (huser : t.user = some (String.ofList user))
    (hpass : t.pass = some (String.ofList pass)) (method : Method) (url : List UInt8) :
    (t.request method url).authorization =
      some (utf8 "Basic " ++ Base64.encode (bytesOf (user ++ ':' :: pass))) := by
  have htext : String.ofList user ++ ":" ++ String.ofList pass =
      String.ofList (user ++ ':' :: pass) := by
    simp [String.append_assoc]
  simp only [Request.authorization, Target.request, huser, hpass, Option.bind_eq_bind,
    Option.bind_some, Option.pure_def, Option.map_some, htext, bytesOf]

/-- A header names what stands before the first colon of its text. -/
theorem getAuthUser_basic {header : List UInt8} {user pass : Text}
    (hheader : credential header = .basic (some (user ++ ':' :: pass))) :
    getAuthUser header = some user ↔ ':' ∉ user := by
  simp only [getAuthUser, hheader, Option.map_some, Option.some.injEq]
  constructor
  · intro h
    cases hparts : (user ++ ':' :: pass).splitOn ':' with
    | nil => exact absurd hparts (List.splitOn_ne_nil _ _)
    | cons first rest =>
        rw [hparts, List.headD_cons] at h
        rw [← h]
        exact Separator.not_mem_of_mem_splitOn (hparts ▸ List.mem_cons_self)
  · intro h
    rw [List.splitOn_append_cons_self_of_not_mem h, List.headD_cons]

theorem checkAuth_basic {env : Primitives} {header : List UInt8} {user pass : Text}
    (hheader : credential header = .basic (some (user ++ ':' :: pass)))
    (hcolon : ':' ∉ user) (method : String) (stored : Text) :
    checkAuth env header method user stored = passwordMatches env pass stored := by
  simp [checkAuth, hheader, Separator.splitOnce_append hcolon]

theorem Method.name_ne (method : Method) : method.name ≠ "OPTIONS" := by
  cases method <;> decide

/-- The agent and the desktop agree exactly when the configuration is plain. -/
theorem agrees_iff (env : Primitives) (hverify : OneWay env) (fs : FileSystem)
    (chosen : UInt16) (hchosen : chosen ≠ 0) (cfg : AppConfig) (args : Args)
    (hargs : Args.fromYaml fs cfg.toDufsYaml = .ok args)
    (user pass : Option String) (t : Target)
    (ht : Target.resolve ⟨none, user, pass, .parsed cfg.toJson⟩ = .ok t) :
    Agrees env cfg args chosen t ↔ Plain cfg args := by
  obtain rfl : Target.ofConfig cfg.toJson = t := Except.ok.inj ht
  obtain ⟨hauth, hmount, -⟩ := Args.fromYaml_ok hargs
  have hbase : utf8 (Target.ofConfig cfg.toJson).baseUrl =
      (localBase cfg.port.toNat).text := by
    rw [ofConfig_baseUrl, localBase_text]
  have hheader (henabled : cfg.authEnabled = true) (method : Method)
      (url : List UInt8) :
      ∃ header, ((Target.ofConfig cfg.toJson).request method url).authorization =
          some header ∧
        credential header = .basic (some (cfg.user ++ ':' :: cfg.pass)) := by
    obtain ⟨huser, hpass⟩ := ofConfig_credentials henabled
    exact ⟨_, authorization_eq huser hpass method url, credential_basic _⟩
  constructor
  · intro h
    exact {
      port := by
        intro hzero
        have hreached := h.reached
        rw [ofConfig_baseUrl, listenPort, if_pos hzero] at hreached
        have hrepr : cfg.port.toNat.repr = chosen.toNat.repr := by
          apply String.toList_inj.mp
          simpa using congrArg String.toList hreached
        have hport := UInt16.toNat_inj.mp (Separator.repr_injective hrepr)
        exact hchosen (hport.symm.trans hzero)
      no_prefix := hmount ▸ no_prefix_of_located hbase rfl h.located
      directory := directory_of_located h.located
      account := by
        intro henabled
        obtain ⟨header, hrequest, hcredential⟩ := hheader henabled .get []
        have hguard := h.authenticated henabled [] .get [] false
        rw [hrequest, AccessControl.guard_user_iff (Method.name_ne _)] at hguard
        obtain ⟨-, huser, stored, paths, hget, hcheck⟩ := hguard
        have hcolon := (getAuthUser_basic hcredential).mp huser
        rw [checkAuth_basic hcredential hcolon] at hcheck
        exact plainAccount_of_matches hverify henabled hauth
          (IndexMap.mem_of_get hget) hcheck }
  · intro h
    have hnone : args.pathPrefix = [] := hmount.trans h.no_prefix
    exact {
      reached := by rw [ofConfig_baseUrl, listenPort, if_neg h.port]
      located := fun remotePath => located_of_plain hnone h.directory hbase rfl
      online := online_of_plain hnone hbase rfl
      authenticated := by
        intro henabled path method url guardOptions
        obtain ⟨header, hrequest, hcredential⟩ := hheader henabled method url
        have hplain := h.account henabled
        have haccess : args.auth = soleAccess cfg.user cfg.pass cfg.guestReadonly :=
          Except.ok.inj (hauth.symm.trans (access_eq henabled hplain))
        rw [hrequest, AccessControl.guard_user_iff (Method.name_ne _), haccess]
        refine ⟨rfl, (getAuthUser_basic hcredential).mpr hplain.colon, cfg.pass,
          .new .readWrite, by simp [soleAccess, IndexMap.get], ?_⟩
        rw [checkAuth_basic hcredential hplain.colon]
        simp [passwordMatches, hplain.hash] }

/-! ## Fixed configurations -/

def sharedConfig (pathPrefix : Bool) : AppConfig :=
  { AppConfig.default with
    servePath := "/srv/share"
    authUser := "boss"
    authPass := "12345678"
    relay :=
      { RelaySettings.default with enabled := true, clientId := "mac", pathPrefix } }

def sharedArgs (cfg : AppConfig) : Args :=
  .finalize cfg.toDufsYaml (soleAccess cfg.user cfg.pass cfg.guestReadonly)
    "/srv/share".toList false

theorem fromYaml_shared (pathPrefix : Bool) :
    Args.fromYaml (fun _ => some ("/srv/share".toList, false))
      (sharedConfig pathPrefix).toDufsYaml =
        .ok (sharedArgs (sharedConfig pathPrefix)) := by
  have hchecked : ∀ b, ':' ∉ (sharedConfig b).user ∧ ¬mark <:+: (sharedConfig b).user ∧
      ¬mark <:+: (sharedConfig b).pass ∧ ¬hashPrefix <+: (sharedConfig b).pass ∧
        (sharedConfig b).authEnabled = true := by
    decide +kernel
  obtain ⟨hcolon, huser, hpass, hhash, henabled⟩ := hchecked pathPrefix
  have hauth := access_eq henabled ⟨hcolon, huser, hpass, hhash⟩
  rw [AppConfig.access] at hauth
  rw [Args.fromYaml, hauth]
  rfl

theorem agrees_sample :
    Agrees samplePrimitives (sharedConfig false) (sharedArgs (sharedConfig false)) 1024
      (Target.ofConfig (sharedConfig false).toJson) :=
  (agrees_iff samplePrimitives (fun _ _ _ _ => rfl) _ 1024 (by decide)
    (sharedConfig false)
    (sharedArgs (sharedConfig false)) (fromYaml_shared false) none none _ rfl).mpr {
      port := by decide
      no_prefix := by decide +kernel
      directory := rfl
      account := fun _ =>
        ⟨by decide +kernel, by decide +kernel, by decide +kernel, by decide +kernel⟩ }

/-- In path-prefix mode the agent asks for paths without the prefix. -/
theorem prefix_not_asked_for :
    ¬Agrees samplePrimitives (sharedConfig true) (sharedArgs (sharedConfig true)) 1024
      (Target.ofConfig (sharedConfig true).toJson) := by
  intro h
  have hlocated := h.located "a.txt" (by decide +kernel)
  have hnone :
      (requestPath ((Target.ofConfig (sharedConfig true).toJson).url "a.txt")).bind
      (sharedArgs (sharedConfig true)).locate = none := by
    decide +kernel
  rw [hnone] at hlocated
  cases hlocated

end Yunpan.Agent
