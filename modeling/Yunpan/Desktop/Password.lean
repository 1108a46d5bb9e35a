import Yunpan.Desktop.Config
import Yunpan.Dufs.Rules

/-!
# The password that is enforced

The desktop joins a user name and a password to one rule text, and the file server
takes that text apart again.  What comes out is what went in unless one of them
holds a separator, or the password looks like a stored hash.
-/

namespace Yunpan.Desktop

open Yunpan.Dufs Yunpan.Separator

namespace AppConfig

/-- The user name and the password that the window shows, without blanks around
them. -/
def user (cfg : AppConfig) : Text := (Text.trim cfg.authUser).toList

def pass (cfg : AppConfig) : Text := (Text.trim cfg.authPass).toList

/-- The access control that the file server makes of the configuration. -/
def access (cfg : AppConfig) : Except String AccessControl :=
  AccessControl.new (cfg.toDufsYaml.auth.map String.toList)

end AppConfig

/-- The request shows this user name and this password, or a digest of them. -/
def presents (env : Primitives) (method : String) (user pass : Text)
    (authorization : List UInt8) : Prop :=
  match credential authorization with
  | .basic text => text = some (user ++ ':' :: pass)
  | .digest fields => ∃ map, fields = some map ∧
      digestMatches env method user pass map = true
  | .other => False

/-- A request of this method is let through. -/
def granted (env : Primitives) (access : AccessControl) (path : Text) (method : String)
    (authorization : Option (List UInt8)) (token : Option Text)
    (guardOptions : Bool) : Prop :=
  (access.guard env path method authorization token guardOptions).2.isSome = true

/-- The access control enforces exactly the configured user, password and guest
mode. -/
structure Enforces (env : Primitives) (cfg : AppConfig) (access : AccessControl) :
    Prop where
  guarded : access.empty = false
  one_user : ∃ stored, access.users = [(cfg.user, stored, .new .readWrite)] ∧
    ∀ pass, passwordMatches env pass stored = true ↔ pass = cfg.pass
  guest : access.anonymous = if cfg.guestReadonly then some (.new .readOnly) else none
  writes : ∀ path method authorization token guardOptions,
    isReadonlyMethod method = false →
    granted env access path method authorization token guardOptions →
      ∃ header, authorization = some header ∧
        presents env method cfg.user cfg.pass header

/-- The rules of the configuration are accepted, and they are enforced. -/
def PasswordEnforced (env : Primitives) (cfg : AppConfig) : Prop :=
  ∃ access, cfg.access = .ok access ∧ Enforces env cfg access

/-- No separator and no hash prefix stands where it would be taken for one. -/
structure PlainAccount (user pass : Text) : Prop where
  colon : ':' ∉ user
  user_mark : ¬mark <:+: user
  pass_mark : ¬mark <:+: pass
  hash : ¬hashPrefix <+: pass

/-! ## The rule text -/

/-- The paths of the account's rule, with the mark. -/
def ruleTail : Text := ['@', '/', ':', 'r', 'w']

variable {env : Primitives} {cfg : AppConfig}

theorem auth_texts (h : cfg.authEnabled = true) :
    cfg.toDufsYaml.auth.map String.toList =
      (cfg.user ++ ':' :: cfg.pass ++ ruleTail) ::
        if cfg.guestReadonly then [mark] else [] := by
  have htext :
      (Text.trim cfg.authUser ++ ":" ++ Text.trim cfg.authPass ++ "@/:rw").toList =
      cfg.user ++ ':' :: cfg.pass ++ ruleTail := by
    simp [AppConfig.user, AppConfig.pass, ruleTail]
  rw [AppConfig.toDufsYaml, AppConfig.auth, if_pos h, List.map_cons, htext]
  split <;> rfl

theorem account_nonempty (h : cfg.authEnabled = true) :
    cfg.user ≠ [] ∧ cfg.pass ≠ [] := by
  simpa [AppConfig.authEnabled, AppConfig.user, AppConfig.pass] using h

/-- A mark does not reach over a colon. -/
theorem mark_cases {left right : Text} (h : mark <:+: left ++ ':' :: right) :
    mark <:+: left ∨ mark <:+: right := by
  induction left with
  | nil =>
      rw [List.nil_append, List.infix_cons_iff] at h
      obtain h | h := h
      · obtain ⟨rest, hrest⟩ := h
        cases hrest
      · exact Or.inr h
  | cons c left ih =>
      rw [List.cons_append, List.infix_cons_iff] at h
      obtain h | h := h
      · obtain ⟨rest, hrest⟩ := h
        obtain ⟨rfl, htail⟩ := List.cons.inj hrest
        cases left with
        | nil => cases htail
        | cons d left =>
            obtain ⟨rfl, -⟩ := List.cons.inj htail
            exact Or.inl (List.prefix_append mark left).isInfix
      · exact (ih h).imp_left fun hmark => hmark.trans (List.suffix_cons c left).isInfix

/-! ## A plain account is read back -/

theorem readRule_account {user pass : Text} (h : PlainAccount user pass)
    (huser : user ≠ [])
    (hpass : pass ≠ []) (rules : AccessControl.Rules) :
    AccessControl.readRule rules (user ++ ':' :: pass ++ ruleTail) =
      .ok { rules with
        accounts := rules.accounts ++ [(user, pass, ['/', ':', 'r', 'w'])] } := by
  have hfree : ¬mark <:+: user ++ ':' :: pass := fun hmark =>
    (mark_cases hmark).elim h.user_mark h.pass_mark
  have hsplit := splitAccountPaths_append hfree [':', 'r', 'w']
  have hcolon := splitOnce_append h.colon pass
  obtain ⟨c, user, rfl⟩ := List.exists_cons_of_ne_nil huser
  rw [List.cons_append] at hsplit hcolon
  rw [List.cons_append, AccessControl.readRule, ruleTail, hsplit]
  simp only [hcolon, if_neg (not_or.mpr ⟨huser, hpass⟩)]

/-- One user with everything, and a guest who reads. -/
def soleAccess (user pass : Text) (guest : Bool) : AccessControl where
  empty := false
  useHashedPassword := false
  users := [(user, pass, .new .readWrite)]
  anonymous := if guest then some (.new .readOnly) else none

theorem access_eq (henabled : cfg.authEnabled = true)
    (h : PlainAccount cfg.user cfg.pass) :
    cfg.access = .ok (soleAccess cfg.user cfg.pass cfg.guestReadonly) := by
  obtain ⟨huser, hpass⟩ := account_nonempty henabled
  have hfree : ¬mark <:+: cfg.user ++ ':' :: cfg.pass := fun hmark =>
    (mark_cases hmark).elim h.user_mark h.pass_mark
  have hrule : splitRules [cfg.user ++ ':' :: cfg.pass ++ ruleTail] =
      [cfg.user ++ ':' :: cfg.pass ++ ruleTail] :=
    splitRules_single hfree (by decide) (by decide)
  have hread := readRule_account h huser hpass ⟨none, []⟩
  have hmerge : AccessPaths.default.merge ['/', ':', 'r', 'w'] =
      some (.new .readWrite) := rfl
  have hnohash : decide (hashPrefix <+: cfg.pass) = false := decide_eq_false h.hash
  rw [AppConfig.access, auth_texts henabled, AccessControl.new, if_neg (by simp)]
  cases cfg.guestReadonly with
  | false =>
      simp only [Bool.false_eq_true, if_false, hrule, List.foldlM_cons,
        List.foldlM_nil, hread]
      simp [AccessControl.readAnonymous, AccessControl.addAccount, hmerge, hnohash,
        IndexMap.insert, IndexMap.modify, bind, Except.bind, pure, Except.pure,
        soleAccess]
  | true =>
      have hguest : splitRules [cfg.user ++ ':' :: cfg.pass ++ ruleTail, mark] =
          [cfg.user ++ ':' :: cfg.pass ++ ruleTail, mark] := by
        calc splitRules [cfg.user ++ ':' :: cfg.pass ++ ruleTail, mark]
            = splitRules [cfg.user ++ ':' :: cfg.pass ++ ruleTail] ++
                splitRules [mark] := by
              simp [splitRules]
          _ = [cfg.user ++ ':' :: cfg.pass ++ ruleTail, mark] := by
              rw [hrule]
              rfl
      have hanonymous : ∀ accounts, AccessControl.readRule ⟨none, accounts⟩ mark =
          .ok ⟨some ['/'], accounts⟩ := fun _ => rfl
      have hmergeGuest : AccessPaths.default.merge ['/'] = some (.new .readOnly) := rfl
      have habsorb : AccessPaths.absorbAnon (.new .readWrite) (.new .readOnly)
          (.new .readWrite) .indexOnly .indexOnly = .new .readWrite := rfl
      simp only [if_true, hguest, List.foldlM_cons, List.foldlM_nil, hread]
      simp [hanonymous, AccessControl.readAnonymous, AccessControl.addAccount, hmerge,
        hmergeGuest, habsorb, hnohash, IndexMap.insert, IndexMap.modify, bind,
        Except.bind,
        pure, Except.pure, soleAccess]

/-! ## Only the account may write -/

/-- A write that is let through was checked against the one user's stored password. -/
theorem checked_of_granted {access : AccessControl} {user stored path : Text}
    {method : String} {authorization : Option (List UInt8)} {token : Option Text}
    {guardOptions : Bool} (hempty : access.empty = false)
    (husers : access.users = [(user, stored, .new .readWrite)])
    (hguest : access.anonymous = none ∨ access.anonymous = some (.new .readOnly))
    (hwrite : isReadonlyMethod method = false)
    (h : granted env access path method authorization token guardOptions) :
    ∃ header, authorization = some header ∧
      checkAuth env header method user stored = true := by
  have hget : method ≠ "GET" := by
    rintro rfl
    cases hwrite
  have hoptions : method ≠ "OPTIONS" := by
    rintro rfl
    cases hwrite
  simp only [granted, AccessControl.guard, hempty, Bool.false_eq_true, if_false,
    if_neg hget, hoptions, and_false] at h
  cases authorization with
  | none =>
      obtain hguest | hguest := hguest
      · simp [hguest] at h
      · simp [hguest, AccessPaths.guard_readOnly hwrite] at h
  | some header =>
      refine ⟨header, rfl, ?_⟩
      cases hshown : getAuthUser header with
      | none => simp [hshown] at h
      | some shown =>
          by_cases hsame : user = shown
          · subst hsame
            by_contra hcheck
            simp [hshown, husers, IndexMap.get, hcheck] at h
          · simp [hshown, husers, IndexMap.get, hsame] at h

/-- What passes for a stored password in the clear presents the account. -/
theorem presents_of_checkAuth {header : List UInt8} {method : String} {user pass : Text}
    (hhash : ¬hashPrefix <+: pass) (h : checkAuth env header method user pass = true) :
    presents env method user pass header := by
  unfold checkAuth at h
  unfold presents
  split at h
  case h_1 text hbasic =>
    rw [hbasic]
    split at h
    case h_1 shown given hsplit =>
      obtain ⟨whole, htext, hcolon⟩ := Option.bind_eq_some_iff.mp hsplit
      obtain ⟨rfl, -⟩ := splitOnce_eq_some.mp hcolon
      simp only [Bool.and_eq_true, decide_eq_true_eq, passwordMatches,
        if_neg hhash] at h
      rw [htext, h.1, h.2]
    case h_2 => cases h
  case h_2 fields hdigest =>
    rw [hdigest]
    exact ⟨fields, rfl, h⟩
  case h_3 => cases h
  case h_4 => cases h

theorem enforces_soleAccess (hhash : ¬hashPrefix <+: cfg.pass) :
    Enforces env cfg (soleAccess cfg.user cfg.pass cfg.guestReadonly) where
  guarded := rfl
  one_user := ⟨cfg.pass, rfl, fun pass => by simp [passwordMatches, hhash]⟩
  guest := rfl
  writes := by
    intro path method authorization token guardOptions hwrite hgranted
    have hguest : (soleAccess cfg.user cfg.pass cfg.guestReadonly).anonymous = none ∨
        (soleAccess cfg.user cfg.pass cfg.guestReadonly).anonymous =
          some (.new .readOnly) := by
      cases cfg.guestReadonly
      · exact Or.inl rfl
      · exact Or.inr rfl
    obtain ⟨header, hheader, hcheck⟩ :=
      checked_of_granted rfl rfl hguest hwrite hgranted
    exact ⟨header, hheader, presents_of_checkAuth hhash hcheck⟩

/-! ## What else can come out -/

/-- A stored password is a part of the configured one. -/
theorem infix_of_standsIn {user pass stored : Text}
    (h : StandsIn (user ++ ':' :: pass ++ ruleTail) user stored) :
    stored <:+: pass := by
  obtain ⟨⟨before, after, htext⟩, hcolon, -⟩ := h
  -- the account's colon is the first one of the text or a later one
  have hsuffix : stored ++ '@' :: '/' :: after <:+ pass ++ ruleTail := by
    have hcut : user ++ ':' :: (pass ++ ruleTail) =
        (before ++ user) ++ ':' :: (stored ++ '@' :: '/' :: after) := by
      simpa using htext
    obtain ⟨moved, hbefore, hrest⟩ | ⟨moved, huser, hrest⟩ :=
      List.append_eq_append_iff.mp hcut
    · cases moved with
      | nil => exact (List.cons.inj hrest).2 ▸ List.suffix_rfl
      | cons c moved =>
          obtain ⟨-, hrest⟩ := List.cons.inj hrest
          rw [hrest]
          exact (List.suffix_cons _ _).trans (List.suffix_append _ _)
    · have hlength := congrArg List.length huser
      obtain rfl : moved = [] := by
        rw [← List.length_eq_zero_iff]
        simp only [List.length_append] at hlength
        omega
      exact (List.cons.inj hrest).2 ▸ List.suffix_rfl
  obtain ⟨front, hfront⟩ := hsuffix
  have hcut : pass ++ ruleTail = (front ++ stored) ++ '@' :: '/' :: after := by
    simpa using hfront.symm
  obtain ⟨moved, hstored, hrest⟩ | ⟨moved, hpass, -⟩ :=
    List.append_eq_append_iff.mp hcut
  · cases moved with
    | nil =>
        rw [List.append_nil] at hstored
        exact ⟨front, [], by simpa using hstored⟩
    | cons c moved =>
        have hat : '@' ∈ ['/', ':', 'r', 'w'] := by
          rw [(List.cons.inj hrest).2]
          simp
        exact absurd hat (by decide)
  · exact ⟨front, moved, hpass.symm⟩

theorem standsIn_of_users {access : AccessControl} (henabled : cfg.authEnabled = true)
    (h : cfg.access = .ok access) {user stored : Text} {paths : AccessPaths}
    (hentry : (user, stored, paths) ∈ access.users) :
    StandsIn (cfg.user ++ ':' :: cfg.pass ++ ruleTail) user stored := by
  rw [AppConfig.access, auth_texts henabled] at h
  obtain ⟨raw, hraw, hstands⟩ := AccessControl.users_of_new h _ hentry
  obtain haccount | hraw := List.mem_cons.mp hraw
  · rw [haccount] at hstands
    exact hstands
  · have hmark : raw = mark := by
      split at hraw
      · exact List.mem_singleton.mp hraw
      · cases hraw
    obtain ⟨⟨before, after, htext⟩, -⟩ := hstands
    have hcolon : ':' ∈ mark := by
      rw [← hmark, htext]
      simp
    exact absurd hcolon (by decide)

/-- No password passes for a hash that is written in it. -/
def OneWay (env : Primitives) : Prop :=
  ∀ pass hash, hashPrefix <+: hash → hash <:+: pass →
    env.verifyPassword pass hash = false

/-- If the configured password passes for the stored one, the account is plain. -/
theorem plainAccount_of_matches {access : AccessControl} (hverify : OneWay env)
    (henabled : cfg.authEnabled = true) (haccess : cfg.access = .ok access)
    {stored : Text} {paths : AccessPaths}
    (hmem : (cfg.user, stored, paths) ∈ access.users)
    (hmatches : passwordMatches env cfg.pass stored = true) :
    PlainAccount cfg.user cfg.pass := by
  have hstands := standsIn_of_users henabled haccess hmem
  have hwithin := infix_of_standsIn hstands
  obtain ⟨-, hcolon, hfree⟩ := hstands
  have hnohash : ¬hashPrefix <+: stored := by
    intro hhash
    rw [passwordMatches, if_pos hhash, hverify _ _ hhash hwithin] at hmatches
    cases hmatches
  have hsame : stored = cfg.pass := by
    rw [passwordMatches, if_neg hnohash] at hmatches
    exact (of_decide_eq_true hmatches).symm
  rw [hsame] at hfree hnohash
  exact {
    colon := hcolon
    user_mark := fun hmark => hfree (hmark.trans (List.prefix_append _ _).isInfix)
    pass_mark := fun hmark => hfree (hmark.trans
      ((List.suffix_cons _ _).trans (List.suffix_append _ _)).isInfix)
    hash := hnohash }

/-- The typed password is the enforced one exactly for plain accounts. -/
theorem password_enforced_iff (env : Primitives) (hverify : OneWay env)
    (cfg : AppConfig)
    (henabled : cfg.authEnabled = true) :
    PasswordEnforced env cfg ↔ PlainAccount cfg.user cfg.pass := by
  constructor
  · rintro ⟨access, haccess, henforces⟩
    obtain ⟨stored, husers, hmatches⟩ := henforces.one_user
    have hmem : (cfg.user, stored, AccessPaths.new .readWrite) ∈ access.users := by
      rw [husers]
      exact List.mem_cons_self
    exact plainAccount_of_matches hverify henabled haccess hmem
      ((hmatches cfg.pass).mpr rfl)
  · intro h
    exact ⟨soleAccess cfg.user cfg.pass cfg.guestReadonly, access_eq henabled h,
      enforces_soleAccess h.hash⟩

/-! ## Fixed configurations -/

def samplePrimitives : Primitives where
  md5 := id
  verifyPassword _ _ := false
  verifySignature _ _ _ _ := false
  nonceSeed := []
  unixMillis := 0

def sampleConfig (pass : String) : AppConfig :=
  { AppConfig.default with authUser := "boss ", authPass := pass }

theorem password_enforced_sample :
    PasswordEnforced samplePrimitives (sampleConfig "p@ss|12:345") :=
  (password_enforced_iff samplePrimitives (fun _ _ _ _ => rfl)
    (sampleConfig "p@ss|12:345") (by decide +kernel)).mpr
    ⟨by decide +kernel, by decide +kernel, by decide +kernel, by decide +kernel⟩

/-- Of the password `pa@/ss` only `pa` is enforced. -/
theorem password_cut_short :
    ¬PasswordEnforced samplePrimitives (sampleConfig "pa@/ss") := by
  have hstored : ((sampleConfig "pa@/ss").access.toOption.map fun access =>
      access.users.map fun entry => entry.2.1) = some [['p', 'a']] := by
    decide +kernel
  rintro ⟨access, haccess, henforces⟩
  obtain ⟨stored, husers, hmatches⟩ := henforces.one_user
  rw [haccess] at hstored
  simp only [Except.toOption, Option.map_some, husers, List.map_cons, List.map_nil,
    Option.some.injEq, List.cons.injEq, and_true] at hstored
  have hpass := (hmatches ['p', 'a']).mp (by rw [hstored]; decide +kernel)
  revert hpass
  decide +kernel

end Yunpan.Desktop
