import Yunpan.Relay.Config

/-!
# The relay's side of the handshake

`handle_incoming` reads two frames.  The first names the protocol version and
the role, the second answers the challenge.  An identity that is not registered
goes through the whole exchange like a registered one: its token is `none`, and
only the final comparison fails.
-/

namespace Yunpan.Relay

open Yunpan.Protocol

/-- Where `handle_incoming` stands on one connection. -/
inductive Incoming where
  | hello
  | auth (proto : UInt16) (role : Role) (token : Option String) (nonceHex : String)
  | pass (role : Role)
  | closed
  deriving DecidableEq

/-- `yunpan-relay/` and the version of the tunnel crate. -/
def serverName : String := "yunpan-relay/0.1.0"

def versionMismatch (proto : UInt16) : String :=
  "协议版本不一致：中继 " ++ protoVersion.toNat.repr ++ "，客户端 " ++ proto.toNat.repr

def authRejected : String := "客户端 ID 或令牌不正确"

def RelayConfig.token (cfg : RelayConfig) (clientId : String) : Option String :=
  (cfg.client clientId).map ClientAuth.token

/-- The answer to the first frame and where it leads when it could be written;
`none` closes the connection without a word. -/
def handleHello (cfg : RelayConfig) (nonce : Nonce) :
    ClientMsg → Option (ServerMsg × Incoming)
  | .hello proto role _ =>
      if proto ≠ protoVersion then
        some (.authErr (versionMismatch proto), .closed)
      else
        some (.challenge nonce.hex,
          .auth proto role (cfg.token role.clientId) nonce.hex)
  | _ => none

/-- Whether the response is accepted: `unwrap_or(false)` covers the client that
does not exist. -/
def accepts (hmac : Hmac) (proto : UInt16) (role : Role) (token : Option String)
    (nonceHex mac : String) : Bool :=
  (token.map fun t => verify hmac t proto role nonceHex mac).getD false

def handleAuth (hmac : Hmac) (cfg : RelayConfig) (proto : UInt16) (role : Role)
    (token : Option String) (nonceHex : String) :
    ClientMsg → Option (ServerMsg × Incoming)
  | .auth mac =>
      if accepts hmac proto role token nonceHex mac then
        some (.authOk serverName cfg.heartbeatSecs, .pass role)
      else
        some (.authErr authRejected, .closed)
  | _ => none

/-- A reply that cannot be written closes the connection. -/
def Incoming.reply (io : Bool) : Option (ServerMsg × Incoming) →
    Option ServerMsg × Incoming
  | none => (none, .closed)
  | some (msg, next) => if io then (some msg, next) else (none, .closed)

/-- One frame read by `handle_incoming`: what it writes and where it stands
afterwards. -/
def Incoming.step (hmac : Hmac) (cfg : RelayConfig) (nonce : Nonce) (io : Bool)
    (msg : ClientMsg) : Incoming → Option ServerMsg × Incoming
  | .hello => Incoming.reply io (handleHello cfg nonce msg)
  | .auth proto role token nonceHex =>
      Incoming.reply io (handleAuth hmac cfg proto role token nonceHex msg)
  | .pass role => (none, .pass role)
  | .closed => (none, .closed)

theorem accepts_iff (hmac : Hmac) (proto : UInt16) (role : Role)
    (token : Option String) (nonceHex mac : String) :
    accepts hmac proto role token nonceHex mac = true ↔
      ∃ t, token = some t ∧ mac = sign hmac t proto role nonceHex := by
  unfold accepts
  cases token <;> simp [verify_iff]

theorem Incoming.reply_pass {io : Bool} {answer : Option (ServerMsg × Incoming)}
    {role : Role} (h : (Incoming.reply io answer).2 = .pass role) :
    io = true ∧ ∃ msg, answer = some (msg, .pass role) := by
  cases answer with
  | none => cases h
  | some answer =>
      obtain ⟨msg, next⟩ := answer
      cases io with
      | false => cases h
      | true => exact ⟨rfl, msg, by rw [show next = .pass role from h]⟩

theorem handleHello_ne_pass {cfg : RelayConfig} {nonce : Nonce} {msg : ClientMsg}
    {reply : ServerMsg} {role : Role} :
    handleHello cfg nonce msg ≠ some (reply, .pass role) := by
  cases msg with
  | hello proto role' agent =>
      simp only [handleHello]
      split <;> simp
  | _ => simp [handleHello]

theorem handleAuth_pass {hmac : Hmac} {cfg : RelayConfig} {proto : UInt16}
    {role role' : Role} {token : Option String} {nonceHex : String}
    {msg : ClientMsg} {reply : ServerMsg}
    (h : handleAuth hmac cfg proto role token nonceHex msg =
      some (reply, .pass role')) :
    role' = role ∧ ∃ t mac, msg = .auth mac ∧ token = some t ∧
      mac = sign hmac t proto role nonceHex := by
  cases msg with
  | auth mac =>
      simp only [handleAuth] at h
      split at h
      case isTrue hok =>
        cases h
        obtain ⟨t, ht, hmac'⟩ := (accepts_iff _ _ _ _ _ _).mp hok
        exact ⟨rfl, t, mac, rfl, ht, hmac'⟩
      case isFalse => cases h
  | _ => cases h

/-- A connection gets past the handshake only by a frame whose mac is the
signature of the challenged role under the registered token. -/
theorem Incoming.step_pass {hmac : Hmac} {cfg : RelayConfig} {nonce : Nonce}
    {io : Bool} {msg : ClientMsg} {role : Role} {before : Incoming}
    (h : (before.step hmac cfg nonce io msg).2 = .pass role)
    (hbefore : before ≠ .pass role) :
    ∃ proto token nonceHex t, before = .auth proto role token nonceHex ∧
      token = some t ∧ msg = .auth (sign hmac t proto role nonceHex) := by
  cases before with
  | hello =>
      obtain ⟨-, reply, hreply⟩ := Incoming.reply_pass h
      exact absurd hreply handleHello_ne_pass
  | auth proto role' token nonceHex =>
      obtain ⟨-, reply, hreply⟩ := Incoming.reply_pass h
      obtain ⟨rfl, t, mac, rfl, ht, rfl⟩ := handleAuth_pass hreply
      exact ⟨proto, token, nonceHex, t, rfl, ht, rfl⟩
  | pass role' =>
      cases h
      exact absurd rfl hbefore
  | closed => cases h

end Yunpan.Relay
