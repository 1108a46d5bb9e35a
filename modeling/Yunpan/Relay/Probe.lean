import Yunpan.Core.Framing
import Yunpan.Relay.Isolation

/-!
# What a peer learns that has no token

`handle_incoming` looks the claimed client up before it draws the challenge, but
an unknown client takes the same way as a known one.  Two relays that differ in one
client only therefore answer a peer that claims this client, and cannot sign for
it, with the same frames and hang up at the same point.
-/

namespace Yunpan.Relay

open Yunpan.Protocol
open Yunpan.Framing

/-- What `handle_incoming` meets when it waits for a frame: what `read_msg` makes of
the peer's bytes, where `cut` is also the timeout, and whether its answer can be
written. -/
structure PeerEvent where
  heard : Heard ClientMsg
  io : Bool
  deriving DecidableEq

/-- One wait for a frame: what is written, and where the connection stands. -/
def Incoming.meet (hmac : Hmac) (cfg : RelayConfig) (nonce : Nonce) (event : PeerEvent)
    (stage : Incoming) : Option ServerMsg × Incoming :=
  match event.heard, stage with
  | .msg msg, stage => stage.step hmac cfg nonce event.io msg
  | _, .pass role => (none, .pass role)
  | _, _ => (none, .closed)

/-- What the peer sees of each event: the frame written to it, and whether the
connection is closed afterwards. -/
def Incoming.trace (hmac : Hmac) (cfg : RelayConfig) (nonce : Nonce)
    (stage : Incoming) :
    List PeerEvent → List (Option ServerMsg × Bool)
  | [] => []
  | event :: events =>
      let (answer, next) := stage.meet hmac cfg nonce event
      (answer, decide (next = .closed)) :: Incoming.trace hmac cfg nonce next events

/-- The events that a byte stream gives rise to. -/
def peerEvents (codec : Codec ClientMsg) (io : ℕ → Bool) (bytes : List UInt8) :
    List PeerEvent :=
  (codec.hear [] bytes).mapIdx fun n heard => ⟨heard, io n⟩

/-- Every greeting claims client `id`. -/
def Claims (id : String) (events : List PeerEvent) : Prop :=
  ∀ event ∈ events, ∀ proto role agent,
    event.heard = .msg (.hello proto role agent) → role.clientId = id

/-- No response in the events is valid for client `id`. -/
def CannotSign (hmac : Hmac) (cfg : RelayConfig) (nonce : Nonce) (id : String)
    (events : List PeerEvent) : Prop :=
  ∀ event ∈ events, ∀ mac role, event.heard = .msg (.auth mac) → role.clientId = id →
    accepts hmac protoVersion role (cfg.token id) nonce.hex mac = false

section TwoRuns

variable {hmac : Hmac} {cfg cfg' : RelayConfig} {nonce : Nonce} {id : String}

/-- Two connections that a peer cannot tell apart: they may hold different tokens
for client `id`, and neither has passed. -/
inductive Alike (cfg cfg' : RelayConfig) (nonce : Nonce) (id : String) :
    Incoming → Incoming → Prop
  | hello : Alike cfg cfg' nonce id .hello .hello
  | auth {role : Role} : role.clientId = id →
      Alike cfg cfg' nonce id (.auth protoVersion role (cfg.token id) nonce.hex)
        (.auth protoVersion role (cfg'.token id) nonce.hex)
  | closed : Alike cfg cfg' nonce id .closed .closed

theorem Alike.closed_iff {stage stage' : Incoming}
    (h : Alike cfg cfg' nonce id stage stage') :
    stage = .closed ↔ stage' = .closed := by
  cases h <;> simp

/-- The same answer leads to connections that are still alike. -/
theorem Alike.reply {io : Bool} {answer answer' : Option (ServerMsg × Incoming)}
    (h : (answer = none ∧ answer' = none) ∨
      ∃ msg next next', answer = some (msg, next) ∧
      answer' = some (msg, next') ∧ Alike cfg cfg' nonce id next next') :
    (Incoming.reply io answer).1 = (Incoming.reply io answer').1 ∧
      Alike cfg cfg' nonce id (Incoming.reply io answer).2
        (Incoming.reply io answer').2 := by
  obtain ⟨rfl, rfl⟩ | ⟨msg, next, next', rfl, rfl, hnext⟩ := h
  · exact ⟨rfl, .closed⟩
  · cases io with
    | true => exact ⟨rfl, hnext⟩
    | false => exact ⟨rfl, .closed⟩

theorem handleHello_alike {msg : ClientMsg}
    (hclaims : ∀ proto role agent, msg = .hello proto role agent → role.clientId = id) :
    (handleHello cfg nonce msg = none ∧ handleHello cfg' nonce msg = none) ∨
      ∃ answer next next', handleHello cfg nonce msg = some (answer, next) ∧
        handleHello cfg' nonce msg = some (answer, next') ∧
        Alike cfg cfg' nonce id next next' := by
  cases msg with
  | hello proto role agent =>
      have hid := hclaims proto role agent rfl
      by_cases hproto : proto = protoVersion
      · subst hproto
        refine Or.inr ⟨.challenge nonce.hex, _, _, ?_, ?_, .auth hid⟩
        · simp [handleHello, hid]
        · simp [handleHello, hid]
      · refine Or.inr ⟨.authErr (versionMismatch proto), _, _, ?_, ?_, .closed⟩
        · simp [handleHello, hproto]
        · simp [handleHello, hproto]
  | _ => exact Or.inl ⟨rfl, rfl⟩

theorem handleAuth_alike {role : Role} {msg : ClientMsg}
    (hno : ∀ mac, msg = .auth mac →
      accepts hmac protoVersion role (cfg.token id) nonce.hex mac = false)
    (hno' : ∀ mac, msg = .auth mac →
      accepts hmac protoVersion role (cfg'.token id) nonce.hex mac = false) :
    (handleAuth hmac cfg protoVersion role (cfg.token id) nonce.hex msg = none ∧
        handleAuth hmac cfg' protoVersion role (cfg'.token id) nonce.hex msg = none) ∨
      ∃ answer next next',
        handleAuth hmac cfg protoVersion role (cfg.token id) nonce.hex msg =
          some (answer, next) ∧
        handleAuth hmac cfg' protoVersion role (cfg'.token id) nonce.hex msg =
          some (answer, next') ∧
        Alike cfg cfg' nonce id next next' := by
  cases msg with
  | auth mac =>
      refine Or.inr ⟨.authErr authRejected, _, _, ?_, ?_, .closed⟩
      · simp [handleAuth, hno mac rfl]
      · simp [handleAuth, hno' mac rfl]
  | _ => exact Or.inl ⟨rfl, rfl⟩

/-- One event keeps two connections alike, and both relays answer the same. -/
theorem Alike.meet {stage stage' : Incoming} {event : PeerEvent}
    (h : Alike cfg cfg' nonce id stage stage') (hclaims : Claims id [event])
    (hno : CannotSign hmac cfg nonce id [event])
    (hno' : CannotSign hmac cfg' nonce id [event]) :
    (stage.meet hmac cfg nonce event).1 = (stage'.meet hmac cfg' nonce event).1 ∧
      Alike cfg cfg' nonce id (stage.meet hmac cfg nonce event).2
        (stage'.meet hmac cfg' nonce event).2 := by
  obtain ⟨heard, io⟩ := event
  have hmem : (⟨heard, io⟩ : PeerEvent) ∈ [(⟨heard, io⟩ : PeerEvent)] :=
    List.mem_singleton.mpr rfl
  cases heard with
  | bad => cases h <;> exact ⟨rfl, .closed⟩
  | cut => cases h <;> exact ⟨rfl, .closed⟩
  | msg msg =>
      cases h with
      | hello =>
          exact Alike.reply (handleHello_alike fun proto role agent heq =>
            hclaims _ hmem proto role agent (congrArg Heard.msg heq))
      | @auth role hid =>
          exact Alike.reply (handleAuth_alike
            (fun mac heq => hno _ hmem mac role (congrArg Heard.msg heq) hid)
            (fun mac heq => hno' _ hmem mac role (congrArg Heard.msg heq) hid))
      | closed => exact ⟨rfl, .closed⟩

theorem Alike.trace {stage stage' : Incoming} {events : List PeerEvent}
    (h : Alike cfg cfg' nonce id stage stage') (hclaims : Claims id events)
    (hno : CannotSign hmac cfg nonce id events)
    (hno' : CannotSign hmac cfg' nonce id events) :
    stage.trace hmac cfg nonce events = stage'.trace hmac cfg' nonce events := by
  induction events generalizing stage stage' with
  | nil => rfl
  | cons event events ih =>
      simp only [Claims, CannotSign, List.forall_mem_cons] at hclaims hno hno'
      have hclaims₁ : Claims id [event] := by simpa [Claims] using hclaims.1
      obtain ⟨hanswer, hnext⟩ := h.meet hclaims₁ (by simpa [CannotSign] using hno.1)
        (by simpa [CannotSign] using hno'.1)
      simp only [Incoming.trace, hanswer, hnext.closed_iff]
      rw [ih hnext hclaims.2 hno.2 hno'.2]

/-- A peer that claims one client and cannot sign for it sees the same frames and
the same end of the connection, whether and how this client is registered. -/
theorem same_answers {events : List PeerEvent} (hclaims : Claims id events)
    (hno : CannotSign hmac cfg nonce id events)
    (hno' : CannotSign hmac cfg' nonce id events) :
    Incoming.hello.trace hmac cfg nonce events =
      Incoming.hello.trace hmac cfg' nonce events :=
  Alike.hello.trace hclaims hno hno'

theorem heard_of_mem {codec : Codec ClientMsg} {io : ℕ → Bool}
    {frames : List ClientMsg} (hfits : ∀ msg ∈ frames, codec.Fits msg)
    (hmax : codec.maxLen < 2 ^ 32) {event : PeerEvent} {msg : ClientMsg}
    (hevent : event ∈ peerEvents codec io (codec.stream frames))
    (hheard : event.heard = .msg msg) : msg ∈ frames := by
  rw [peerEvents, Codec.hear_stream hfits hmax (codec.within_stream frames)] at hevent
  obtain ⟨n, hn, rfl⟩ := List.mem_mapIdx.mp hevent
  have hmem := List.getElem_mem hn
  rw [show (frames.map Heard.msg ++ [Heard.cut])[n] = .msg msg from hheard] at hmem
  simpa using hmem

/-- The same for the bytes of any frames that keep to the limit. -/
theorem same_answers_of_frames {codec : Codec ClientMsg} {io : ℕ → Bool}
    {frames : List ClientMsg} (hfits : ∀ msg ∈ frames, codec.Fits msg)
    (hmax : codec.maxLen < 2 ^ 32)
    (hclaims : ∀ proto role agent, .hello proto role agent ∈ frames →
      role.clientId = id)
    (hno : ∀ mac role, .auth mac ∈ frames → role.clientId = id →
      accepts hmac protoVersion role (cfg.token id) nonce.hex mac = false ∧
        accepts hmac protoVersion role (cfg'.token id) nonce.hex mac = false) :
    Incoming.hello.trace hmac cfg nonce (peerEvents codec io (codec.stream frames)) =
      Incoming.hello.trace hmac cfg' nonce
      (peerEvents codec io (codec.stream frames)) :=
  same_answers
    (fun _ hevent proto role agent hheard =>
      hclaims proto role agent (heard_of_mem hfits hmax hevent hheard))
    (fun _ hevent mac role hheard hid =>
      (hno mac role (heard_of_mem hfits hmax hevent hheard) hid).1)
    (fun _ hevent mac role hheard hid =>
      (hno mac role (heard_of_mem hfits hmax hevent hheard) hid).2)

end TwoRuns

/-! ## The connection of the relay -/

/-- The phase of a connection whose handshake stands at a stage. -/
def Phase.ofIncoming : Incoming → Phase
  | .closed => .closed
  | .pass role => Phase.enter role
  | stage => .incoming stage

/-- In the relay a connection meets each event with an action of its own. -/
theorem act_meets {crates : Crates} {cfg : RelayConfig} {nonce : Nonce} {c : Conn}
    {stage : Incoming} (event : PeerEvent) (hphase : c.phase = .incoming stage)
    (hwaits : stage = .hello ∨ ∃ proto role token nonceHex,
      stage = .auth proto role token nonceHex) :
    ∃ action c', c.act crates cfg action = some c' ∧
      c'.phase = Phase.ofIncoming (stage.meet crates.hmac cfg nonce event).2 := by
  obtain ⟨heard, io⟩ := event
  cases heard with
  | msg msg =>
      refine ⟨.frame nonce msg io, c.frame crates cfg stage nonce msg io,
        by simp [Conn.act, hphase], ?_⟩
      show _ = Phase.ofIncoming (stage.step crates.hmac cfg nonce io msg).2
      cases hnext : (stage.step crates.hmac cfg nonce io msg).2 with
      | pass role =>
          have hstage : stage ≠ .pass role := by
            obtain rfl | ⟨proto, role, token, nonceHex, rfl⟩ := hwaits <;> simp
          obtain ⟨proto, token, nonceHex, t, rfl, -, rfl⟩ :=
            Incoming.step_pass hnext hstage
          simp [Conn.frame, hnext, Phase.ofIncoming]
      | _ => cases stage <;> cases msg <;> simp [Conn.frame, hnext, Phase.ofIncoming]
  | _ =>
      refine ⟨.abandon, _, by simp [Conn.act, hphase]; rfl, ?_⟩
      obtain rfl | ⟨proto, role, token, nonceHex, rfl⟩ := hwaits <;> rfl

/-! ## Two relays -/

/-- The sample relay without the client `mac`. -/
def strangerConfig : RelayConfig :=
  { sampleConfig with clients := [⟨"pc", "pc-0123456789abcdef", [8081], none⟩] }

/-- A greeting for `mac` and a response that is no signature. -/
def strangerEvents : List PeerEvent :=
  [⟨.msg (.hello protoVersion (.control "mac") "yunpan/0.1.0"), true⟩,
    ⟨.msg (.auth "?"), true⟩]

theorem stranger_cannotSign (cfg : RelayConfig) :
    CannotSign Sha256.hmac cfg (Vector.replicate 32 0) "mac" strangerEvents := by
  intro event hevent mac role hheard _
  have hmac : mac = "?" := by
    simp only [strangerEvents, List.mem_cons, List.not_mem_nil, or_false] at hevent
    obtain rfl | rfl := hevent <;> cases hheard
    rfl
  subst hmac
  by_contra haccepts
  obtain ⟨t, -, hsign⟩ := (accepts_iff _ _ _ _ _ _).mp (by simpa using haccepts)
  have hlength := congrArg String.length hsign
  rw [sign, hexEncode_length] at hlength
  have hone : "?".length = 1 := rfl
  omega

theorem same_answers_sample :
    Incoming.hello.trace Sha256.hmac sampleConfig (Vector.replicate 32 0)
        strangerEvents =
      Incoming.hello.trace Sha256.hmac strangerConfig (Vector.replicate 32 0)
        strangerEvents ∧
    sampleConfig.token "mac" = some "mac-0123456789abcdef" ∧
      strangerConfig.token "mac" = none := by
  refine ⟨same_answers ?_ (stranger_cannotSign _) (stranger_cannotSign _),
    by decide +kernel, by decide +kernel⟩
  intro event hevent proto role agent hheard
  simp only [strangerEvents, List.mem_cons, List.not_mem_nil, or_false] at hevent
  obtain rfl | rfl := hevent <;> cases hheard
  rfl

end Yunpan.Relay
