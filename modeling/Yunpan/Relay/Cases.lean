import Yunpan.Relay.Step
import Yunpan.Core.Update

/-!
# What one step of the relay can do

For each label the states it applies to and the state it leads to.  Every
invariant of the relay is derived from these statements; no later proof unfolds
the step function.
-/

namespace Yunpan.Relay

open Yunpan.Protocol
open Yunpan.Transition

variable {crates : Crates} {cfg : RelayConfig} {s s' : State}

/-! ## The parts of the state that an update leaves alone -/

section Fields

variable (s : State) (i j : ℕ) (c : Conn)

theorem setConn_conns_self : (s.setConn i c).conns i = c := by
  simp

theorem setConn_conns_ne {i j : ℕ} (h : j ≠ i) :
    (s.setConn i c).conns j = s.conns j := by
  simp [h]

variable (handle : Handle) (o : Option ℕ)

@[simp] theorem moveHandle_now : (s.moveHandle handle o).now = s.now := by
  cases o <;> rfl
@[simp] theorem moveHandle_nextConnId :
    (s.moveHandle handle o).nextConnId = s.nextConnId := by
  cases o <;> rfl
@[simp] theorem moveHandle_numbered :
    (s.moveHandle handle o).numbered = s.numbered := by
  cases o <;> rfl
@[simp] theorem moveHandle_pending :
    (s.moveHandle handle o).pending = s.pending := by
  cases o <;> rfl
@[simp] theorem moveHandle_sessions :
    (s.moveHandle handle o).sessions = s.sessions := by
  cases o <;> rfl
@[simp] theorem moveHandle_visitors :
    (s.moveHandle handle o).visitors = s.visitors := by
  cases o <;> rfl
@[simp] theorem moveHandle_ports : (s.moveHandle handle o).ports = s.ports := by
  cases o <;> rfl

theorem moveHandle_conns : (s.moveHandle handle o).conns j =
    { s.conns j with
      handle := if o = some j then handle else (s.conns j).handle } := by
  cases o with
  | none => simp [State.moveHandle]
  | some i =>
      by_cases h : j = i
      · subst h
        simp [State.moveHandle]
      · simp [State.moveHandle, h, Ne.symm h]

variable (n : ℕ) (state : ListenerState) (origin : Origin) (alive : Bool)

theorem setListener_conns : (s.setListener i n state).conns j =
    { s.conns j with
      listeners := if j = i
        then (s.conns j).listeners.modify n fun l => { l with state := state }
        else (s.conns j).listeners } := by
  by_cases h : j = i
  · subst h
    simp [State.setListener]
  · simp [State.setListener, h]

@[simp] theorem endListener_now : (s.endListener i n).now = s.now := by
  unfold State.endListener; split <;> rfl
@[simp] theorem endListener_nextConnId :
    (s.endListener i n).nextConnId = s.nextConnId := by
  unfold State.endListener; split <;> rfl
@[simp] theorem endListener_numbered :
    (s.endListener i n).numbered = s.numbered := by
  unfold State.endListener; split <;> rfl
@[simp] theorem endListener_pending :
    (s.endListener i n).pending = s.pending := by
  unfold State.endListener; split <;> rfl
@[simp] theorem endListener_sessions :
    (s.endListener i n).sessions = s.sessions := by
  unfold State.endListener; split <;> rfl
@[simp] theorem endListener_visitors :
    (s.endListener i n).visitors = s.visitors := by
  unfold State.endListener; split <;> rfl

theorem endListener_conns : (s.endListener i n).conns j =
    (s.setListener i n .ended).conns j := by
  unfold State.endListener
  split
  case h_1 hnone =>
    rw [setListener_conns]
    by_cases h : j = i
    · subst h
      simp [List.modify_eq_self (List.getElem?_eq_none_iff.mp hnone)]
    · simp [h]
  case h_2 => rfl

/-- What a task that goes on does to its listener. -/
def Origin.touch (origin : Origin) (alive : Bool) (j : ℕ)
    (listeners : List Listener) : List Listener :=
  match origin with
  | .router => listeners
  | .listener i n =>
      if j = i then
        listeners.modify n fun l =>
          { l with state := if alive then .accepting else .ended }
      else listeners

theorem release_conns : (s.release origin alive).conns j =
    { s.conns j with
      listeners := origin.touch alive j (s.conns j).listeners } := by
  cases origin with
  | router => rfl
  | listener i n =>
      cases alive <;>
        simp [State.release, Origin.touch, endListener_conns, setListener_conns]

@[simp] theorem release_now : (s.release origin alive).now = s.now := by
  cases origin <;> cases alive <;> simp [State.release, State.setListener]
@[simp] theorem release_nextConnId :
    (s.release origin alive).nextConnId = s.nextConnId := by
  cases origin <;> cases alive <;> simp [State.release, State.setListener]
@[simp] theorem release_numbered :
    (s.release origin alive).numbered = s.numbered := by
  cases origin <;> cases alive <;> simp [State.release, State.setListener]
@[simp] theorem release_pending :
    (s.release origin alive).pending = s.pending := by
  cases origin <;> cases alive <;> simp [State.release, State.setListener]
@[simp] theorem release_sessions :
    (s.release origin alive).sessions = s.sessions := by
  cases origin <;> cases alive <;> simp [State.release, State.setListener]
@[simp] theorem release_visitors :
    (s.release origin alive).visitors = s.visitors := by
  cases origin <;> cases alive <;> simp [State.release, State.setListener]
@[simp] theorem release_ports_true :
    (s.release origin true).ports = s.ports := by
  cases origin <;> simp [State.release, State.setListener]

end Fields

/-! ## Actions of a connection on its own state -/

/-- The points of `run_control` at which the loop is running. -/
def ControlPhase.looping : ControlPhase → Bool
  | .select => true
  | .write _ _ => true
  | .bind _ _ => true
  | _ => false

/-- The write of a reply that fails: `run_control` returns by `?`. -/
def losesReply (crates : Crates) : Action → ControlPhase → Bool
  | .written io, .write msg .reply => !crates.writes io msg
  | _, _ => false

theorem write_of_losesReply {action : Action} {phase : ControlPhase}
    (h : losesReply crates action phase = true) :
    ∃ io msg, action = .written io ∧ phase = .write msg .reply := by
  unfold losesReply at h
  split at h
  case h_1 io msg => exact ⟨io, msg, rfl, rfl⟩
  case h_2 => cases h

/-- What an action does to the point at which a control session stands. -/
inductive ControlMove (crates : Crates) (c : Conn) :
    Action → ControlPhase → ControlPhase → Prop
  | loop {action : Action} {phase phase' : ControlPhase} :
      phase.looping = true → losesReply crates action phase = false →
        phase'.looping = true → ControlMove crates c action phase phase'
  | leave {action : Action} {phase : ControlPhase} : phase.looping = true →
      losesReply crates action phase = false →
      ControlMove crates c action phase .stop
  | lost {action : Action} {phase : ControlPhase} :
      losesReply crates action phase = true →
      ControlMove crates c action phase (.returned true)
  | stop : ControlMove crates c .stop .stop (.join 0)
  | joined {n : ℕ} : c.listeners[n]? = none →
      ControlMove crates c .join (.join n) .unregister
  | next {n : ℕ} {l : Listener} : c.listeners[n]? = some l → l.state = .ended →
      ControlMove crates c .join (.join n) (.join (n + 1))
  | finish : ControlMove crates c .finish .finish (.returned false)

/-- What no action of a connection on its own state touches. -/
structure Conn.SameChannels (c c' : Conn) : Prop where
  handle : c'.handle = c.handle
  queue : c'.queue = c.queue
  granted : c'.granted = c.granted
  waiters : c'.waiters = c.waiters
  listeners : c'.listeners = c.listeners
  joined : c'.joined = c.joined

theorem Conn.SameChannels.rfl {c : Conn} : c.SameChannels c := by
  constructor <;> rfl

/-- Everything that an action can do to a control session. -/
inductive ControlAct (crates : Crates) (cfg : RelayConfig) (c : Conn)
    (clientId : String) : Action → ControlPhase → Conn → Prop
  | replaced : c.shutdown = true →
      ControlAct crates cfg c clientId .shutdownSeen .select
      (c.goto clientId (.write (.bye replacedReason) .bye))
  | overdue : 3 ≤ c.missedPongs → ControlAct crates cfg c clientId .tick .select
      { c.goto clientId .stop with result := some .heartbeatLost }
  | ping : c.missedPongs < 3 → ControlAct crates cfg c clientId .tick .select
      { c.goto clientId (.write (.ping (UInt64.ofNat (c.missedPongs + 1))) .ping) with
        missedPongs := c.missedPongs + 1 }
  | readFailed : ControlAct crates cfg c clientId (.read none) .select
      { c.goto clientId .stop with result := some .readFailed }
  | pong {ts : UInt64} : ControlAct crates cfg c clientId (.read (some (.pong ts)))
      .select { c with missedPongs := 0 }
  | routed {name : String} {port : UInt16} :
      cfg.pathRouterPort.isSome = true → cfg.portsEmpty clientId = true →
      ControlAct crates cfg c clientId (.read (some (.bind name port))) .select
        (c.goto clientId (.write (.bindOk name 0 (cfg.publicUrlFor clientId)) .reply))
  | asked {name : String} {port : UInt16} :
      ¬(cfg.pathRouterPort.isSome = true ∧ cfg.portsEmpty clientId = true) →
      ControlAct crates cfg c clientId (.read (some (.bind name port))) .select
        (c.goto clientId (.bind name port))
  | left {reason : String} :
      ControlAct crates cfg c clientId (.read (some (.bye reason))) .select
        { c.goto clientId .stop with result := some .ok }
  | ignored {msg : ClientMsg} :
      ControlAct crates cfg c clientId (.read (some msg)) .select c
  | written {io : Bool} {msg : ServerMsg} {writing : Writing} :
      crates.writes io msg = true → writing ≠ .bye →
      ControlAct crates cfg c clientId (.written io) (.write msg writing)
        (c.goto clientId .select)
  | replyLost {io : Bool} {msg : ServerMsg} : crates.writes io msg = false →
      ControlAct crates cfg c clientId (.written io) (.write msg .reply)
        (c.goto clientId (.returned true))
  | done {io : Bool} {msg : ServerMsg} {writing : Writing} : writing ≠ .reply →
      ControlAct crates cfg c clientId (.written io) (.write msg writing)
        { c.goto clientId .stop with result := some .ok }
  | stop : ControlAct crates cfg c clientId .stop .stop
      { c.goto clientId (.join 0) with shutdown := true }
  | joined {n : ℕ} : c.listeners[n]? = none →
      ControlAct crates cfg c clientId .join (.join n) (c.goto clientId .unregister)
  | next {n : ℕ} {l : Listener} : c.listeners[n]? = some l → l.state = .ended →
      ControlAct crates cfg c clientId .join (.join n) (c.goto clientId (.join (n + 1)))
  | finish : ControlAct crates cfg c clientId .finish .finish
      { c.goto clientId (.returned false) with done := true }

theorem readFrame_cases (c : Conn) (clientId : String) (msg : Option ClientMsg) :
    ControlAct crates cfg c clientId (.read msg) .select
      (c.readFrame cfg clientId msg) := by
  cases msg with
  | none => exact .readFailed
  | some msg =>
      cases msg with
      | pong ts => exact .pong
      | bye reason => exact .left
      | bind name port =>
          rw [Conn.readFrame]
          split
          case isTrue hrouter => exact .routed hrouter.1 hrouter.2
          case isFalse hown => exact .asked hown
      | _ => exact .ignored

theorem afterWrite_cases (c : Conn) (clientId : String) (io : Bool) (msg : ServerMsg)
    (writing : Writing) :
    ControlAct crates cfg c clientId (.written io) (.write msg writing)
      (c.afterWrite clientId (crates.writes io msg) writing) := by
  cases hok : crates.writes io msg with
  | true =>
      cases writing with
      | bye => exact .done (by simp)
      | _ => exact .written hok (by simp)
  | false =>
      cases writing with
      | reply => exact .replyLost hok
      | _ => exact .done (by simp)

theorem tick_cases (c : Conn) (clientId : String) :
    ControlAct crates cfg c clientId .tick .select (c.tick clientId) := by
  rw [Conn.tick]
  split
  case isTrue hmany => exact .overdue hmany
  case isFalse hfew => exact .ping (Nat.lt_of_not_le hfew)

/-- Inversion of `Conn.act` on a control session. -/
theorem act_cases {c c' : Conn} {action : Action} {clientId : String}
    {phase : ControlPhase} (hphase : c.phase = .control clientId phase)
    (h : c.act crates cfg action = some c') :
    ControlAct crates cfg c clientId action phase c' := by
  cases action <;> simp only [Conn.act, hphase] at h
  case accept => simp at h
  case frame => simp at h
  case abandon => simp at h
  case hangUp => simp at h
  case shutdownSeen =>
    cases phase <;> simp at h
    obtain ⟨hshutdown, rfl⟩ := h
    exact .replaced hshutdown
  case tick =>
    cases phase <;> simp at h
    subst h
    exact tick_cases c clientId
  case read msg =>
    cases phase <;> simp at h
    subst h
    exact readFrame_cases c clientId msg
  case written io =>
    cases phase <;> simp at h
    subst h
    exact afterWrite_cases c clientId io _ _
  case stop =>
    cases phase <;> simp at h
    subst h
    exact .stop
  case join =>
    cases phase <;> simp at h
    case join next =>
    split at h
    case h_1 hnone =>
      cases h
      exact .joined hnone
    case h_2 l hl =>
      obtain ⟨hended, rfl⟩ := by simpa using h
      exact .next hl hended
  case finish =>
    cases phase <;> simp at h
    subst h
    exact .finish

theorem act_control {c c' : Conn} {action : Action} {clientId : String}
    {phase : ControlPhase} (hphase : c.phase = .control clientId phase)
    (h : c.act crates cfg action = some c') :
    ∃ phase', c'.phase = .control clientId phase' ∧
      ControlMove crates c action phase phase' ∧ c.SameChannels c' ∧
      c'.accepted = c.accepted ∧
      c'.shutdown = (c.shutdown || decide (phase = .stop)) ∧
      c'.done = (c.done || decide (phase = .finish)) := by
  have hsame : ∀ {p : ControlPhase}, c.SameChannels (c.goto clientId p) := by
    intro p
    constructor <;> rfl
  have hloop : ∀ {p : ControlPhase}, phase.looping = true → p.looping = true →
      losesReply crates action phase = false → ControlMove crates c action phase p :=
    fun hbefore hafter hkept => .loop hbefore hkept hafter
  cases act_cases hphase h with
  | replaced => exact ⟨_, rfl, hloop rfl rfl rfl, hsame, by simp⟩
  | overdue => exact ⟨_, rfl, .leave rfl rfl, by constructor <;> rfl, by simp⟩
  | ping => exact ⟨_, rfl, hloop rfl rfl rfl, by constructor <;> rfl, by simp⟩
  | readFailed => exact ⟨_, rfl, .leave rfl rfl, by constructor <;> rfl, by simp⟩
  | pong => exact ⟨_, hphase, hloop rfl rfl rfl, by constructor <;> rfl, by simp⟩
  | routed => exact ⟨_, rfl, hloop rfl rfl rfl, hsame, by simp⟩
  | asked => exact ⟨_, rfl, hloop rfl rfl rfl, hsame, by simp⟩
  | left => exact ⟨_, rfl, .leave rfl rfl, by constructor <;> rfl, by simp⟩
  | ignored => exact ⟨_, hphase, hloop rfl rfl rfl, .rfl, by simp⟩
  | @written io msg writing hok =>
      have hkept : losesReply crates (.written io) (.write msg writing) = false := by
        cases writing <;> simp [losesReply, hok]
      exact ⟨_, rfl, hloop rfl rfl hkept, hsame, by simp⟩
  | replyLost hlost =>
      exact ⟨_, rfl, .lost (by simp [losesReply, hlost]), hsame, by simp⟩
  | @done io msg writing hreply =>
      have hkept : losesReply crates (.written io) (.write msg writing) = false := by
        cases writing <;> first | rfl | exact absurd rfl hreply
      exact ⟨_, rfl, .leave rfl hkept, by constructor <;> rfl, by simp⟩
  | stop => exact ⟨_, rfl, .stop, by constructor <;> rfl, by simp⟩
  | joined hnone => exact ⟨_, rfl, .joined hnone, hsame, by simp⟩
  | next hl hended => exact ⟨_, rfl, .next hl hended, hsame, by simp⟩
  | finish => exact ⟨_, rfl, .finish, by constructor <;> rfl, by simp⟩

/-- What an action does to a connection that is not a control session; only the
last case lets it pass the handshake. -/
inductive HandshakeMove (crates : Crates) (cfg : RelayConfig) (c : Conn) :
    Action → Conn → Prop
  | accept : c.phase = .idle →
      HandshakeMove crates cfg c .accept { c with phase := .incoming .hello }
  | challenge {role : Role} {agent : String} {nonce : Nonce} :
      c.phase = .incoming .hello →
      HandshakeMove crates cfg c (.frame nonce (.hello protoVersion role agent) true)
        { c with phase := .incoming <|
            .auth protoVersion role (cfg.token role.clientId) nonce.hex }
  | close {action : Action} :
      HandshakeMove crates cfg c action { c with phase := .closed }
  | stay {action : Action} : HandshakeMove crates cfg c action c
  | pass {proto : UInt16} {role : Role} {token : Option String}
      {nonceHex mac : String} {nonce : Nonce} :
      c.phase = .incoming (.auth proto role token nonceHex) →
      accepts crates.hmac proto role token nonceHex mac = true →
      HandshakeMove crates cfg c (.frame nonce (.auth mac) true)
        { c with
          accepted := some ⟨proto, role, nonceHex, mac⟩
          phase := Phase.enter role }

theorem frame_cases {c : Conn} {stage : Incoming} {nonce : Nonce}
    {msg : ClientMsg} {io : Bool} (hphase : c.phase = .incoming stage) :
    HandshakeMove crates cfg c (.frame nonce msg io)
      (c.frame crates cfg stage nonce msg io) := by
  cases stage with
  | hello =>
      cases msg with
      | hello proto role agent =>
          cases io with
          | false =>
              have : (Incoming.step crates.hmac cfg nonce false
                  (.hello proto role agent) .hello).2 = .closed := by
                simp only [Incoming.step, handleHello]
                split <;> rfl
              simp only [Conn.frame, this]
              exact .close
          | true =>
              by_cases hproto : proto = protoVersion
              · subst hproto
                simp only [Conn.frame, Incoming.step, handleHello, ne_eq,
                  not_true_eq_false, if_false, Incoming.reply, if_true]
                exact .challenge hphase
              · simp only [Conn.frame, Incoming.step, handleHello, ne_eq, hproto,
                  not_false_eq_true, if_true, Incoming.reply]
                exact .close
      | _ => exact .close
  | auth proto role token nonceHex =>
      cases msg with
      | auth mac =>
          cases io with
          | false =>
              have : (Incoming.step crates.hmac cfg nonce false (.auth mac)
                  (.auth proto role token nonceHex)).2 = .closed := by
                simp only [Incoming.step, handleAuth]
                split <;> rfl
              simp only [Conn.frame, this]
              exact .close
          | true =>
              cases hok : accepts crates.hmac proto role token nonceHex mac with
              | false =>
                  simp only [Conn.frame, Incoming.step, handleAuth, hok,
                    Incoming.reply, if_true, Bool.false_eq_true, if_false]
                  exact .close
              | true =>
                  simp only [Conn.frame, Incoming.step, handleAuth, hok,
                    Incoming.reply, if_true]
                  exact .pass hphase hok
      | _ => exact .close
  | pass role =>
      have : c.frame crates cfg (.pass role) nonce msg io = c := by
        cases msg <;> simp [Conn.frame, Incoming.step, ← hphase]
      rw [this]
      exact .stay
  | closed => exact .close

theorem act_other {c c' : Conn} {action : Action}
    (hphase : ∀ clientId phase, c.phase ≠ .control clientId phase)
    (h : c.act crates cfg action = some c') :
    HandshakeMove crates cfg c action c' := by
  have hno : ∀ {α : Prop} {clientId : String} {phase : ControlPhase},
      c.phase = .control clientId phase → α :=
    fun hc => absurd hc (hphase _ _)
  cases action <;> simp only [Conn.act] at h
  case accept =>
    obtain ⟨hidle, rfl⟩ := by simpa using h
    exact .accept hidle
  case frame nonce msg io =>
    split at h
    case h_1 stage hstage =>
      cases h
      exact frame_cases hstage
    case h_2 => cases h
  case abandon =>
    split at h
    case h_1 => cases h; exact .close
    case h_2 => cases h
  case hangUp =>
    split at h
    case h_1 => cases h; exact .close
    case h_2 => cases h
  all_goals
    split at h
    case h_1 hc => exact hno hc
    case h_2 => cases h

theorem HandshakeMove.channels {c c' : Conn} {action : Action}
    (h : HandshakeMove crates cfg c action c') :
    c.SameChannels c' ∧ c'.shutdown = c.shutdown ∧ c'.done = c.done := by
  cases h <;> exact ⟨by constructor <;> rfl, rfl, rfl⟩

theorem act_channels {c c' : Conn} {action : Action}
    (h : c.act crates cfg action = some c') : c.SameChannels c' := by
  by_cases hcontrol : ∃ clientId phase, c.phase = .control clientId phase
  · obtain ⟨clientId, phase, hphase⟩ := hcontrol
    obtain ⟨-, -, -, hsame, -⟩ := act_control hphase h
    exact hsame
  · exact (act_other (fun id p hp => hcontrol ⟨id, p, hp⟩) h).channels.1

/-! ## Steps on shared state -/

theorem conn_cases {i : ℕ} {action : Action}
    (h : s.step crates cfg (.conn i action) = some s') :
    ∃ c, (s.conns i).act crates cfg action = some c ∧ s' = s.setConn i c := by
  simp only [State.step, Option.map_eq_some_iff] at h
  obtain ⟨c, hc, rfl⟩ := h
  exact ⟨c, hc, rfl⟩

theorem kick_cases {i : ℕ} (h : s.kick i = some s') :
    ∃ clientId, (s.conns i).phase = .control clientId .kick ∧
      ((s.sessions clientId = none ∧
          s' = s.setConn i ((s.conns i).goto clientId .register)) ∨
        ∃ old, s.sessions clientId = some old ∧
          s' = { (s.moveHandle .taken (some old)).setConn i
              (((s.moveHandle .taken (some old)).conns i).goto clientId
                (.signal old)) with
            sessions := Function.update s.sessions clientId none }) := by
  simp only [State.kick] at h
  split at h
  case h_1 clientId hphase =>
    refine ⟨clientId, hphase, ?_⟩
    split at h
    case h_1 hnone => exact Or.inl ⟨hnone, by simpa using h.symm⟩
    case h_2 old hold => exact Or.inr ⟨old, hold, by simpa using h.symm⟩
  case h_2 => cases h

theorem signal_cases {i : ℕ} (h : s.signal i = some s') :
    ∃ clientId old, (s.conns i).phase = .control clientId (.signal old) ∧
      s' = (s.setConn old { s.conns old with shutdown := true }).setConn i
        (((s.setConn old { s.conns old with shutdown := true }).conns i).goto
          clientId (.wait old (s.now + kickTimeout))) := by
  simp only [State.signal] at h
  split at h
  case h_1 clientId old hphase => exact ⟨clientId, old, hphase, by simpa using h.symm⟩
  case h_2 => cases h

theorem waited_cases {i : ℕ} (h : s.waited i = some s') :
    ∃ clientId old deadline,
      (s.conns i).phase = .control clientId (.wait old deadline) ∧
      ((s.conns old).done = true ∨ (s.conns old).returned = true ∨
        deadline ≤ s.now) ∧
      s' = (s.moveHandle .dropped (some old)).setConn i
        (((s.moveHandle .dropped (some old)).conns i).goto clientId .register) := by
  simp only [State.waited] at h
  split at h
  case h_1 clientId old deadline hphase =>
    split at h
    case isTrue hend =>
      exact ⟨clientId, old, deadline, hphase, hend, by simpa using h.symm⟩
    case isFalse => cases h
  case h_2 => cases h

theorem register_cases {i : ℕ} (h : s.register cfg i = some s') :
    ∃ clientId, (s.conns i).phase = .control clientId .register ∧
      cfg.heartbeatSecs ≠ 0 ∧
      s' = { (s.moveHandle .dropped (s.sessions clientId)).setConn i
          { ((s.moveHandle .dropped (s.sessions clientId)).conns i).goto clientId
            .select with handle := .inMap } with
        sessions := Function.update s.sessions clientId (some i) } := by
  simp only [State.register] at h
  split at h
  case h_1 clientId hphase =>
    split at h
    case isTrue => cases h
    case isFalse hbeat => exact ⟨clientId, hphase, hbeat, by simpa using h.symm⟩
  case h_2 => cases h

theorem unregister_cases {i : ℕ} (h : s.unregister i = some s') :
    ∃ clientId, (s.conns i).phase = .control clientId .unregister ∧
      s' = { (s.moveHandle .dropped (s.sessions clientId)).setConn i
          (((s.moveHandle .dropped (s.sessions clientId)).conns i).goto clientId
            .finish) with
        sessions := Function.update s.sessions clientId none } := by
  simp only [State.unregister] at h
  split at h
  case h_1 clientId hphase => exact ⟨clientId, hphase, by simpa using h.symm⟩
  case h_2 => cases h

theorem event_cases {i : ℕ} (h : s.event i = some s') :
    ∃ clientId msg queue, (s.conns i).phase = .control clientId .select ∧
      (s.conns i).queue = msg :: queue ∧
      (((s.conns i).waiters = [] ∧
          s' = s.setConn i { (s.conns i).goto clientId (.write msg .event) with
            queue := queue }) ∨
        ∃ v waiters, (s.conns i).waiters = v :: waiters ∧
          s' = (s.setConn i { (s.conns i).goto clientId (.write msg .event) with
            queue := queue, waiters := waiters
            granted := v :: (s.conns i).granted }).grant v) := by
  simp only [State.event] at h
  split at h
  case h_1 clientId msg queue hphase hqueue =>
    refine ⟨clientId, msg, queue, hphase, hqueue, ?_⟩
    split at h
    case h_1 hnil => exact Or.inl ⟨hnil, by simpa using h.symm⟩
    case h_2 v waiters hcons =>
      exact Or.inr ⟨v, waiters, hcons, by simpa using h.symm⟩
  case h_2 => cases h

theorem bound_cases {i : ℕ} {osOk : Bool} (h : s.bound cfg i osOk = some s') :
    ∃ clientId name port, (s.conns i).phase = .control clientId (.bind name port) ∧
      ((cfg.allowed clientId port = true ∧ (s.ports port = none ∨ port = 0) ∧
          osOk = true ∧
          s' = { s.setConn i { (s.conns i).goto clientId (.write
                (.bindOk name port (cfg.publicUrlFor clientId)) .reply) with
              listeners := (s.conns i).listeners ++
                [⟨clientId, name, port, .accepting⟩] } with
            ports := Function.update s.ports port (some i) }) ∨
        ∃ reason, (cfg.allowed clientId port = true →
            s.ports port = none ∨ port = 0 → osOk = false) ∧
          s' = s.setConn i ((s.conns i).goto clientId
            (.write (.bindErr name reason) .reply))) := by
  simp only [State.bound] at h
  split at h
  case h_1 clientId name port hphase =>
    refine ⟨clientId, name, port, hphase, ?_⟩
    split at h
    case isTrue hnot =>
      exact Or.inr ⟨_, by simp [hnot], by simpa using h.symm⟩
    case isFalse hallowed =>
      split at h
      case isTrue hfree =>
        exact Or.inl ⟨by simpa using hallowed, hfree.1, hfree.2, by simpa using h.symm⟩
      case isFalse hbusy =>
        refine Or.inr ⟨_, fun _ hfree => ?_, by simpa using h.symm⟩
        exact Bool.eq_false_iff.mpr fun hok => hbusy ⟨hfree, hok⟩
  case h_2 => cases h

theorem arrive_cases {i n v : ℕ} {peer : String}
    (h : s.arrive cfg i n v peer = some s') :
    ∃ l, (s.conns i).listeners[n]? = some l ∧ l.state = .accepting ∧
      s.visitors v = none ∧
      s' = { s.setListener i n (.serving v) with
        visitors := Function.update s.visitors v (some
          { peer := peer, origin := .listener i n, head := []
            target := some ⟨l.clientId, l.name, i⟩
            stage := if cfg.maybeVisitorTls then .tls s.now else .ready }) } := by
  simp only [State.arrive] at h
  split at h
  case h_1 l hl hnew =>
    split at h
    case isTrue haccepting => exact ⟨l, hl, haccepting, hnew, (Option.some.inj h).symm⟩
    case isFalse => cases h
  case h_2 => cases h

theorem retire_cases {i n : ℕ} (h : s.retire i n = some s') :
    ∃ l, (s.conns i).listeners[n]? = some l ∧ l.state = .accepting ∧
      (s.conns i).shutdownChanged = true ∧ s' = s.endListener i n := by
  simp only [State.retire] at h
  split at h
  case h_1 l hl =>
    split at h
    case isTrue hend => exact ⟨l, hl, hend.1, hend.2, by simpa using h.symm⟩
    case isFalse => cases h
  case h_2 => cases h

theorem route_cases {v : ℕ} {peer : String} (h : s.route cfg v peer = some s') :
    s.visitors v = none ∧ cfg.pathRouterPort.isSome = true ∧
      s' = { s with visitors := Function.update s.visitors v (some
        { peer := peer, origin := .router, head := [], target := none
          stage := if cfg.maybeVisitorTls then .tls s.now else .reading s.now }) } := by
  simp only [State.route] at h
  split at h
  case h_1 port hnew hport => exact ⟨hnew, by simp [hport], by simpa using h.symm⟩
  case h_2 => cases h

theorem tls_cases {v : ℕ} {result : TlsResult} (h : s.tls v result = some s') :
    ∃ x since, s.visitors v = some x ∧ x.stage = .tls since ∧
      ((result = .ok ∧ s' = s.setStage v x
          (if x.origin = .router then .reading s.now else .ready)) ∨
        (result ≠ .ok ∧
          s' = (s.setStage v x (.closed none)).release x.origin true)) := by
  simp only [State.tls] at h
  split at h
  case h_1 x hx =>
    split at h
    case h_1 since hstage =>
      refine ⟨x, since, hx, hstage, ?_⟩
      split at h
      case isTrue hok => exact Or.inl ⟨hok, by simpa using h.symm⟩
      case isFalse hnot =>
        split at h
        case isTrue => exact Or.inr ⟨hnot, by simpa using h.symm⟩
        case isFalse => cases h
    case h_2 => cases h
  case h_2 => cases h

/-- The path router dispatches only to the live session of the client that the
request line names. -/
theorem routeDecision_dispatch {sessions : String → Option ℕ}
    {block : List UInt8} {clientId : String} {session : ℕ}
    (h : routeDecision cfg sessions block = .dispatch clientId session) :
    firstPathSegment block = some clientId ∧ sessions clientId = some session := by
  unfold routeDecision at h
  split at h
  case h_1 => cases h
  case h_2 seg hseg =>
    split at h
    case isTrue => cases h
    case isFalse =>
      split at h
      case h_1 => cases h
      case h_2 session' hsession =>
        cases h
        exact ⟨hseg, hsession⟩

theorem head_cases {v : ℕ} {block : Option (List UInt8)}
    (h : s.head cfg v block = some s') :
    ∃ x since, s.visitors v = some x ∧ x.stage = .reading since ∧
      ((∃ status, (∀ bytes seg session, block = some bytes →
            routeDecision cfg s.sessions bytes ≠ .dispatch seg session) ∧
          s' = s.setStage v x (.closed status)) ∨
        ∃ bytes seg session, block = some bytes ∧
          routeDecision cfg s.sessions bytes = .dispatch seg session ∧
          s' = s.setStage v
            { x with head := bytes, target := some ⟨seg, "path", session⟩ }
            .ready) := by
  cases block with
  | none =>
      simp only [State.head] at h
      split at h
      case h_1 x hx =>
        split at h
        case h_1 since hstage =>
          exact ⟨x, since, hx, hstage,
            Or.inl ⟨none, by simp, (Option.some.inj h).symm⟩⟩
        case h_2 => cases h
      case h_2 => cases h
  | some bytes =>
      simp only [State.head] at h
      split at h
      case h_2 => cases h
      case h_1 x hx =>
        split at h
        case h_2 => cases h
        case h_1 since hstage =>
          refine ⟨x, since, hx, hstage, ?_⟩
          split at h
          case isTrue => cases h
          case isFalse =>
            have hother : (∀ seg session,
                routeDecision cfg s.sessions bytes ≠ .dispatch seg session) →
                ∀ bytes' seg session, some bytes = some bytes' →
                  routeDecision cfg s.sessions bytes' ≠ .dispatch seg session := by
              rintro hno _ seg session ⟨rfl⟩
              exact hno seg session
            split at h
            case h_1 hroute =>
              exact Or.inl ⟨_, hother (by simp [hroute]), (Option.some.inj h).symm⟩
            case h_2 hroute =>
              exact Or.inl ⟨_, hother (by simp [hroute]), (Option.some.inj h).symm⟩
            case h_3 hroute =>
              exact Or.inl ⟨_, hother (by simp [hroute]), (Option.some.inj h).symm⟩
            case h_4 seg session hroute =>
              exact Or.inr ⟨bytes, seg, session, rfl, hroute,
                (Option.some.inj h).symm⟩

theorem number_cases {v : ℕ} (h : s.number v = some s') :
    ∃ x, s.visitors v = some x ∧ x.stage = .ready ∧
      s' = { s.setStage v x (.numbered s.nextConnId) with
        nextConnId := s.nextConnId + 1, numbered := s.numbered + 1 } := by
  simp only [State.number] at h
  split at h
  case h_1 x hx =>
    split at h
    case h_1 hstage => exact ⟨x, hx, hstage, by simpa using h.symm⟩
    case h_2 => cases h
  case h_2 => cases h

theorem insert_cases {v : ℕ} (h : s.insert v = some s') :
    ∃ x k target, s.visitors v = some x ∧ x.stage = .numbered k ∧
      x.target = some target ∧
      s' = { s.setStage v x (.sending k) with
        pending := Function.update s.pending k
          (some ⟨v, x.peer, target.clientId, s.now⟩) } := by
  simp only [State.insert] at h
  split at h
  case h_1 x hx =>
    split at h
    case h_1 k target hstage htarget =>
      exact ⟨x, k, target, hx, hstage, htarget, by simpa using h.symm⟩
    case h_2 => cases h
  case h_2 => cases h

theorem send_cases {v : ℕ} (h : s.send v = some s') :
    ∃ x k target, s.visitors v = some x ∧ x.target = some target ∧
      (((x.stage = .sending k ∨ x.stage = .waiting k) ∧
          (s.conns target.session).returned = true ∧
          s' = s.setStage v x (.failed k)) ∨
        (x.stage = .sending k ∧ (s.conns target.session).returned = false ∧
          0 < (s.conns target.session).room ∧
          s' = ((s.setConn target.session { s.conns target.session with
              queue := (s.conns target.session).queue ++ [x.notice target k] }
            ).setStage v x (.announced k)).release x.origin true) ∨
        (x.stage = .sending k ∧ (s.conns target.session).returned = false ∧
          (s.conns target.session).room = 0 ∧
          s' = (s.setConn target.session { s.conns target.session with
              waiters := (s.conns target.session).waiters ++ [v] }
            ).setStage v x (.waiting k))) := by
  simp only [State.send] at h
  split at h
  case h_1 x hx =>
    split at h
    case h_1 k target hstage htarget =>
      refine ⟨x, k, target, hx, htarget, ?_⟩
      split at h
      case isTrue hret => exact Or.inl ⟨Or.inl hstage, hret, by simpa using h.symm⟩
      case isFalse hret =>
        have hret := Bool.eq_false_iff.mpr hret
        split at h
        case isTrue hroom =>
          exact Or.inr (Or.inl ⟨hstage, hret, hroom, by simpa using h.symm⟩)
        case isFalse hroom =>
          exact Or.inr (Or.inr ⟨hstage, hret, by omega, by simpa using h.symm⟩)
    case h_2 k target hstage htarget =>
      split at h
      case isTrue hret =>
        exact ⟨x, k, target, hx, htarget,
          Or.inl ⟨Or.inr hstage, hret, by simpa using h.symm⟩⟩
      case isFalse => cases h
    case h_3 => cases h
  case h_2 => cases h

theorem resume_cases {v : ℕ} (h : s.resume v = some s') :
    ∃ x k target, s.visitors v = some x ∧ x.target = some target ∧
      x.stage = .granted k ∧
      (((s.conns target.session).returned = true ∧
          s' = (s.setConn target.session { s.conns target.session with
              granted := (s.conns target.session).granted.erase v }
            ).setStage v x (.failed k)) ∨
        ((s.conns target.session).returned = false ∧
          s' = ((s.setConn target.session { s.conns target.session with
              granted := (s.conns target.session).granted.erase v
              queue := (s.conns target.session).queue ++ [x.notice target k] }
            ).setStage v x (.announced k)).release x.origin true)) := by
  simp only [State.resume] at h
  split at h
  case h_1 x hx =>
    split at h
    case h_1 k target hstage htarget =>
      refine ⟨x, k, target, hx, htarget, hstage, ?_⟩
      split at h
      case isTrue hret => exact Or.inl ⟨hret, by simpa using h.symm⟩
      case isFalse hret =>
        exact Or.inr ⟨Bool.eq_false_iff.mpr hret, by simpa using h.symm⟩
    case h_2 => cases h
  case h_2 => cases h

theorem unwind_cases {v : ℕ} (h : s.unwind v = some s') :
    ∃ x k, s.visitors v = some x ∧ x.stage = .failed k ∧
      s' = (({ s with pending := Function.update s.pending k none } : State).setStage
        v x (.refused k)).release x.origin false := by
  simp only [State.unwind] at h
  split at h
  case h_1 x hx =>
    split at h
    case h_1 k hstage => exact ⟨x, k, hx, hstage, by simpa using h.symm⟩
    case h_2 => cases h
  case h_2 => cases h

theorem splice_cases {i : ℕ} (h : s.splice i = some s') :
    ∃ clientId connId, (s.conns i).phase = .data clientId connId ∧
      ((s.pending connId = none ∧
          s' = s.setConn i { s.conns i with phase := .closed }) ∨
        ∃ p, s.pending connId = some p ∧
          ((p.clientId = clientId ∧
              s' = { s.setConn i { s.conns i with
                  phase := .piping p.stream, joined := some p.stream } with
                pending := Function.update s.pending connId none }) ∨
            (p.clientId ≠ clientId ∧
              s' = { s.setConn i { s.conns i with phase := .closed } with
                pending := Function.update s.pending connId none }))) := by
  simp only [State.splice] at h
  split at h
  case h_1 clientId connId hphase =>
    refine ⟨clientId, connId, hphase, ?_⟩
    split at h
    case h_1 hnone => exact Or.inl ⟨hnone, by simpa using h.symm⟩
    case h_2 p hp =>
      refine Or.inr ⟨p, hp, ?_⟩
      split at h
      case isTrue hown => exact Or.inl ⟨hown, (Option.some.inj h).symm⟩
      case isFalse hother => exact Or.inr ⟨hother, (Option.some.inj h).symm⟩
  case h_2 => cases h

end Yunpan.Relay
