import Yunpan.Relay.State
import Yunpan.Core.Transition
import Mathlib.Tactic.Simps.Basic

/-!
# The steps of the relay's tasks

One label is one action of one task between two points where others can run,
together with what the outside world contributes: the frame read, whether a
write succeeds, what the system call answered.  Actions that touch nothing but
their own connection come first; those on shared state follow the functions of
the source.
-/

namespace Yunpan.Relay

open Yunpan.Protocol
open Yunpan.Transition

/-- Actions of a connection's task on its own state. -/
inductive Action where
  | accept
  | frame (nonce : Nonce) (msg : ClientMsg) (io : Bool)
  | abandon
  | shutdownSeen
  | tick
  | read (msg : Option ClientMsg)
  | written (io : Bool)
  | stop
  | join
  | finish
  | hangUp

def replacedReason : String := "同一客户端建立了新的控制连接"

/-- Move a control session to another point of `run_control`. -/
@[simps]
def Conn.goto (c : Conn) (clientId : String) (phase : ControlPhase) : Conn :=
  { c with phase := .control clientId phase }

/-- Where the role leads after the handshake. -/
def Phase.enter : Role → Phase
  | .control clientId => .control clientId .kick
  | .data clientId connId => .data clientId connId

/-- One frame of the handshake, and the branch on the role after it. -/
def Conn.frame (crates : Crates) (cfg : RelayConfig) (c : Conn) (stage : Incoming)
    (nonce : Nonce) (msg : ClientMsg) (io : Bool) : Conn :=
  match stage, msg, (stage.step crates.hmac cfg nonce io msg).2 with
  | .auth proto _ _ nonceHex, .auth mac, .pass role =>
      { c with
        accepted := some ⟨proto, role, nonceHex, mac⟩
        phase := Phase.enter role }
  | _, _, .closed => { c with phase := .closed }
  | _, _, next => { c with phase := .incoming next }

/-- The read branch of the select loop; `none` is a read that failed. -/
def Conn.readFrame (cfg : RelayConfig) (c : Conn) (clientId : String) :
    Option ClientMsg → Conn
  | none =>
      { c.goto clientId .stop with result := some .readFailed }
  | some (.pong _) => { c with missedPongs := 0 }
  | some (.bind name remotePort) =>
      if cfg.pathRouterPort.isSome ∧ cfg.portsEmpty clientId = true then
        c.goto clientId (.write (.bindOk name 0 (cfg.publicUrlFor clientId)) .reply)
      else
        c.goto clientId (.bind name remotePort)
  | some (.bye _) =>
      { c.goto clientId .stop with result := some .ok }
  | some _ => c

/-- What follows a `write_msg` of the session: a lost event or ping ends the
loop, a lost reply returns from `run_control` at once. -/
def Conn.afterWrite (c : Conn) (clientId : String) (ok : Bool) : Writing → Conn
  | .event | .ping =>
      if ok then c.goto clientId .select
      else { c.goto clientId .stop with result := some .ok }
  | .bye => { c.goto clientId .stop with result := some .ok }
  | .reply => c.goto clientId (if ok then .select else .returned true)

def Conn.tick (c : Conn) (clientId : String) : Conn :=
  if 3 ≤ c.missedPongs then
    { c.goto clientId .stop with result := some .heartbeatLost }
  else
    { c.goto clientId (.write (.ping (UInt64.ofNat (c.missedPongs + 1))) .ping) with
      missedPongs := c.missedPongs + 1 }

def Conn.act (crates : Crates) (cfg : RelayConfig) (c : Conn) : Action → Option Conn
  | .accept =>
      if c.phase = .idle then some { c with phase := .incoming .hello } else none
  | .frame nonce msg io =>
      match c.phase with
      | .incoming stage => some (c.frame crates cfg stage nonce msg io)
      | _ => none
  | .abandon =>
      match c.phase with
      | .incoming _ => some { c with phase := .closed }
      | _ => none
  | .shutdownSeen =>
      match c.phase with
      | .control clientId .select =>
          if c.shutdown then
            some (c.goto clientId (.write (.bye replacedReason) .bye))
          else none
      | _ => none
  | .tick =>
      match c.phase with
      | .control clientId .select => some (c.tick clientId)
      | _ => none
  | .read msg =>
      match c.phase with
      | .control clientId .select => some (c.readFrame cfg clientId msg)
      | _ => none
  | .written io =>
      match c.phase with
      | .control clientId (.write msg writing) =>
          some (c.afterWrite clientId (crates.writes io msg) writing)
      | _ => none
  | .stop =>
      match c.phase with
      | .control clientId .stop =>
          some { c.goto clientId (.join 0) with shutdown := true }
      | _ => none
  | .join =>
      match c.phase with
      | .control clientId (.join next) =>
          match c.listeners[next]? with
          | none => some (c.goto clientId .unregister)
          | some l =>
              if l.state = .ended then
                some (c.goto clientId (.join (next + 1)))
              else none
      | _ => none
  | .finish =>
      match c.phase with
      | .control clientId .finish =>
          some { c.goto clientId (.returned false) with done := true }
      | _ => none
  | .hangUp =>
      match c.phase with
      | .piping _ => some { c with phase := .closed }
      | _ => none

/-! ## Shared state -/

inductive TlsResult where
  | ok
  | failed
  | timeout
  deriving DecidableEq

inductive Label where
  | advance (ms : ℕ)
  | sweep
  | conn (i : ℕ) (action : Action)
  | kick (i : ℕ)
  | signal (i : ℕ)
  | waited (i : ℕ)
  | register (i : ℕ)
  | event (i : ℕ)
  | bound (i : ℕ) (osOk : Bool)
  | unregister (i : ℕ)
  | arrive (i n v : ℕ) (peer : String)
  | retire (i n : ℕ)
  | route (v : ℕ) (peer : String)
  | tls (v : ℕ) (result : TlsResult)
  | head (v : ℕ) (block : Option (List UInt8))
  | number (v : ℕ)
  | insert (v : ℕ)
  | send (v : ℕ)
  | resume (v : ℕ)
  | unwind (v : ℕ)
  | splice (i : ℕ)

@[simps -fullyApplied]
def State.setConn (s : State) (i : ℕ) (c : Conn) : State :=
  { s with conns := Function.update s.conns i c }

@[simps -fullyApplied]
def State.setStage (s : State) (v : ℕ) (x : Visitor) (stage : Stage) : State :=
  { s with visitors := Function.update s.visitors v (some { x with stage := stage }) }

/-- Change the whereabouts of a session's `Session` record. -/
def State.moveHandle (s : State) (handle : Handle) : Option ℕ → State
  | none => s
  | some i => s.setConn i { s.conns i with handle := handle }

/-- `sweep_pending`, one turn: ages are compared in whole seconds. -/
def State.sweepPending (s : State) : State :=
  { s with pending := fun k => (s.pending k).filter fun p =>
      decide ((s.now - p.since) / 1000 < pairTimeoutSecs) }

/-- `kick_previous`, the removal. -/
def State.kick (s : State) (i : ℕ) : Option State :=
  match (s.conns i).phase with
  | .control clientId .kick =>
      match s.sessions clientId with
      | none =>
          some (s.setConn i ((s.conns i).goto clientId .register))
      | some old =>
          let s := s.moveHandle .taken (some old)
          let s := s.setConn i ((s.conns i).goto clientId (.signal old))
          some { s with sessions := Function.update s.sessions clientId none }
  | _ => none

/-- `kick_previous`, `old.shutdown_tx.send(true)`. -/
def State.signal (s : State) (i : ℕ) : Option State :=
  match (s.conns i).phase with
  | .control clientId (.signal old) =>
      let s := s.setConn old { s.conns old with shutdown := true }
      some (s.setConn i
        ((s.conns i).goto clientId (.wait old (s.now + kickTimeout))))
  | _ => none

/-- `kick_previous`, the end of the wait: the old session is done, its sender is
gone, or the time is up. -/
def State.waited (s : State) (i : ℕ) : Option State :=
  match (s.conns i).phase with
  | .control clientId (.wait old deadline) =>
      if (s.conns old).done ∨ (s.conns old).returned ∨ deadline ≤ s.now then
        let s := s.moveHandle .dropped (some old)
        some (s.setConn i ((s.conns i).goto clientId .register))
      else none
  | _ => none

/-- The insertion into `sessions`, which drops whatever lay there.  With a
heartbeat of zero seconds the ticker made next panics, which ends the process:
no state follows. -/
def State.register (cfg : RelayConfig) (s : State) (i : ℕ) : Option State :=
  match (s.conns i).phase with
  | .control clientId .register =>
      if cfg.heartbeatSecs = 0 then none else
      let s := s.moveHandle .dropped (s.sessions clientId)
      let s := s.setConn i
        { (s.conns i).goto clientId .select with handle := .inMap }
      some { s with sessions := Function.update s.sessions clientId (some i) }
  | _ => none

/-- The removal at the end of `run_control`, by client id. -/
def State.unregister (s : State) (i : ℕ) : Option State :=
  match (s.conns i).phase with
  | .control clientId .unregister =>
      let s := s.moveHandle .dropped (s.sessions clientId)
      let s := s.setConn i ((s.conns i).goto clientId .finish)
      some { s with sessions := Function.update s.sessions clientId none }
  | _ => none

def Stage.grant : Stage → Stage
  | .waiting connId => .granted connId
  | stage => stage

/-- Hand a freed slot to a waiting sender. -/
@[simps -fullyApplied]
def State.grant (s : State) (v : ℕ) : State :=
  { s with visitors := Function.update s.visitors v <|
      (s.visitors v).map fun x => { x with stage := x.stage.grant } }

/-- The event branch: a received message frees a slot, which the sender that has
waited longest gets. -/
def State.event (s : State) (i : ℕ) : Option State :=
  let c := s.conns i
  match c.phase, c.queue with
  | .control clientId .select, msg :: queue =>
      let c' := c.goto clientId (.write msg .event)
      match c.waiters with
      | [] => some (s.setConn i { c' with queue := queue })
      | v :: waiters =>
          let s := s.setConn i { c' with
            queue := queue, waiters := waiters, granted := v :: c.granted }
          some (s.grant v)
  | _, _ => none

def notAllowed (remotePort : UInt16) : String :=
  "端口 " ++ remotePort.toNat.repr ++ " 不在该客户端的端口白名单内"

def listenFailed (addr : String) : String := "监听 " ++ addr ++ " 失败"

/-- `bind_public` and the reply its outcome leads to.  A port that a listener of
this relay holds is in use, except port 0, for which the system picks a free
one. -/
def State.bound (cfg : RelayConfig) (s : State) (i : ℕ) (osOk : Bool) :
    Option State :=
  let c := s.conns i
  match c.phase with
  | .control clientId (.bind name port) =>
      if cfg.allowed clientId port = false then
        some (s.setConn i
          (c.goto clientId (.write (.bindErr name (notAllowed port)) .reply)))
      else if (s.ports port = none ∨ port = 0) ∧ osOk = true then
        let reply := ServerMsg.bindOk name port (cfg.publicUrlFor clientId)
        let s := s.setConn i { c.goto clientId (.write reply .reply) with
          listeners := c.listeners ++ [⟨clientId, name, port, .accepting⟩] }
        some { s with ports := Function.update s.ports port (some i) }
      else
        let reply := ServerMsg.bindErr name (listenFailed (cfg.visitorAddr port))
        some (s.setConn i (c.goto clientId (.write reply .reply)))
  | _ => none

/-- Change the state of a listener task. -/
def State.setListener (s : State) (i n : ℕ) (state : ListenerState) : State :=
  s.setConn i { s.conns i with
    listeners := (s.conns i).listeners.modify n fun l => { l with state := state } }

/-- A listener task ends and its port is free again. -/
def State.endListener (s : State) (i n : ℕ) : State :=
  match (s.conns i).listeners[n]? with
  | none => s
  | some l =>
      let s := s.setListener i n .ended
      { s with ports := Function.update s.ports l.port none }

/-- The accept branch of a listener task. -/
def State.arrive (cfg : RelayConfig) (s : State) (i n v : ℕ) (peer : String) :
    Option State :=
  match (s.conns i).listeners[n]?, s.visitors v with
  | some l, none =>
      if l.state = .accepting then
        let s := s.setListener i n (.serving v)
        some { s with visitors := Function.update s.visitors v (some
          { peer := peer, origin := .listener i n, head := []
            target := some ⟨l.clientId, l.name, i⟩
            stage := if cfg.maybeVisitorTls then .tls s.now else .ready }) }
      else none
  | _, _ => none

/-- The shutdown branch of a listener task. -/
def State.retire (s : State) (i n : ℕ) : Option State :=
  match (s.conns i).listeners[n]? with
  | some l =>
      if l.state = .accepting ∧ (s.conns i).shutdownChanged = true then
        some (s.endListener i n)
      else none
  | none => none

/-- A visitor accepted by the path router gets a task of its own. -/
def State.route (cfg : RelayConfig) (s : State) (v : ℕ) (peer : String) :
    Option State :=
  match s.visitors v, cfg.pathRouterPort with
  | none, some _ =>
      some { s with visitors := Function.update s.visitors v (some
        { peer := peer, origin := .router, head := [], target := none
          stage := if cfg.maybeVisitorTls then .tls s.now else .reading s.now }) }
  | _, _ => none

/-- The task that dispatched a visitor goes on: a listener accepts again, or
ends when the control connection is gone. -/
def State.release (s : State) (origin : Origin) (alive : Bool) : State :=
  match origin with
  | .router => s
  | .listener i n => if alive then s.setListener i n .accepting else s.endListener i n

/-- The TLS handshake of a visitor, which may take ten seconds. -/
def State.tls (s : State) (v : ℕ) (result : TlsResult) : Option State :=
  match s.visitors v with
  | some x =>
      match x.stage with
      | .tls since =>
          if result = .ok then
            some (s.setStage v x
              (if x.origin = .router then .reading s.now else .ready))
          else if result = .failed ∨ since + handshakeTimeout ≤ s.now then
            some ((s.setStage v x (.closed none)).release x.origin true)
          else none
      | _ => none
  | none => none

/-- What the path router does with a request. -/
inductive Decision where
  | badRequest
  | notFound
  | unavailable
  | dispatch (clientId : String) (session : ℕ)
  deriving DecidableEq

def routeDecision (cfg : RelayConfig) (sessions : String → Option ℕ)
    (block : List UInt8) : Decision :=
  match firstPathSegment block with
  | none => .badRequest
  | some seg =>
      if seg = "" ∨ (cfg.client seg).isNone then .notFound
      else
        match sessions seg with
        | none => .unavailable
        | some session => .dispatch seg session

/-- The first block of a routed visitor; `none` is a timeout, an error or an
empty read. -/
def State.head (cfg : RelayConfig) (s : State) (v : ℕ) :
    Option (List UInt8) → Option State
  | none =>
      match s.visitors v with
      | some x =>
          match x.stage with
          | .reading _ => some (s.setStage v x (.closed none))
          | _ => none
      | none => none
  | some block =>
      match s.visitors v with
      | some x =>
          match x.stage with
          | .reading _ =>
              if block = [] ∨ 8192 < block.length then none
              else
                match routeDecision cfg s.sessions block with
                | .badRequest => some (s.setStage v x (.closed (some 400)))
                | .notFound => some (s.setStage v x (.closed (some 404)))
                | .unavailable => some (s.setStage v x (.closed (some 503)))
                | .dispatch seg session =>
                    some (s.setStage v
                      { x with head := block, target := some ⟨seg, "path", session⟩ }
                      .ready)
          | _ => none
      | none => none

/-- `dispatch_visitor`, `fetch_add`. -/
def State.number (s : State) (v : ℕ) : Option State :=
  match s.visitors v with
  | some x =>
      match x.stage with
      | .ready =>
          let s := s.setStage v x (.numbered s.nextConnId)
          some { s with nextConnId := s.nextConnId + 1, numbered := s.numbered + 1 }
      | _ => none
  | none => none

/-- `dispatch_visitor`, the insertion into `pending`. -/
def State.insert (s : State) (v : ℕ) : Option State :=
  match s.visitors v with
  | some x =>
      match x.stage, x.target with
      | .numbered k, some target =>
          let s := s.setStage v x (.sending k)
          let entry : Pending := ⟨v, x.peer, target.clientId, s.now⟩
          some { s with pending := Function.update s.pending k (some entry) }
      | _, _ => none
  | none => none

def Visitor.notice (x : Visitor) (target : Target) (k : UInt64) : ServerMsg :=
  .newConn k target.name x.peer

/-- `dispatch_visitor`, `event_tx.send(notice)`: into a free slot, or into the
queue of waiting senders, or an error when the receiver is gone. -/
def State.send (s : State) (v : ℕ) : Option State :=
  match s.visitors v with
  | some x =>
      match x.stage, x.target with
      | .sending k, some target =>
          let c := s.conns target.session
          if c.returned then some (s.setStage v x (.failed k))
          else if 0 < c.room then
            let s := s.setConn target.session
              { c with queue := c.queue ++ [x.notice target k] }
            some ((s.setStage v x (.announced k)).release x.origin true)
          else
            let s := s.setConn target.session { c with waiters := c.waiters ++ [v] }
            some (s.setStage v x (.waiting k))
      | .waiting k, some target =>
          if (s.conns target.session).returned then some (s.setStage v x (.failed k))
          else none
      | _, _ => none
  | none => none

/-- `dispatch_visitor`, a sender that was handed a slot fills it, or finds that
the receiver is gone. -/
def State.resume (s : State) (v : ℕ) : Option State :=
  match s.visitors v with
  | some x =>
      match x.stage, x.target with
      | .granted k, some target =>
          let c := s.conns target.session
          let granted := c.granted.erase v
          if c.returned then
            let s := s.setConn target.session { c with granted := granted }
            some (s.setStage v x (.failed k))
          else
            let s := s.setConn target.session { c with
              granted := granted, queue := c.queue ++ [x.notice target k] }
            some ((s.setStage v x (.announced k)).release x.origin true)
      | _, _ => none
  | none => none

/-- `dispatch_visitor`, the removal after a failed send. -/
def State.unwind (s : State) (v : ℕ) : Option State :=
  match s.visitors v with
  | some x =>
      match x.stage with
      | .failed k =>
          let s := { s with pending := Function.update s.pending k none }
          some ((s.setStage v x (.refused k)).release x.origin false)
      | _ => none
  | none => none

/-- `splice`: the entry is taken out first and its owner compared afterwards; an
entry of another client is dropped with its stream. -/
def State.splice (s : State) (i : ℕ) : Option State :=
  match (s.conns i).phase with
  | .data clientId connId =>
      match s.pending connId with
      | none => some (s.setConn i { s.conns i with phase := .closed })
      | some p =>
          let s := { s with pending := Function.update s.pending connId none }
          if p.clientId = clientId then
            some (s.setConn i { s.conns i with
              phase := .piping p.stream, joined := some p.stream })
          else
            some (s.setConn i { s.conns i with phase := .closed })
  | _ => none

def State.step (crates : Crates) (cfg : RelayConfig) (s : State) :
    Label → Option State
  | .advance ms => some { s with now := s.now + ms }
  | .sweep => some s.sweepPending
  | .conn i action => ((s.conns i).act crates cfg action).map (s.setConn i)
  | .kick i => s.kick i
  | .signal i => s.signal i
  | .waited i => s.waited i
  | .register i => s.register cfg i
  | .event i => s.event i
  | .bound i osOk => s.bound cfg i osOk
  | .unregister i => s.unregister i
  | .arrive i n v peer => s.arrive cfg i n v peer
  | .retire i n => s.retire i n
  | .route v peer => s.route cfg v peer
  | .tls v result => s.tls v result
  | .head v block => s.head cfg v block
  | .number v => s.number v
  | .insert v => s.insert v
  | .send v => s.send v
  | .resume v => s.resume v
  | .unwind v => s.unwind v
  | .splice i => s.splice i

/-- The relay as a transition system. -/
def relay (crates : Crates) (cfg : RelayConfig) : System State Label where
  init := State.init
  step := State.step crates cfg

end Yunpan.Relay
