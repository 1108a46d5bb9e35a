import Yunpan.Relay.Handshake
import Mathlib.Logic.Function.Basic

/-!
# The state of a running relay

Every connection to the control port is one task with a number of its own; a
control session owns channels and listener tasks, and is known by the number of
its connection.  Every visitor is a number too: its task is the listener that
accepted it or, on the path router, a task of its own.  What the tasks share is
what `Relay` holds under its locks, the connection-id counter and the ports of
the machine.
-/

namespace Yunpan.Relay

open Yunpan.Protocol

/-- The crates the relay calls: the HMAC and the JSON writer. -/
structure Crates where
  hmac : Hmac
  toVec : ServerMsg → List UInt8

/-- `mpsc::channel::<ServerMsg>(64)`. -/
def eventCapacity : ℕ := 64

/-- `HANDSHAKE_TIMEOUT_SECS` in milliseconds. -/
def handshakeTimeout : ℕ := 10 * 1000

/-- The five seconds of `kick_previous` in milliseconds. -/
def kickTimeout : ℕ := 5 * 1000

inductive ListenerState where
  | accepting
  | serving (visitor : ℕ)
  | ended
  deriving DecidableEq

/-- A task spawned by `bind_public`, with what it captured; `port` is the port
that was asked for. -/
structure Listener where
  clientId : String
  name : String
  port : UInt16
  state : ListenerState
  deriving DecidableEq

/-- What the session does with the outcome of the `write_msg` it is in. -/
inductive Writing where
  | event
  | ping
  | bye
  | reply
  deriving DecidableEq

/-- Where `run_control` stands; `stop` to `finish` follow the loop, in the
order of the source, and `returned true` is a return by `?`. -/
inductive ControlPhase where
  | kick
  | signal (old : ℕ)
  | wait (old deadline : ℕ)
  | register
  | select
  | write (msg : ServerMsg) (writing : Writing)
  | bind (name : String) (remotePort : UInt16)
  | stop
  | join (next : ℕ)
  | unregister
  | finish
  | returned (early : Bool)
  deriving DecidableEq

/-- With what the loop of `run_control` ended. -/
inductive LoopResult where
  | ok
  | heartbeatLost
  | readFailed
  deriving DecidableEq

inductive Phase where
  | idle
  | incoming (stage : Incoming)
  | control (clientId : String) (phase : ControlPhase)
  | data (clientId : String) (connId : UInt64)
  | piping (visitor : ℕ)
  | closed
  deriving DecidableEq

/-- Where the `Session` record of a control session is: it holds the second
sender of the shutdown signal. -/
inductive Handle where
  | unborn
  | inMap
  | taken
  | dropped
  deriving DecidableEq

/-- A challenge-response that `handle_incoming` let pass. -/
structure Accepted where
  proto : UInt16
  role : Role
  nonceHex : String
  mac : String
  deriving DecidableEq

/-- One connection to the control port.  `queue`, `granted` and `waiters` are
the event channel: the messages, the senders that hold a slot without having
filled it yet, and the senders still waiting for one.  `shutdown` and `done` say
that `true` was sent; a send that finds no receiver is one that nobody can
observe.  `accepted` and `joined` remember what the handshake and `splice`
granted. -/
structure Conn where
  phase : Phase
  accepted : Option Accepted
  handle : Handle
  shutdown : Bool
  done : Bool
  queue : List ServerMsg
  granted : List ℕ
  waiters : List ℕ
  listeners : List Listener
  missedPongs : ℕ
  result : Option LoopResult
  joined : Option ℕ
  deriving DecidableEq

/-- How far `dispatch_visitor` and what precedes it have come. -/
inductive Stage where
  | tls (since : ℕ)
  | reading (since : ℕ)
  | ready
  | numbered (connId : UInt64)
  | sending (connId : UInt64)
  | waiting (connId : UInt64)
  | granted (connId : UInt64)
  | failed (connId : UInt64)
  | announced (connId : UInt64)
  | refused (connId : UInt64)
  | closed (status : Option ℕ)
  deriving DecidableEq

inductive Origin where
  | listener (session index : ℕ)
  | router
  deriving DecidableEq

/-- The arguments of `dispatch_visitor`: whose visitor it is, and the session
whose event channel is used. -/
structure Target where
  clientId : String
  name : String
  session : ℕ
  deriving DecidableEq

structure Visitor where
  peer : String
  origin : Origin
  /-- The block read by the path router, replayed to the client later. -/
  head : List UInt8
  target : Option Target
  stage : Stage
  deriving DecidableEq

/-- An entry of the pairing table; the stream is the visitor's. -/
structure Pending where
  stream : ℕ
  peer : String
  clientId : String
  since : ℕ
  deriving DecidableEq

/-- `numbered` counts the connection ids handed out; `nextConnId` is the
counter that wraps.  Time is in milliseconds. -/
structure State where
  now : ℕ
  nextConnId : UInt64
  numbered : ℕ
  pending : UInt64 → Option Pending
  sessions : String → Option ℕ
  conns : ℕ → Conn
  visitors : ℕ → Option Visitor
  ports : UInt16 → Option ℕ

def Conn.fresh : Conn where
  phase := .idle
  accepted := none
  handle := .unborn
  shutdown := false
  done := false
  queue := []
  granted := []
  waiters := []
  listeners := []
  missedPongs := 0
  result := none
  joined := none

def State.init : State where
  now := 0
  nextConnId := 1
  numbered := 0
  pending := fun _ => none
  sessions := fun _ => none
  conns := fun _ => .fresh
  visitors := fun _ => none
  ports := fun _ => none

/-- `run_control` has returned, so its half of every channel is gone. -/
def Conn.returned (c : Conn) : Bool :=
  match c.phase with
  | .control _ (.returned _) => true
  | _ => false

/-- A receiver of the shutdown signal wakes up: `true` was sent, or both senders
are gone. -/
def Conn.shutdownChanged (c : Conn) : Bool :=
  c.shutdown || (c.returned && c.handle == .dropped)

/-- Free slots of the event channel. -/
def Conn.room (c : Conn) : ℕ := eventCapacity - (c.queue.length + c.granted.length)

def Visitor.connId? (x : Visitor) : Option UInt64 :=
  match x.stage with
  | .numbered k => some k
  | .sending k => some k
  | .waiting k => some k
  | .granted k => some k
  | .failed k => some k
  | .announced k => some k
  | .refused k => some k
  | _ => none

/-- `write_msg` succeeds when the connection takes the bytes and the body fits
in a frame. -/
def Crates.writes (crates : Crates) (io : Bool) (msg : ServerMsg) : Bool :=
  io && decide ((crates.toVec msg).length ≤ maxFrameLen)

end Yunpan.Relay
