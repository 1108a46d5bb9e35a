import Mathlib.Data.List.Basic

/-!
# The messages of relay protocol v2

One control port takes two kinds of connection, told apart by the role that the
first frame declares.  Both kinds pass the same challenge and response; a
control connection then carries JSON frames in both directions, a data
connection turns into a bare byte pipe.
-/

namespace Yunpan.Protocol

/-- `PROTO_VERSION`. -/
def protoVersion : UInt16 := 2

/-- `MAX_FRAME_LEN`, the limit of one frame's JSON body. -/
def maxFrameLen : ℕ := 64 * 1024

/-- `PAIR_TIMEOUT_SECS`, how long a visitor waits to be claimed. -/
def pairTimeoutSecs : ℕ := 10

/-- What a connection declares itself to be. -/
inductive Role where
  | control (clientId : String)
  | data (clientId : String) (connId : UInt64)
  deriving DecidableEq

def Role.clientId : Role → String
  | .control clientId => clientId
  | .data clientId _ => clientId

/-- The part of the authenticated text that names the role. -/
def Role.context : Role → String
  | .control clientId => "control:" ++ clientId
  | .data clientId connId => "data:" ++ clientId ++ ":" ++ connId.toNat.repr

inductive ClientMsg where
  | hello (proto : UInt16) (role : Role) (agent : String)
  | auth (mac : String)
  | bind (name : String) (remotePort : UInt16)
  | pong (ts : UInt64)
  | bye (reason : String)
  deriving DecidableEq

inductive ServerMsg where
  | challenge (nonce : String)
  | authOk (server : String) (heartbeatSecs : UInt64)
  | authErr (reason : String)
  | bindOk (name : String) (remotePort : UInt16) (publicUrl : Option String)
  | bindErr (name : String) (reason : String)
  | newConn (connId : UInt64) (name : String) (peer : String)
  | ping (ts : UInt64)
  | bye (reason : String)
  deriving DecidableEq

/-- A request for a port. -/
def ClientMsg.isBind : ClientMsg → Bool
  | .bind _ _ => true
  | _ => false

/-- The frames by which the relay turns a client down. -/
def ServerMsg.refuses : ServerMsg → Bool
  | .authErr _ => true
  | .bindErr _ _ => true
  | _ => false

end Yunpan.Protocol
