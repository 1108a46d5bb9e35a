import Yunpan.Protocol.Signature

/-!
# The client's side of the handshake

`handshake` is the same for control and data connections: it greets, signs the
challenge and waits for the verdict.  It signs whatever string the challenge
holds.  A refusal is fatal, anything else that goes wrong is tried again.
-/

namespace Yunpan.Client

open Yunpan.Protocol

/-- `ClientConfig` without the certificate that `connect_relay` may trust. -/
structure ClientConfig where
  relayHost : String
  controlPort : UInt16
  clientId : String
  token : String
  name : String
  remotePort : UInt16
  localPort : UInt16
  tls : Bool
  deriving DecidableEq

def ClientConfig.controlRole (cfg : ClientConfig) : Role := .control cfg.clientId

def ClientConfig.dataRole (cfg : ClientConfig) (connId : UInt64) : Role :=
  .data cfg.clientId connId

/-- `yunpan/` and the version of the tunnel crate. -/
def agentName : String := "yunpan/0.1.0"

/-- Why a session ends: only `Fatal` is not tried again. -/
inductive SessionError where
  | fatal (reason : String)
  | connect
  | write
  | read
  | unexpected (awaited : String) (frame : ServerMsg)
  deriving DecidableEq

def SessionError.isFatal : SessionError → Bool
  | .fatal _ => true
  | _ => false

def refusedPrefix : String := "中继拒绝了本机："

/-- Where `handshake` stands: writing a frame, waiting for one, or over. -/
inductive Handshake where
  | hello
  | challenge
  | auth (mac : String)
  | authOk
  | passed
  | failed (error : SessionError)
  deriving DecidableEq

/-- The frame that is being written. -/
def Handshake.frame (role : Role) : Handshake → Option ClientMsg
  | .hello => some (.hello protoVersion role agentName)
  | .auth mac => some (.auth mac)
  | _ => none

def Handshake.written (ok : Bool) : Handshake → Handshake
  | .hello => if ok then .challenge else .failed .write
  | .auth _ => if ok then .authOk else .failed .write
  | stage => stage

/-- The answer to the greeting. -/
def readChallenge (hmac : Hmac) (cfg : ClientConfig) (role : Role) :
    ServerMsg → Handshake
  | .challenge nonce => .auth (sign hmac cfg.token protoVersion role nonce)
  | .authErr reason => .failed (.fatal reason)
  | other => .failed (.unexpected "Challenge" other)

/-- The verdict on the signature. -/
def readAuthOk : ServerMsg → Handshake
  | .authOk _ _ => .passed
  | .authErr reason => .failed (.fatal (refusedPrefix ++ reason))
  | other => .failed (.unexpected "AuthOk" other)

/-- A frame that was waited for; `none` is a read that failed. -/
def Handshake.read (hmac : Hmac) (cfg : ClientConfig) (role : Role) :
    Option ServerMsg → Handshake → Handshake
  | none, .challenge => .failed .read
  | none, .authOk => .failed .read
  | some msg, .challenge => readChallenge hmac cfg role msg
  | some msg, .authOk => readAuthOk msg
  | _, stage => stage

end Yunpan.Client
