import Yunpan.Protocol.Signature

/-!
# The relay's configuration

The configuration is fixed for the life of the relay.  What the sessions and
visitors ask of it are three look-ups: the entry of a client, the address shown
for a client, and the client that a visitor's request line names.
-/

namespace Yunpan.Relay

open Yunpan.Protocol

inductive IpAddr where
  | v4 (text : String)
  | v6 (text : String)
  deriving DecidableEq

/-- How `SocketAddr` prints. -/
def socketAddr : IpAddr → UInt16 → String
  | .v4 text, port => text ++ ":" ++ port.toNat.repr
  | .v6 text, port => "[" ++ text ++ "]:" ++ port.toNat.repr

structure ClientAuth where
  id : String
  token : String
  /-- The public ports this client may ask for. -/
  ports : List UInt16
  publicUrl : Option String

structure RelayConfig where
  bind : IpAddr
  controlPort : UInt16
  heartbeatSecs : UInt64
  publicHost : Option String
  tlsCert : Option String
  tlsKey : Option String
  visitorBind : Option IpAddr
  pathRouterPort : Option UInt16
  publicBaseUrl : Option String
  visitorTls : Option Bool
  clients : List ClientAuth

/-- Both halves of the certificate are configured, so `Relay::new` made a TLS
acceptor. -/
def RelayConfig.acceptor (cfg : RelayConfig) : Bool :=
  cfg.tlsCert.isSome && cfg.tlsKey.isSome

/-- `maybe_visitor_tls`: whether a visitor has to pass a TLS handshake. -/
def RelayConfig.maybeVisitorTls (cfg : RelayConfig) : Bool :=
  cfg.visitorTls.getD cfg.acceptor && cfg.acceptor

def RelayConfig.client (cfg : RelayConfig) (id : String) : Option ClientAuth :=
  cfg.clients.find? fun client => client.id = id

/-- `trim_end_matches('/')`. -/
def trimEndSlashes (text : String) : String :=
  String.ofList (text.toList.reverse.dropWhile (· = '/')).reverse

def RelayConfig.publicUrlFor (cfg : RelayConfig) (clientId : String) :
    Option String :=
  match (cfg.client clientId).bind ClientAuth.publicUrl with
  | some url => some url
  | none =>
      match cfg.pathRouterPort, cfg.publicBaseUrl with
      | some _, some base => some (trimEndSlashes base ++ "/" ++ clientId ++ "/")
      | _, _ => none

/-- Whether a client may ask for a port. -/
def RelayConfig.allowed (cfg : RelayConfig) (clientId : String)
    (remotePort : UInt16) : Bool :=
  ((cfg.client clientId).map fun client => client.ports.contains remotePort).getD
    false

def RelayConfig.portsEmpty (cfg : RelayConfig) (clientId : String) : Bool :=
  ((cfg.client clientId).map fun client => client.ports.isEmpty).getD true

def RelayConfig.visitorAddr (cfg : RelayConfig) (port : UInt16) : String :=
  socketAddr (cfg.visitorBind.getD cfg.bind) port

/-- The first path segment of a request line; `none` when the block holds no
complete line, or the line is not UTF-8 or not a request line. -/
def firstPathSegment (head : List UInt8) : Option String := do
  let lineEnd ← head.findIdx? fun byte => byte = 13 ∨ byte = 10
  let line ← String.fromUTF8? ⟨(head.take lineEnd).toArray⟩
  let path ← (line.toList.splitOn ' ')[1]?
  match path with
  | '/' :: rest =>
      some (String.ofList (rest.takeWhile fun c => c ≠ '/' ∧ c ≠ '?' ∧ c ≠ '#'))
  | _ => none

example : firstPathSegment (utf8 "GET /mac?json HTTP/1.1\r\n") = some "mac" := by
  decide +kernel

/-- A listed port belongs to the entry found under the client's id. -/
theorem RelayConfig.allowed_iff (cfg : RelayConfig) (clientId : String)
    (remotePort : UInt16) :
    cfg.allowed clientId remotePort = true ↔
      ∃ client, cfg.client clientId = some client ∧ remotePort ∈ client.ports := by
  unfold RelayConfig.allowed
  cases cfg.client clientId <;> simp

end Yunpan.Relay
