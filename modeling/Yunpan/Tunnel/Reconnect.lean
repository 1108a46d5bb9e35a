import Yunpan.Client.Run
import Yunpan.Relay.Succession

/-!
# A client and its relay

The reconnect loop of one client runs together with the relay.  Every control
connection of the client is a pair of queues that keeps the order of the frames;
either side may find it broken at any moment, and frames that nobody reads any more
are lost with it.  The relay's other connections do what they like.
-/

namespace Yunpan.Tunnel

open Yunpan.Protocol
open Yunpan.Transition
open Yunpan.Relay
open Yunpan.Client

/-- The frames under way on one control connection of the client. -/
structure Link where
  toRelay : List ClientMsg
  toClient : List ServerMsg
  deriving DecidableEq

/-- `conn` is the relay's number of the connection that the client uses now. -/
structure Pair where
  relay : State
  client : Runner
  conn : Option ℕ
  links : ℕ → Option Link

inductive PairLabel where
  | relay (label : Label)
  | client (label : RunLabel)
  | connect (i : ℕ)

/-- The frame that an action of the relay reads. -/
def reads : Action → Option ClientMsg
  | .frame _ msg _ => some msg
  | .read msg => msg
  | _ => none

/-- The frame that an action of the relay writes. -/
def answer (crates : Crates) (cfg : RelayConfig) (c : Conn) : Action → Option ServerMsg
  | .frame nonce msg io =>
      match c.phase with
      | .incoming stage => (stage.step crates.hmac cfg nonce io msg).1
      | _ => none
  | .written io =>
      match c.phase with
      | .control _ (.write msg _) => if crates.writes io msg then some msg else none
      | _ => none
  | _ => none

/-- The relay takes the next frame off the link and puts its answer there. -/
def Link.serve (link : Link) (taken : Option ClientMsg) (written : Option ServerMsg) :
    Option Link :=
  match taken with
  | none => some { link with toClient := link.toClient ++ written.toList }
  | some msg =>
      if link.toRelay.head? = some msg then
        some ⟨link.toRelay.tail, link.toClient ++ written.toList⟩
      else none

/-- A step of the relay; on a connection of the client it reads what the client
sent. -/
def Pair.relayStep (crates : Crates) (cfg : RelayConfig) (w : Pair) (label : Label) :
    Option Pair :=
  (w.relay.step crates cfg label).bind fun relay =>
    match label with
    | .conn i action =>
        match w.links i with
        | none => some { w with relay := relay }
        | some link =>
            (link.serve (reads action) (answer crates cfg (w.relay.conns i) action)).map
              fun link => { w with
                relay := relay
                links := Function.update w.links i (some link) }
    | _ => some { w with relay := relay }

def Pair.link (w : Pair) : Option (ℕ × Link) :=
  w.conn.bind fun i => (w.links i).map fun link => (i, link)

/-- What a step of the client does to its connection: a frame that was written is
under way, and a frame that is read was the next one. -/
def Pair.carry (cfg : ClientConfig) (w : Pair) : RunLabel → Option (ℕ → Option Link)
  | .connected true => none
  | .written true => do
      let (i, link) ← w.link
      let msg ← w.client.frame cfg
      some (Function.update w.links i
        (some { link with toRelay := link.toRelay ++ [msg] }))
  | .read (some msg) => do
      let (i, link) ← w.link
      if link.toClient.head? = some msg then
        some (Function.update w.links i
          (some { link with toClient := link.toClient.tail }))
      else none
  | _ => some w.links

def Pair.clientStep (hmac : Hmac) (cfg : ClientConfig) (w : Pair) (label : RunLabel) :
    Option Pair := do
  let client ← w.client.step hmac cfg w.relay.now label
  let links ← w.carry cfg label
  some { w with client := client, links := links }

/-- `connect_relay` succeeds: the relay accepts a connection that nobody used. -/
def Pair.connect (crates : Crates) (cfg : RelayConfig) (me : ClientConfig) (w : Pair)
    (i : ℕ) : Option Pair := do
  let client ← w.client.step crates.hmac me w.relay.now (.connected true)
  let relay ← w.relay.step crates cfg (.conn i .accept)
  some ⟨relay, client, some i, Function.update w.links i (some ⟨[], []⟩)⟩

def Pair.step (crates : Crates) (cfg : RelayConfig) (me : ClientConfig) (w : Pair) :
    PairLabel → Option Pair
  | .relay label => w.relayStep crates cfg label
  | .client label => w.clientStep crates.hmac me label
  | .connect i => w.connect crates cfg me i

/-- One client and its relay. -/
def pair (crates : Crates) (cfg : RelayConfig) (me : ClientConfig) :
    System Pair PairLabel where
  init := ⟨State.init, Runner.init, none, fun _ => none⟩
  step := Pair.step crates cfg me

end Yunpan.Tunnel
