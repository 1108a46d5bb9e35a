import Yunpan.Protocol.Transcript
import Yunpan.Client.Handshake
import Yunpan.Relay.Isolation

/-!
# Agreement on who a connection is

The relay runs together with honest clients and a network that delivers what it
likes to either side: the frames the relay reads are part of its labels, the
frames a client reads part of its own.  A log remembers, newest first, which
challenges were issued, what the clients signed and which connections passed.
The HMAC is ideal in a run when a response that verifies was signed before in
that run, and signed texts that differ have different responses.
-/

namespace Yunpan.Tunnel

open Yunpan.Protocol
open Yunpan.Transition
open Yunpan.Relay
open Yunpan.Client

/-- A handshake of an honest client. -/
structure Exchange where
  holder : ClientConfig
  role : Role
  stage : Client.Handshake

inductive NetEvent where
  | issued (conn : ℕ) (nonce : Nonce)
  | signed (holder : ClientConfig) (proto : UInt16) (role : Role) (nonceHex : String)
  | passed (conn : ℕ) (role : Role) (mac : String)

structure Net where
  relay : State
  exchanges : ℕ → Option Exchange
  log : List NetEvent

inductive NetLabel where
  | relay (label : Label)
  | dial (j : ℕ) (holder : ClientConfig) (connId : Option UInt64)
  | written (j : ℕ) (ok : Bool)
  | read (j : ℕ) (msg : Option ServerMsg)

/-- What a step of connection `i` adds to the log. -/
def relayEvents (i : ℕ) (c c' : Conn) : Action → List NetEvent
  | .frame nonce _ _ =>
      match c.phase, c'.phase with
      | .incoming .hello, .incoming (.auth ..) => [.issued i nonce]
      | .incoming (.auth ..), _ =>
          match c'.accepted with
          | some a => [.passed i a.role a.mac]
          | none => []
      | _, _ => []
  | _ => []

def labelEvents (s s' : State) : Label → List NetEvent
  | .conn i action => relayEvents i (s.conns i) (s'.conns i) action
  | _ => []

def Net.relayStep (crates : Crates) (cfg : RelayConfig) (net : Net) (label : Label) :
    Option Net :=
  (net.relay.step crates cfg label).map fun relay =>
    { net with
      relay := relay
      log := labelEvents net.relay relay label ++ net.log }

/-- A client opens a connection: for its control session or for a visitor. -/
def Net.dial (holders : List ClientConfig) (net : Net) (j : ℕ) (holder : ClientConfig)
    (connId : Option UInt64) : Option Net :=
  if holder ∈ holders ∧ net.exchanges j = none then
    let role := connId.elim holder.controlRole holder.dataRole
    some { net with
      exchanges := Function.update net.exchanges j (some ⟨holder, role, .hello⟩) }
  else none

def Net.written (net : Net) (j : ℕ) (ok : Bool) : Option Net :=
  (net.exchanges j).map fun x =>
    { net with exchanges :=
        Function.update net.exchanges j (some { x with stage := x.stage.written ok }) }

/-- What a frame read by a client adds to the log. -/
def Exchange.events (x : Exchange) : Option ServerMsg → List NetEvent
  | some (.challenge nonceHex) =>
      if x.stage = .challenge then [.signed x.holder protoVersion x.role nonceHex]
      else []
  | _ => []

def Net.read (hmac : Hmac) (net : Net) (j : ℕ) (msg : Option ServerMsg) : Option Net :=
  (net.exchanges j).map fun x =>
    { net with
      exchanges := Function.update net.exchanges j
        (some { x with stage := x.stage.read hmac x.holder x.role msg })
      log := x.events msg ++ net.log }

def Net.step (crates : Crates) (cfg : RelayConfig) (holders : List ClientConfig)
    (net : Net) : NetLabel → Option Net
  | .relay label => net.relayStep crates cfg label
  | .dial j holder connId => net.dial holders j holder connId
  | .written j ok => net.written j ok
  | .read j msg => net.read crates.hmac j msg

/-- The relay, the clients that hold tokens, and a network without scruples. -/
def net (crates : Crates) (cfg : RelayConfig) (holders : List ClientConfig) :
    System Net NetLabel where
  init := ⟨State.init, fun _ => none, []⟩
  step := Net.step crates cfg holders

/-! ## What the relay's steps log -/

variable {crates : Crates} {cfg : RelayConfig} {holders : List ClientConfig}
variable {w w' : Net}

/-- The connections that wait for a response, before and after a step. -/
def Challenged (c c' : Conn) : Prop :=
  ∀ proto role token nonceHex, c'.phase = .incoming (.auth proto role token nonceHex) →
    c.phase = .incoming (.auth proto role token nonceHex)

/-- A relay step issues a challenge, lets a connection pass, or does neither. -/
inductive RelayMove (crates : Crates) (w w' : Net) (label : Label) : Prop
  | quiet : w'.log = w.log →
      (∀ j, Challenged (w.relay.conns j) (w'.relay.conns j)) →
      RelayMove crates w w' label
  | issued {i : ℕ} {nonce : Nonce} {msg : ClientMsg} {io : Bool} :
      label = .conn i (.frame nonce msg io) →
      (w.relay.conns i).phase = .incoming .hello →
      (∃ proto role token,
        (w'.relay.conns i).phase = .incoming (.auth proto role token nonce.hex)) →
      w'.log = .issued i nonce :: w.log →
      (∀ j, j ≠ i → Challenged (w.relay.conns j) (w'.relay.conns j)) →
      RelayMove crates w w' label
  | passed {i : ℕ} {nonce : Nonce} {proto : UInt16} {role : Role}
      {token : Option String} {nonceHex mac : String} :
      label = .conn i (.frame nonce (.auth mac) true) →
      (w.relay.conns i).phase = .incoming (.auth proto role token nonceHex) →
      accepts crates.hmac proto role token nonceHex mac = true →
      (w'.relay.conns i).accepted = some ⟨proto, role, nonceHex, mac⟩ →
      w'.log = .passed i role mac :: w.log →
      (∀ j, Challenged (w.relay.conns j) (w'.relay.conns j)) →
      RelayMove crates w w' label

theorem Challenged.refl (c : Conn) : Challenged c c := fun _ _ _ _ h => h

theorem challenged_of_not_auth {c c' : Conn}
    (h : ∀ proto role token nonceHex,
      c'.phase ≠ .incoming (.auth proto role token nonceHex)) : Challenged c c' :=
  fun proto role token nonceHex hphase => absurd hphase (h proto role token nonceHex)

theorem challenged_of_stride {label : Label} {j : ℕ} {c c' : Conn}
    (hstride : Conn.Stride crates cfg label j c c')
    (hlabel : ∀ action, label ≠ .conn j action) : Challenged c c' := by
  cases hstride with
  | same hsame =>
      intro proto role token nonceHex hphase
      rwa [hsame.1] at hphase
  | control phase' _ hnew => exact challenged_of_not_auth (by simp [hnew.1])
  | handshake heq => exact absurd heq (hlabel _)
  | refused _ _ heq => subst heq; exact challenged_of_not_auth (by simp)
  | joined _ _ heq => subst heq; exact challenged_of_not_auth (by simp)

/-- Nothing is logged when a connection gains no grant and no challenge. -/
theorem relayEvents_nil {i : ℕ} {c c' : Conn} (action : Action)
    (haccepted : c'.accepted = c.accepted)
    (hearly : (∃ stage, c.phase = .incoming stage) → c.accepted = none)
    (hnot : c.phase = .incoming .hello → ∀ proto role token nonceHex,
      c'.phase ≠ .incoming (.auth proto role token nonceHex)) :
    relayEvents i c c' action = [] := by
  cases action with
  | frame nonce msg io =>
      simp only [relayEvents]
      split
      case h_1 hphase hphase' => exact absurd hphase' (hnot hphase _ _ _ _)
      case h_2 hphase => rw [haccepted, hearly ⟨_, hphase⟩]
      case h_3 => rfl
  | _ => rfl

theorem handshake_logs {i : ℕ} {c : Conn} {action : Action}
    (hgenuine : (w.relay.conns i).Genuine crates cfg)
    (hmove : HandshakeMove crates cfg (w.relay.conns i) action c)
    (hrelay : w'.relay = w.relay.setConn i c)
    (hlog : w'.log = relayEvents i (w.relay.conns i) c action ++ w.log) :
    RelayMove crates w w' (.conn i action) := by
  have hi : w'.relay.conns i = c := by rw [hrelay, setConn_conns_self]
  have hother : ∀ j, j ≠ i → Challenged (w.relay.conns j) (w'.relay.conns j) := by
    intro j hj
    rw [hrelay, setConn_conns_ne _ c hj]
    exact .refl _
  have hall : Challenged (w.relay.conns i) c →
      ∀ j, Challenged (w.relay.conns j) (w'.relay.conns j) := by
    intro hchallenged j
    by_cases hj : j = i
    · subst hj
      rwa [hi]
    · exact hother j hj
  have hearly : (∃ stage, (w.relay.conns i).phase = .incoming stage) →
      (w.relay.conns i).accepted = none :=
    fun hstage => (hgenuine.early (Or.inr hstage)).1
  cases hmove with
  | accept hidle =>
      exact .quiet (by rw [hlog]; rfl) (hall (challenged_of_not_auth (by simp)))
  | @challenge role agent nonce hhello =>
      refine .issued rfl hhello ⟨_, _, _, by rw [hi]⟩ ?_ hother
      rw [hlog]
      simp [relayEvents, hhello]
  | close =>
      refine .quiet ?_ (hall (challenged_of_not_auth (by simp)))
      refine hlog.trans (List.self_eq_append_left.mpr ?_).symm
      exact relayEvents_nil action rfl hearly (by simp)
  | stay =>
      refine .quiet ?_ (hall (.refl _))
      refine hlog.trans (List.self_eq_append_left.mpr ?_).symm
      exact relayEvents_nil action rfl hearly (by simp +contextual)
  | @pass proto role token nonceHex mac nonce hauth haccepts =>
      refine .passed rfl hauth haccepts (by rw [hi]) ?_
        (hall (challenged_of_not_auth (by cases role <;> simp [Phase.enter])))
      rw [hlog]
      simp [relayEvents, hauth]

theorem relayStep_cases {label : Label} (hgenuine : w.relay.Genuine crates cfg)
    (h : w.relayStep crates cfg label = some w') :
    w.relay.step crates cfg label = some w'.relay ∧ w'.exchanges = w.exchanges ∧
      RelayMove crates w w' label := by
  obtain ⟨relay, hstep, rfl⟩ := Option.map_eq_some_iff.mp h
  cases label with
  | conn i action =>
      refine ⟨hstep, rfl, ?_⟩
      obtain ⟨c, hact, rfl⟩ := conn_cases hstep
      by_cases hcontrol : ∃ clientId phase,
          (w.relay.conns i).phase = .control clientId phase
      · obtain ⟨clientId, phase, hphase⟩ := hcontrol
        obtain ⟨phase', hphase', -⟩ := act_control hphase hact
        refine .quiet
          (by cases action <;> simp [labelEvents, relayEvents, hphase]) fun j => ?_
        by_cases hj : j = i
        · subst hj
          exact challenged_of_not_auth (by simp [hphase'])
        · simpa [hj] using Challenged.refl (w.relay.conns j)
      · have hmove := act_other (fun id p hp => hcontrol ⟨id, p, hp⟩) hact
        exact handshake_logs (hgenuine i) hmove rfl (by simp [labelEvents])
  | _ =>
      refine ⟨hstep, rfl, .quiet rfl fun j => ?_⟩
      exact challenged_of_stride (step_stride hstep j) (by simp)

/-! ## Ideal runs -/

def NetEvent.nonceHex? : NetEvent → Option String
  | .issued _ nonce => some nonce.hex
  | .signed _ _ _ nonceHex => some nonceHex
  | .passed _ _ _ => none

/-- The response with which a connection passed. -/
def NetEvent.mac? : NetEvent → Option String
  | .passed _ _ mac => some mac
  | _ => none

/-- A challenge that the relay draws has not occurred before. -/
def Fresh (w : Net) : NetLabel → Prop
  | .relay (.conn i (.frame nonce _ _)) =>
      (w.relay.conns i).phase = .incoming .hello →
        ∀ event ∈ w.log, event.nonceHex? ≠ some nonce.hex
  | _ => True

/-- A response that verifies was computed by a holder of the token, for this very
text. -/
def Unforged (crates : Crates) (w : Net) : NetLabel → Prop
  | .relay (.conn i (.frame _ (.auth mac) _)) =>
      ∀ proto role token nonceHex,
        (w.relay.conns i).phase = .incoming (.auth proto role token nonceHex) →
        accepts crates.hmac proto role token nonceHex mac = true →
        ∃ holder proto' role' nonceHex', token = some holder.token ∧
          .signed holder proto' role' nonceHex' ∈ w.log ∧
          transcript proto' role' nonceHex' = transcript proto role nonceHex
  | _ => True

/-- Texts that were signed with the same outcome are the same. -/
def CollisionFree (hmac : Hmac) (log : List NetEvent) : Prop :=
  ∀ holder proto role nonceHex holder' proto' role' nonceHex',
    .signed holder proto role nonceHex ∈ log →
    .signed holder' proto' role' nonceHex' ∈ log →
    sign hmac holder.token proto role nonceHex =
      sign hmac holder'.token proto' role' nonceHex' →
    transcript proto role nonceHex = transcript proto' role' nonceHex'

/-- A run in which nonces never repeat and the HMAC is ideal. -/
structure Ideal (crates : Crates) (history : List (Net × NetLabel)) (w : Net) :
    Prop where
  fresh : System.Always Fresh history
  unforged : System.Always (Unforged crates) history
  collisionFree : CollisionFree crates.hmac w.log

/-- Every connection that passed as a role was vouched for by a holder of the
client's token, who signed this role and this connection's challenge after it was
issued; and no response let two connections pass. -/
structure Agrees (cfg : RelayConfig) (holders : List ClientConfig)
    (log : List NetEvent) : Prop where
  matched : ∀ i role mac, .passed i role mac ∈ log →
    ∃ holder ∈ holders, ∃ nonce, cfg.token role.clientId = some holder.token ∧
      [.passed i role mac, .signed holder protoVersion role nonce.hex,
        .issued i nonce].Sublist log
  once : (log.filterMap NetEvent.mac?).Nodup

/-- No registered client id continues the context of a holder of its token. -/
def Separable (cfg : RelayConfig) (holders : List ClientConfig) : Prop :=
  ∀ holder ∈ holders, ∀ id, cfg.token id = some holder.token →
    ¬Continues holder.clientId id

/-! ## What holds in an ideal run -/

/-- How a connection that passed got past the handshake, as far as the text of the
signature tells. -/
def Net.Vouched (cfg : RelayConfig) (w : Net) (i : ℕ) (role : Role) (mac : String) :
    Prop :=
  ∃ nonce holder role' nonceHex',
    (w.relay.conns i).accepted = some ⟨protoVersion, role, nonce.hex, mac⟩ ∧
    .issued i nonce ∈ w.log ∧ cfg.token role.clientId = some holder.token ∧
    transcript protoVersion role' nonceHex' = transcript protoVersion role nonce.hex ∧
    [.passed i role mac, .signed holder protoVersion role' nonceHex'].Sublist w.log

structure Net.Sound (cfg : RelayConfig) (holders : List ClientConfig) (w : Net) :
    Prop where
  exchange : ∀ {j x}, w.exchanges j = some x →
    x.holder ∈ holders ∧ x.role.clientId = x.holder.clientId
  signed : ∀ {holder proto role nonceHex}, .signed holder proto role nonceHex ∈ w.log →
    holder ∈ holders ∧ proto = protoVersion ∧ role.clientId = holder.clientId
  challenged : ∀ {i proto role token nonceHex},
    (w.relay.conns i).phase = .incoming (.auth proto role token nonceHex) →
    ∃ nonce : Nonce, nonceHex = nonce.hex ∧ .issued i nonce ∈ w.log
  fresh : w.log.Pairwise fun later earlier => ∀ i nonce, later = .issued i nonce →
    earlier.nonceHex? ≠ some nonce.hex
  passed : ∀ {i role mac}, .passed i role mac ∈ w.log → w.Vouched cfg i role mac

theorem Net.Vouched.mono {i : ℕ} {role : Role} {mac : String}
    (h : w.Vouched cfg i role mac) (hlog : w.log.Sublist w'.log)
    (haccepted : ∀ a, (w.relay.conns i).accepted = some a →
      (w'.relay.conns i).accepted = some a) : w'.Vouched cfg i role mac := by
  obtain ⟨nonce, holder, role', nonceHex', hacc, hissued, htoken, htext, hsub⟩ := h
  exact ⟨nonce, holder, role', nonceHex', haccepted _ hacc, hlog.subset hissued, htoken,
    htext, hsub.trans hlog⟩

theorem Net.Sound.init : (net crates cfg holders).init.Sound cfg holders := by
  constructor <;> simp [net, State.init, Conn.fresh]

theorem Net.Sound.quiet (hs : w.Sound cfg holders)
    (hexchanges : w'.exchanges = w.exchanges)
    (hlog : w'.log = w.log)
    (hchallenged : ∀ j, Challenged (w.relay.conns j) (w'.relay.conns j))
    (haccepted : ∀ i a, (w.relay.conns i).accepted = some a →
      (w'.relay.conns i).accepted = some a) : w'.Sound cfg holders where
  exchange hx := hs.exchange (hexchanges ▸ hx)
  signed hmem := hs.signed (hlog ▸ hmem)
  challenged hphase := by
    obtain ⟨nonce, hhex, hissued⟩ := hs.challenged (hchallenged _ _ _ _ _ hphase)
    exact ⟨nonce, hhex, hlog ▸ hissued⟩
  fresh := hlog ▸ hs.fresh
  passed hmem := (hs.passed (hlog ▸ hmem)).mono (by rw [hlog]) (haccepted _)

theorem Net.Sound.relayMove {label : Label} (hs : w.Sound cfg holders)
    (hgenuine : w.relay.Genuine crates cfg) (hfresh : Fresh w (.relay label))
    (hunforged : Unforged crates w (.relay label))
    (hexchanges : w'.exchanges = w.exchanges)
    (haccepted : ∀ i a, (w.relay.conns i).accepted = some a →
      (w'.relay.conns i).accepted = some a)
    (hmove : RelayMove crates w w' label) : w'.Sound cfg holders := by
  cases hmove with
  | quiet hlog hchallenged => exact hs.quiet hexchanges hlog hchallenged haccepted
  | @issued i nonce msg io hlabel hhello hauth hlog hchallenged =>
      subst hlabel
      refine ⟨fun hx => hs.exchange (hexchanges ▸ hx), ?_, ?_, ?_, ?_⟩
      · intro holder proto role nonceHex hmem
        exact hs.signed (by simpa [hlog] using hmem)
      · intro j proto role token nonceHex hphase
        by_cases hj : j = i
        · subst hj
          obtain ⟨proto', role', token', hphase'⟩ := hauth
          rw [hphase'] at hphase
          cases hphase
          exact ⟨nonce, rfl, by simp [hlog]⟩
        · obtain ⟨nonce', hhex, hissued⟩ :=
            hs.challenged (hchallenged j hj _ _ _ _ hphase)
          exact ⟨nonce', hhex, by simp [hlog, hissued]⟩
      · rw [hlog, List.pairwise_cons]
        refine ⟨fun event hevent j nonce' heq => ?_, hs.fresh⟩
        cases heq
        exact hfresh hhello event hevent
      · intro j role mac hmem
        exact (hs.passed (by simpa [hlog] using hmem)).mono (by simp [hlog])
          (haccepted j)
  | @passed i nonce proto role token nonceHex mac hlabel hauth haccepts hacc hlog
      hchallenged =>
      subst hlabel
      refine ⟨fun hx => hs.exchange (hexchanges ▸ hx), ?_, ?_, ?_, ?_⟩
      · intro holder proto role nonceHex hmem
        exact hs.signed (by simpa [hlog] using hmem)
      · intro j proto role token nonceHex hphase
        obtain ⟨nonce', hhex, hissued⟩ := hs.challenged (hchallenged j _ _ _ _ hphase)
        exact ⟨nonce', hhex, by simp [hlog, hissued]⟩
      · rw [hlog, List.pairwise_cons]
        exact ⟨fun event hevent j nonce' heq => (NetEvent.noConfusion heq), hs.fresh⟩
      · intro j role' mac' hmem
        rw [hlog, List.mem_cons] at hmem
        rcases hmem with heq | hold
        · cases heq
          obtain ⟨rfl, rfl⟩ := (hgenuine i).challenged hauth
          obtain ⟨nonce', rfl, hissued⟩ := hs.challenged hauth
          obtain ⟨holder, proto', role', nonceHex', htoken, hsigned, htext⟩ :=
            hunforged _ _ _ _ hauth haccepts
          obtain ⟨-, rfl, -⟩ := hs.signed hsigned
          refine ⟨nonce', holder, role', nonceHex', hacc, by simp [hlog, hissued],
            htoken,
            htext, ?_⟩
          rw [hlog]
          exact (List.singleton_sublist.mpr hsigned).cons_cons _
        · exact (hs.passed hold).mono (by simp [hlog]) (haccepted j)

theorem relay_of_net (h : (net crates cfg holders).Reachable w) :
    (relay crates cfg).Reachable w.relay := by
  refine h.component Net.relay rfl fun w label w' ih hstep => ?_
  cases label with
  | relay label =>
      obtain ⟨relay, hrelay, rfl⟩ := Option.map_eq_some_iff.mp hstep
      exact ih.step hrelay
  | dial j holder connId =>
      simp only [net, Net.step, Net.dial] at hstep
      split at hstep
      case isTrue => cases hstep; exact ih
      case isFalse => cases hstep
  | written j ok =>
      obtain ⟨x, -, rfl⟩ := Option.map_eq_some_iff.mp hstep
      exact ih
  | read j msg =>
      obtain ⟨x, -, rfl⟩ := Option.map_eq_some_iff.mp hstep
      exact ih

/-- A step of a client: it may log what the client signed. -/
theorem Net.Sound.extend (hs : w.Sound cfg holders) (events : List NetEvent)
    (hrelay : w'.relay = w.relay) (hlog : w'.log = events ++ w.log)
    (hexchange : ∀ {j x}, w'.exchanges j = some x →
      x.holder ∈ holders ∧ x.role.clientId = x.holder.clientId)
    (hevents : ∀ event ∈ events, ∃ holder role nonceHex, holder ∈ holders ∧
      role.clientId = holder.clientId ∧
      event = .signed holder protoVersion role nonceHex) : w'.Sound cfg holders where
  exchange := hexchange
  signed hmem := by
    rw [hlog, List.mem_append] at hmem
    rcases hmem with hnew | hold
    · obtain ⟨holder, role, nonceHex, hholder, hrole, heq⟩ := hevents _ hnew
      cases heq
      exact ⟨hholder, rfl, hrole⟩
    · exact hs.signed hold
  challenged hphase := by
    obtain ⟨nonce, hhex, hissued⟩ := hs.challenged (hrelay ▸ hphase)
    exact ⟨nonce, hhex, by simp [hlog, hissued]⟩
  fresh := by
    have hnot : ∀ event ∈ events, ∀ i nonce, event ≠ .issued i nonce := by
      intro event hevent i nonce heq
      obtain ⟨_, _, _, -, -, hsigned⟩ := hevents event hevent
      rw [heq] at hsigned
      cases hsigned
    rw [hlog, List.pairwise_append]
    refine ⟨List.pairwise_of_forall_mem_list ?_, hs.fresh, ?_⟩
    · exact fun later hlater _ _ i nonce heq => absurd heq (hnot later hlater i nonce)
    · exact fun later hlater _ _ i nonce heq => absurd heq (hnot later hlater i nonce)
  passed hmem := by
    rw [hlog, List.mem_append] at hmem
    rcases hmem with hnew | hold
    · obtain ⟨_, _, _, -, -, hsigned⟩ := hevents _ hnew
      cases hsigned
    · exact (hs.passed hold).mono (by simp [hlog]) (by simp [hrelay])

/-- What a client logs is a signature of its own. -/
theorem Exchange.events_signed {x : Exchange} {msg : Option ServerMsg}
    {event : NetEvent} (h : event ∈ x.events msg) :
    ∃ nonceHex, event = .signed x.holder protoVersion x.role nonceHex := by
  unfold Exchange.events at h
  split at h
  case h_1 nonceHex =>
    split at h
    case isTrue => exact ⟨nonceHex, List.mem_singleton.mp h⟩
    case isFalse => cases h
  case h_2 => cases h

theorem Net.Sound.step {label : NetLabel} (hs : w.Sound cfg holders)
    (hgenuine : w.relay.Genuine crates cfg) (hfresh : Fresh w label)
    (hunforged : Unforged crates w label)
    (h : w.step crates cfg holders label = some w') : w'.Sound cfg holders := by
  cases label with
  | relay label =>
      obtain ⟨hstep, hexchanges, hmove⟩ := relayStep_cases hgenuine h
      exact hs.relayMove hgenuine hfresh hunforged hexchanges
        (fun i a ha => (hgenuine i).accepted_kept (step_stride hstep i) ha) hmove
  | dial j holder connId =>
      simp only [Net.step, Net.dial] at h
      split at h
      case isTrue hdial =>
        cases h
        refine hs.extend [] rfl rfl (fun hx => ?_) (by simp)
        rcases update_cases hx with ⟨-, heq⟩ | ⟨-, hold⟩
        · cases heq
          exact ⟨hdial.1, by cases connId <;> rfl⟩
        · exact hs.exchange hold
      case isFalse => cases h
  | written j ok =>
      obtain ⟨x, hx, rfl⟩ := Option.map_eq_some_iff.mp h
      refine hs.extend [] rfl rfl (fun hx' => ?_) (by simp)
      rcases update_cases hx' with ⟨-, heq⟩ | ⟨-, hold⟩
      · cases heq
        have hold := hs.exchange hx
        exact hold
      · exact hs.exchange hold
  | read j msg =>
      obtain ⟨x, hx, rfl⟩ := Option.map_eq_some_iff.mp h
      obtain ⟨hholder, hrole⟩ := hs.exchange hx
      refine hs.extend (x.events msg) rfl rfl (fun hx' => ?_) ?_
      · rcases update_cases hx' with ⟨-, heq⟩ | ⟨-, hold⟩
        · cases heq
          exact ⟨hholder, hrole⟩
        · exact hs.exchange hold
      · intro event hevent
        obtain ⟨nonceHex, rfl⟩ := Exchange.events_signed hevent
        exact ⟨x.holder, x.role, nonceHex, hholder, hrole, rfl⟩

theorem sound_of_run {history : List (Net × NetLabel)}
    (h : (net crates cfg holders).Run history w) (hfresh : System.Always Fresh history)
    (hunforged : System.Always (Unforged crates) history) : w.Sound cfg holders := by
  have halways : System.Always (fun w label => Fresh w label ∧ Unforged crates w label)
      history := fun entry hentry => ⟨hfresh entry hentry, hunforged entry hentry⟩
  exact h.invariant_of_always halways .init fun _ _ _ hreach hs hcond hstep =>
    hs.step (genuine_of_reachable (relay_of_net hreach)) hcond.1 hcond.2 hstep

/-! ## The order of a log -/

theorem pair_of_pairwise {α : Type*} {R : α → α → Prop} {log : List α}
    (h : log.Pairwise R) {a b : α} (ha : a ∈ log) (hb : b ∈ log) (hne : a ≠ b)
    (hR : ¬R b a) : [a, b].Sublist log := by
  obtain ⟨newer, older, rfl⟩ := List.append_of_mem ha
  rcases List.mem_append.mp hb with hnewer | holder
  · exact absurd ((List.pairwise_append.mp h).2.2 b hnewer a List.mem_cons_self) hR
  · have hmem : b ∈ older := (List.mem_cons.mp holder).resolve_left hne.symm
    exact ((List.singleton_sublist.mpr hmem).cons_cons a).trans
      (List.sublist_append_right _ _)

theorem triple_of_pairwise {α : Type*} {R : α → α → Prop} {log : List α}
    (h : log.Pairwise R) {a b c : α} (hab : [a, b].Sublist log) (hc : c ∈ log)
    (hne : b ≠ c) (hR : ¬R c b) : [a, b, c].Sublist log := by
  obtain ⟨newer, older, rfl, ha, hb⟩ := List.cons_sublist_iff.mp hab
  rw [List.singleton_sublist] at hb
  obtain ⟨-, holder, hcross⟩ := List.pairwise_append.mp h
  rcases List.mem_append.mp hc with hnewer | hmem
  · exact absurd (hcross c hnewer b hb) hR
  · exact List.cons_sublist_iff.mpr
      ⟨newer, older, rfl, ha, pair_of_pairwise holder hb hmem hne hR⟩

/-! ## No response is accepted twice -/

theorem step_log {label : NetLabel} (hgenuine : w.relay.Genuine crates cfg)
    (h : w.step crates cfg holders label = some w') :
    w.log.Sublist w'.log ∧
      (w'.log.filterMap NetEvent.mac? = w.log.filterMap NetEvent.mac? ∨
      ∃ i role mac, w'.log = .passed i role mac :: w.log ∧
        (w.relay.conns i).accepted = none) := by
  cases label with
  | relay label =>
      obtain ⟨-, -, hmove⟩ := relayStep_cases hgenuine h
      cases hmove with
      | quiet hlog => exact ⟨by rw [hlog], Or.inl (by rw [hlog])⟩
      | issued _ _ _ hlog => exact ⟨by simp [hlog], Or.inl (by rw [hlog]; rfl)⟩
      | passed _ hauth _ _ hlog =>
          exact ⟨by simp [hlog], Or.inr ⟨_, _, _, hlog,
            ((hgenuine _).early (Or.inr ⟨_, hauth⟩)).1⟩⟩
  | dial j holder connId =>
      simp only [Net.step, Net.dial] at h
      split at h
      case isTrue => cases h; exact ⟨.refl _, Or.inl rfl⟩
      case isFalse => cases h
  | written j ok =>
      obtain ⟨x, -, rfl⟩ := Option.map_eq_some_iff.mp h
      exact ⟨.refl _, Or.inl rfl⟩
  | read j msg =>
      obtain ⟨x, -, rfl⟩ := Option.map_eq_some_iff.mp h
      have hnil : (x.events msg).filterMap NetEvent.mac? = [] := by
        rw [List.filterMap_eq_nil_iff]
        intro event hevent
        obtain ⟨nonceHex, rfl⟩ := Exchange.events_signed hevent
        rfl
      exact ⟨by simp, Or.inl (by simp [hnil])⟩

/-- Nonces that occur once tell the connections apart. -/
theorem Net.Sound.issued_once (hs : w.Sound cfg holders) {i j : ℕ} {nonce : Nonce}
    (hi : .issued i nonce ∈ w.log) (hj : .issued j nonce ∈ w.log) : i = j := by
  by_contra hne
  have hpair := pair_of_pairwise hs.fresh hi hj (by simpa using hne)
    fun hfresh => hfresh j nonce rfl rfl
  exact List.pairwise_iff_forall_sublist.mp hs.fresh hpair i nonce rfl rfl

theorem sign_congr (hmac : Hmac) (token : String) {proto proto' : UInt16}
    {role role' : Role} {nonceHex nonceHex' : String}
    (h : transcript proto role nonceHex = transcript proto' role' nonceHex') :
    sign hmac token proto role nonceHex = sign hmac token proto' role' nonceHex' := by
  rw [sign, h, sign]

/-- The response with which a connection passed is the one that the client
computed. -/
theorem Net.Vouched.mac_eq {i : ℕ} {role : Role} {mac : String}
    (hgenuine : w.relay.Genuine crates cfg) (h : w.Vouched cfg i role mac) :
    ∃ nonce holder role' nonceHex', .issued i nonce ∈ w.log ∧
      .signed holder protoVersion role' nonceHex' ∈ w.log ∧
      transcript protoVersion role' nonceHex' = transcript protoVersion role nonce.hex ∧
      mac = sign crates.hmac holder.token protoVersion role' nonceHex' := by
  obtain ⟨nonce, holder, role', nonceHex', hacc, hissued, htoken, htext, hsub⟩ := h
  obtain ⟨-, token, htoken', hmac⟩ := (hgenuine i).valid hacc
  obtain rfl : token = holder.token := Option.some.inj (htoken'.symm.trans htoken)
  exact ⟨nonce, holder, role', nonceHex', hissued, hsub.subset (by simp), htext,
    hmac.trans (sign_congr _ _ htext.symm)⟩

/-- Two connections that passed with the same response are one. -/
theorem Net.Sound.passed_once (hs : w.Sound cfg holders)
    (hgenuine : w.relay.Genuine crates cfg) (hfree : CollisionFree crates.hmac w.log)
    {i j : ℕ} {role role' : Role} {mac : String} (hi : .passed i role mac ∈ w.log)
    (hj : .passed j role' mac ∈ w.log) : i = j := by
  obtain ⟨nonce, holder, r, n, hissued, hsigned, htext, hmac⟩ :=
    (hs.passed hi).mac_eq hgenuine
  obtain ⟨nonce', holder', r', n', hissued', hsigned', htext', hmac'⟩ :=
    (hs.passed hj).mac_eq hgenuine
  have hsame := hfree _ _ _ _ _ _ _ _ hsigned hsigned' (hmac.symm.trans hmac')
  obtain ⟨-, -, rfl⟩ := transcript_injective (htext.symm.trans (hsame.trans htext'))
  exact hs.issued_once hissued hissued'

theorem NetEvent.eq_passed {event : NetEvent} {mac : String}
    (h : event.mac? = some mac) :
    ∃ i role, event = .passed i role mac := by
  cases event with
  | passed i role mac' =>
      cases h
      exact ⟨i, role, rfl⟩
  | _ => cases h

theorem nodup_macs {history : List (Net × NetLabel)}
    (h : (net crates cfg holders).Run history w) (hfresh : System.Always Fresh history)
    (hunforged : System.Always (Unforged crates) history)
    (hfree : CollisionFree crates.hmac w.log) :
    (w.log.filterMap NetEvent.mac?).Nodup := by
  induction h with
  | start => exact List.nodup_nil
  | @snoc history w w' label hrun hstep ih =>
      have hfresh' := (System.always_cons.mp hfresh).2
      have hunforged' := (System.always_cons.mp hunforged).2
      have hs' := sound_of_run (hrun.snoc hstep) hfresh hunforged
      have hgenuine' := genuine_of_reachable (relay_of_net (hrun.snoc hstep).reachable)
      obtain ⟨hlog, hmacs⟩ :=
        step_log (genuine_of_reachable (relay_of_net hrun.reachable)) hstep
      have hold := ih hfresh' hunforged' fun _ _ _ _ _ _ _ _ hsigned hsigned' =>
        hfree _ _ _ _ _ _ _ _ (hlog.subset hsigned) (hlog.subset hsigned')
      obtain hsame | ⟨i, role, mac, hpassed, hnone⟩ := hmacs
      · rwa [hsame]
      · rw [hpassed]
        refine List.nodup_cons.mpr ⟨fun hmem => ?_, hold⟩
        obtain ⟨event, hevent, hmac⟩ := List.mem_filterMap.mp hmem
        obtain ⟨j, role', rfl⟩ := NetEvent.eq_passed hmac
        -- the connection that passed before is this one, but this one had no grant
        have hnew : .passed i role mac ∈ w'.log := hpassed ▸ List.mem_cons_self
        obtain rfl := hs'.passed_once hgenuine' hfree hnew (hlog.subset hevent)
        obtain ⟨nonce, holder, r, n, hacc, -⟩ :=
          (sound_of_run hrun hfresh' hunforged').passed hevent
        rw [hnone] at hacc
        cases hacc

/-! ## Agreement -/

/-- Where no client id continues the context of a holder of its token, the text that
was signed names the role and the challenge of the connection. -/
theorem agrees_of_ideal {history : List (Net × NetLabel)}
    (hseparable : Separable cfg holders) (h : (net crates cfg holders).Run history w)
    (hideal : Ideal crates history w) : Agrees cfg holders w.log := by
  have hs := sound_of_run h hideal.fresh hideal.unforged
  refine ⟨fun i role mac hmem => ?_,
    nodup_macs h hideal.fresh hideal.unforged hideal.collisionFree⟩
  obtain ⟨nonce, holder, role', nonceHex', -, hissued, htoken, htext, hsub⟩ :=
    hs.passed hmem
  obtain ⟨hholder, -, hrole⟩ :=
    hs.signed (hsub.subset (List.mem_cons_of_mem _ List.mem_cons_self))
  obtain ⟨-, ⟨rfl, rfl⟩ | ⟨moved, hcontext, -⟩⟩ :=
    transcript_eq_cases nonce.bar_not_mem_hex htext
  · refine ⟨holder, hholder, nonce, htoken, ?_⟩
    exact triple_of_pairwise hs.fresh hsub hissued (by simp)
      fun hfresh => hfresh i nonce rfl rfl
  · exact absurd (hrole ▸ continues_of_context hcontext)
      (hseparable holder hholder role.clientId htoken)

/-! ## A run without agreement -/

section Confusion

variable {holder : ClientConfig} {connId : Option UInt64} {role : Role} {nonce : Nonce}
variable {nonceHex : String}

/-- A connection that has sent nothing yet. -/
def greetedConn : Conn := { Conn.fresh with phase := .incoming .hello }

/-- The connection that claims a role, once it is challenged. -/
def challengedConn (holder : ClientConfig) (role : Role) (nonce : Nonce) : Conn :=
  { Conn.fresh with
    phase := .incoming (.auth protoVersion role (some holder.token) nonce.hex) }

theorem act_challenge (nonce : Nonce)
    (htoken : cfg.token role.clientId = some holder.token) :
    greetedConn.act crates cfg
      (.frame nonce (.hello protoVersion role agentName) true) =
        some (challengedConn holder role nonce) := by
  simp [Conn.act, Conn.frame, Incoming.step, handleHello, Incoming.reply, htoken,
    greetedConn, challengedConn]

/-- The same connection after the response. -/
def passedConn (holder : ClientConfig) (role : Role) (nonce : Nonce) (mac : String) :
    Conn :=
  { challengedConn holder role nonce with
    accepted := some ⟨protoVersion, role, nonce.hex, mac⟩
    phase := Phase.enter role }

theorem act_pass (cfg : RelayConfig) {mac : String}
    (hmac : mac = sign crates.hmac holder.token protoVersion role nonce.hex) :
    (challengedConn holder role nonce).act crates cfg (.frame nonce (.auth mac) true) =
      some (passedConn holder role nonce mac) := by
  have hok :
      accepts crates.hmac protoVersion role (some holder.token) nonce.hex mac = true :=
    (accepts_iff _ _ _ _ _ _).mpr ⟨_, rfl, hmac⟩
  simp [Conn.act, Conn.frame, Incoming.step, handleAuth, Incoming.reply, hok,
    challengedConn, passedConn]

theorem net_conn {i : ℕ} {action : Action} {c c' : Conn} (hc : w.relay.conns i = c)
    (hact : c.act crates cfg action = some c') :
    (net crates cfg holders).step w (.relay (.conn i action)) =
      some ⟨w.relay.setConn i c', w.exchanges, relayEvents i c c' action ++ w.log⟩ := by
  simp [net, Net.step, Net.relayStep, State.step, hc, hact, labelEvents]

/-- A connection is challenged for a role. -/
theorem challenged_run (crates : Crates) (holders : List ClientConfig) (nonce : Nonce)
    (htoken : cfg.token role.clientId = some holder.token) :
    ∃ history w, (net crates cfg holders).Run history w ∧ System.Always Fresh history ∧
      System.Always (Unforged crates) history ∧
      w.relay.conns 0 = challengedConn holder role nonce ∧
      w.exchanges = (fun _ => none) ∧ w.log = [.issued 0 nonce] := by
  have haccept : (State.init.conns 0).act crates cfg .accept = some greetedConn := rfl
  have hnil : (net crates cfg holders).Run [] _ := System.Run.start
  have hstart := hnil.snoc (net_conn rfl haccept)
  have hgreeted : ((State.init.setConn 0 greetedConn).conns 0) = greetedConn := by simp
  refine ⟨_, _, hstart.snoc (net_conn hgreeted (act_challenge nonce htoken)),
    ?_, ?_, ?_, rfl, ?_⟩
  · simp [System.always_cons, Fresh, System.Always.nil, net, relayEvents]
  · simp [System.always_cons, Unforged, System.Always.nil]
  · simp
  · simp [net, relayEvents, greetedConn, challengedConn]

theorem collisionFree_of_single {hmac : Hmac} {log : List NetEvent} {role' : Role}
    {mac : String} (h : log = [.passed 0 role mac,
      .signed holder protoVersion role' nonceHex, .issued 0 nonce]) :
    CollisionFree hmac log := by
  subst h
  intro _ _ _ _ _ _ _ _ hsigned hsigned' _
  simp only [List.mem_cons, reduceCtorEq, List.not_mem_nil, or_false,
    false_or] at hsigned hsigned'
  cases hsigned
  cases hsigned'
  rfl

/-- A connection claims one role, an honest client in another role is challenged
with a string that makes the texts equal, and its response opens the connection. -/
theorem confused_run (crates : Crates) (hholder : holder ∈ holders)
    (htoken : cfg.token role.clientId = some holder.token)
    (htext : transcript protoVersion (connId.elim holder.controlRole holder.dataRole)
      nonceHex = transcript protoVersion role nonce.hex) :
    ∃ history w mac, (net crates cfg holders).Run history w ∧ Ideal crates history w ∧
      w.log = [.passed 0 role mac, .signed holder protoVersion
        (connId.elim holder.controlRole holder.dataRole) nonceHex,
        .issued 0 nonce] := by
  obtain ⟨history, w, hrun, hfresh, hunforged, hconn, hexchanges, hlog⟩ :=
    challenged_run crates holders nonce htoken
  set role' := connId.elim holder.controlRole holder.dataRole with hrole'
  set mac := sign crates.hmac holder.token protoVersion role' nonceHex with hmac
  let dialled (stage : Client.Handshake) :=
    Function.update w.exchanges 0 (some ⟨holder, role', stage⟩)
  have hdial : (net crates cfg holders).step w (.dial 0 holder connId) =
      some { w with exchanges := dialled .hello } := by
    simp [net, Net.step, Net.dial, hholder, hexchanges, hrole', dialled]
  have hwritten : (net crates cfg holders).step { w with exchanges := dialled .hello }
      (.written 0 true) = some { w with exchanges := dialled .challenge } := by
    simp [net, Net.step, Net.written, Client.Handshake.written, dialled]
  have hread : (net crates cfg holders).step { w with exchanges := dialled .challenge }
      (.read 0 (some (.challenge nonceHex))) =
        some { w with
          exchanges := dialled (.auth mac)
          log := .signed holder protoVersion role' nonceHex :: w.log } := by
    simp [net, Net.step, Net.read, Client.Handshake.read, readChallenge,
      Exchange.events, dialled, hmac]
  have hpass := act_pass cfg (sign_congr crates.hmac holder.token htext)
  have hsigned := ((hrun.snoc hdial).snoc hwritten).snoc hread
  have hlog' : relayEvents 0 (challengedConn holder role nonce)
      (passedConn holder role nonce mac) (.frame nonce (.auth mac) true) ++
        .signed holder protoVersion role' nonceHex :: w.log =
      [.passed 0 role mac, .signed holder protoVersion role' nonceHex,
        .issued 0 nonce] := by
    simp [relayEvents, challengedConn, passedConn, hlog]
  refine ⟨_, _, mac, hsigned.snoc (net_conn hconn hpass), ⟨?_, ?_, ?_⟩, hlog'⟩
  · simp [System.always_cons, Fresh, hfresh, hconn, challengedConn]
  · refine System.always_cons.mpr
      ⟨?_, by simp [System.always_cons, Unforged, hunforged]⟩
    intro proto r token n hphase _
    rw [show w.relay.conns 0 = _ from hconn] at hphase
    cases hphase
    exact ⟨holder, protoVersion, role', nonceHex, rfl, List.mem_cons_self, htext⟩
  · exact collisionFree_of_single hlog'

/-- What was signed for one role does not vouch for another. -/
theorem not_agrees {log : List NetEvent} {role' : Role} {mac : String}
    (hlog : log = [.passed 0 role mac, .signed holder protoVersion role' nonceHex,
      .issued 0 nonce]) (hne : role' ≠ role) : ¬Agrees cfg holders log := by
  intro hagrees
  obtain ⟨holder', -, nonce', -, hsub⟩ := hagrees.matched 0 role mac (by simp [hlog])
  have hsame := hsub.eq_of_length (by simp [hlog])
  rw [hlog] at hsame
  injection hsame with _ hsame
  injection hsame with hsigned _
  injection hsigned with _ _ hrole
  exact hne hrole.symm

end Confusion

/-- Every ideal run agrees exactly if no registered client id continues a context
of a client that shares its token. -/
theorem agreement_iff :
    (∀ history w, (net crates cfg holders).Run history w → Ideal crates history w →
      Agrees cfg holders w.log) ↔ Separable cfg holders := by
  refine ⟨fun hagrees holder hholder id htoken hcontinues => ?_,
    fun hseparable history w hrun hideal => agrees_of_ideal hseparable hrun hideal⟩
  obtain ⟨role, role', hrole, rfl, hne, htext⟩ := transcript_of_continues hcontinues
  obtain ⟨connId, rfl⟩ : ∃ connId : Option UInt64,
      role = connId.elim holder.controlRole holder.dataRole := by
    cases role with
    | control clientId => exact ⟨none, congrArg Role.control hrole⟩
    | data clientId k => exact ⟨some k, congrArg (Role.data · k) hrole⟩
  let nonce : Nonce := Vector.replicate 32 0
  obtain ⟨nonceHex, heq⟩ := htext protoVersion nonce.hex
  obtain ⟨history, w, mac, hrun, hideal, hlog⟩ := confused_run crates hholder htoken heq
  exact not_agrees hlog hne (hagrees history w hrun hideal)

/-! ## Two clients with one token -/

/-- The client `mac` of the sample relay. -/
def macClient : ClientConfig where
  relayHost := "relay.example"
  controlPort := 7100
  clientId := "mac"
  token := "mac-0123456789abcdef"
  name := "dufs"
  remotePort := 8080
  localPort := 5000
  tls := false

theorem separable_sample : Separable sampleConfig [macClient] := by
  intro holder hholder id htoken hcontinues
  obtain rfl := List.mem_singleton.mp hholder
  have hid : id = "mac" := by
    by_contra hne
    by_cases hpc : id = "pc"
    · subst hpc
      exact absurd htoken (by decide +kernel)
    · have hnone : sampleConfig.client id = none := by
        simp [RelayConfig.client, sampleConfig, Ne.symm hne, Ne.symm hpc]
      simp [RelayConfig.token, hnone] at htoken
  obtain ⟨rest, heq | ⟨k, heq⟩⟩ := hcontinues
  all_goals
    have hlength := congrArg (fun id => id.toList.length) (hid.symm.trans heq)
    simp [macClient] at hlength

/-- `mac` logs in, and its signature is the one that was asked for. -/
theorem agreement_iff_sample : ∃ history w mac,
    (net sampleCrates sampleConfig [macClient]).Run history w ∧
    Ideal sampleCrates history w ∧ .passed 0 (.control "mac") mac ∈ w.log ∧
    Agrees sampleConfig [macClient] w.log := by
  let nonce : Nonce := Vector.replicate 32 0
  have htoken : sampleConfig.token (Role.control "mac").clientId =
      some macClient.token := by
    decide +kernel
  have htext :
      transcript protoVersion (none.elim macClient.controlRole macClient.dataRole)
      nonce.hex = transcript protoVersion (.control "mac") nonce.hex := rfl
  obtain ⟨history, w, mac, hrun, hideal, hlog⟩ :=
    confused_run sampleCrates (List.mem_singleton.mpr rfl) htoken htext
  exact ⟨history, w, mac, hrun, hideal, by simp [hlog],
    agreement_iff.mpr separable_sample history w hrun hideal⟩

/-- The sample relay with a second client under the token of `mac`. -/
def sharedConfig : RelayConfig :=
  { sampleConfig with clients :=
      [⟨"mac", "mac-0123456789abcdef", [8080], none⟩,
        ⟨"mac|pc", "mac-0123456789abcdef", [8081], none⟩] }

/-- A connection logs in as `mac|pc` with a signature of `mac`. -/
theorem confused_login : ∃ history w,
    (net sampleCrates sharedConfig [macClient]).Run history w ∧
    Ideal sampleCrates history w ∧ ¬Agrees sharedConfig [macClient] w.log := by
  let nonce : Nonce := Vector.replicate 32 0
  have htoken : sharedConfig.token (Role.control "mac|pc").clientId =
      some macClient.token := by decide +kernel
  have htext :
      transcript protoVersion (none.elim macClient.controlRole macClient.dataRole)
      ("pc|" ++ nonce.hex) = transcript protoVersion (.control "mac|pc") nonce.hex := by
    rw [← String.toList_inj]
    simp [transcript, Role.context, ClientConfig.controlRole, macClient]
  obtain ⟨history, w, mac, hrun, hideal, hlog⟩ :=
    confused_run sampleCrates (List.mem_singleton.mpr rfl) htoken htext
  exact ⟨history, w, hrun, hideal, not_agrees hlog (by decide)⟩

end Yunpan.Tunnel
