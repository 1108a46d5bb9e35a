import Yunpan.Core.Separator
import Yunpan.Tunnel.NeverFatal
import Yunpan.Relay.Startup

/-!
# The address that the client shows

The relay answers a request that it grants with a port and, where its configuration
names one, with an address.  The client shows that address, or makes one of the port
and its own settings.  Whether visitors reach it there is decided by both
configurations.
-/

namespace Yunpan.Tunnel

open Yunpan.Protocol
open Yunpan.Transition
open Yunpan.Transition.System
open Yunpan.Relay
open Yunpan.Client
open Yunpan.Separator

variable {crates : Crates} {cfg : RelayConfig} {me : ClientConfig} {w w' : Pair}

/-! ## What the client asks for -/

/-- A frame that speaks for the client and its port. -/
def OwnFrame (me : ClientConfig) : ClientMsg → Prop
  | .hello _ role _ => role = me.controlRole
  | .bind _ remotePort => remotePort = me.remotePort
  | _ => True

/-- A connection that the relay knows as one of the client. -/
structure OwnPhase (me : ClientConfig) (phase : Phase) : Prop where
  challenged : ∀ {proto role token nonceHex},
    phase = .incoming (.auth proto role token nonceHex) → role = me.controlRole
  control : ∀ {id stage}, phase = .control id stage → id = me.clientId

/-- What the relay takes from the frames of a connection of the client. -/
structure Asked (me : ClientConfig) (c : Conn) (link : Link) : Prop where
  frames : ∀ msg ∈ link.toRelay, OwnFrame me msg
  phase : OwnPhase me c.phase
  bind : ∀ {id name port}, c.phase = .control id (.bind name port) →
    port = me.remotePort

theorem ownFrame_of_frame {stage : SessionStage} {msg : ClientMsg}
    (h : stage.frame me = some msg) : OwnFrame me msg := by
  cases stage with
  | handshake stage => cases stage <;> cases h <;> trivial
  | connecting => cases h
  | loop => cases h
  | ended => cases h
  | _ =>
      cases h
      trivial

theorem OwnPhase.stride {label : Label} {i : ℕ} {c c' : Conn}
    (h : OwnPhase me c.phase) (hstride : Conn.Stride crates cfg label i c c')
    (hread : ∀ action msg, label = .conn i action → reads action = some msg →
      OwnFrame me msg) : OwnPhase me c'.phase := by
  cases hstride with
  | same hsame => rwa [hsame.1]
  | control phase' hold hnew =>
      rw [hnew.1]
      refine ⟨by simp, fun heq => ?_⟩
      cases heq
      exact h.control hold
  | handshake hlabel hmove =>
      cases hmove with
      | accept => exact ⟨by simp, by simp⟩
      | challenge =>
          refine ⟨fun heq => ?_, by simp⟩
          cases heq
          exact hread _ _ hlabel rfl
      | close => exact ⟨by simp, by simp⟩
      | stay => exact h
      | pass hauth =>
          obtain rfl := h.challenged hauth
          refine ⟨by simp [Phase.enter, ClientConfig.controlRole], fun heq => ?_⟩
          cases heq
          rfl
  | refused _ _ heq =>
      subst heq
      exact ⟨by simp, by simp⟩
  | joined _ _ heq =>
      subst heq
      exact ⟨by simp, by simp⟩

/-- A step of the relay, in which it may read a frame of the client. -/
theorem Asked.step {s s' : State} {i : ℕ} {link link' : Link}
    (ha : Asked me (s.conns i) link) {label : Label}
    (h : s.step crates cfg label = some s')
    (hframes : ∀ msg ∈ link'.toRelay, msg ∈ link.toRelay)
    (hread : ∀ action msg, label = .conn i action → reads action = some msg →
      msg ∈ link.toRelay) : Asked me (s'.conns i) link' := by
  have hown : ∀ action msg, label = .conn i action → reads action = some msg →
      OwnFrame me msg :=
    fun action msg hlabel hmsg => ha.frames msg (hread action msg hlabel hmsg)
  refine ⟨fun msg hmsg => ha.frames msg (hframes msg hmsg),
    ha.phase.stride (step_stride h i) hown, fun hphase => ?_⟩
  obtain hold | ⟨hlabel, -⟩ := step_binds h hphase
  · exact ha.bind hold
  · exact hown _ _ hlabel rfl

/-- Every connection of the client carries the client's name and request. -/
def Pair.Asks (me : ClientConfig) (w : Pair) : Prop :=
  ∀ i link, w.links i = some link → Asked me (w.relay.conns i) link

theorem Pair.Asks.relayStep (hw : w.Asks me) {label : Label}
    (h : w.relayStep crates cfg label = some w') : w'.Asks me := by
  intro i link' hlink'
  obtain ⟨hstep, -, -, hlinks⟩ := pairRelay_cases h
  obtain ⟨link, hlink, ⟨hlabel, rfl⟩ | ⟨action, rfl, hserve⟩⟩ := hlinks hlink'
  · exact (hw _ _ hlink).step hstep (fun _ hmsg => hmsg)
      fun action _ heq => absurd heq (hlabel action)
  · obtain ⟨-, ⟨hnone, hsame⟩ | ⟨msg, hmsg, hcons⟩⟩ := serve_cases hserve
    · refine (hw _ _ hlink).step hstep (fun msg hmsg => hsame ▸ hmsg) ?_
      rintro _ msg ⟨⟩ hreads
      rw [hnone] at hreads
      cases hreads
    · refine (hw _ _ hlink).step hstep (fun msg hmem => ?_) ?_
      · rw [hcons]
        exact List.mem_cons_of_mem _ hmem
      · rintro _ msg' ⟨⟩ hreads
        rw [hmsg] at hreads
        cases hreads
        rw [hcons]
        exact List.mem_cons_self

theorem Pair.Asks.clientStep (hw : w.Asks me) {label : RunLabel}
    (h : w.clientStep crates.hmac me label = some w') : w'.Asks me := by
  intro j link' hlink'
  obtain ⟨-, hrelay, -, -, ⟨-, -, hlinks⟩ | ⟨i, link, -, hlink, hcases⟩⟩ :=
    pairClient_cases h
  · rw [hrelay]
    exact hw _ _ (hlinks ▸ hlink')
  · rw [hrelay]
    obtain ⟨msg, -, hframe, hlinks⟩ | ⟨msg, -, -, hlinks⟩ := hcases
    · rw [hlinks] at hlink'
      obtain ⟨rfl, heq⟩ | ⟨-, hold⟩ := update_cases hlink'
      · cases heq
        have hasked := hw _ _ hlink
        refine ⟨fun frame hmem => ?_, hasked.phase, hasked.bind⟩
        obtain hmem | hmem := List.mem_append.mp hmem
        · exact hasked.frames frame hmem
        · rw [List.mem_singleton.mp hmem]
          unfold Runner.frame at hframe
          split at hframe
          case h_1 => exact ownFrame_of_frame hframe
          case h_2 => cases hframe
      · exact hw _ _ hold
    · rw [hlinks] at hlink'
      obtain ⟨rfl, heq⟩ | ⟨-, hold⟩ := update_cases hlink'
      · cases heq
        have hasked := hw _ _ hlink
        exact ⟨hasked.frames, hasked.phase, hasked.bind⟩
      · exact hw _ _ hold

theorem Pair.Asks.connect (hw : w.Asks me) {i : ℕ}
    (h : w.connect crates cfg me i = some w') : w'.Asks me := by
  intro j link' hlink'
  obtain ⟨-, hrelay, -, hlinks⟩ := pairConnect_cases h
  obtain ⟨c, hact, hrelay⟩ := conn_cases hrelay
  obtain ⟨-, rfl⟩ := by simpa only [Conn.act, Option.ite_none_right_eq_some,
    Option.some.injEq] using hact
  rw [hlinks] at hlink'
  obtain ⟨rfl, heq⟩ | ⟨hne, hold⟩ := update_cases hlink'
  · cases heq
    rw [hrelay, setConn_conns_self]
    exact ⟨by simp, ⟨by simp, by simp⟩, by simp⟩
  · rw [hrelay, setConn_conns_ne _ _ hne]
    exact hw _ _ hold

theorem asks_of_reachable (h : (pair crates cfg me).Reachable w) : w.Asks me := by
  have hinit : (pair crates cfg me).init.Asks me := nofun
  refine h.invariant hinit fun w label w' _ hw hstep => ?_
  cases label with
  | relay label => exact hw.relayStep hstep
  | client label => exact hw.clientStep hstep
  | connect i => exact hw.connect hstep

/-! ## A request that is granted -/

/-- A step by which the relay comes to write a `BindOk`. -/
structure Issues (s s' : State) (i : ℕ) (id name : String) (port : UInt16)
    (url : Option String) : Prop where
  before : (s.conns i).phase ≠ .control id (.write (.bindOk name port url) .reply)
  after : (s'.conns i).phase = .control id (.write (.bindOk name port url) .reply)

theorem act_bindOk {c c' : Conn} {action : Action} {id : String} {phase : ControlPhase}
    {name : String} {port : UInt16} {url : Option String}
    (hphase : c.phase = .control id phase) (h : c.act crates cfg action = some c')
    (hbefore : phase ≠ .write (.bindOk name port url) .reply)
    (hafter : c'.phase = .control id (.write (.bindOk name port url) .reply)) :
    port = 0 ∧ url = cfg.publicUrlFor id ∧ cfg.pathRouterPort.isSome = true ∧
      cfg.portsEmpty id = true := by
  cases act_cases hphase h with
  | routed hrouter hempty =>
      simp only [Conn.goto_phase, Phase.control.injEq, ControlPhase.write.injEq,
        ServerMsg.bindOk.injEq] at hafter
      obtain ⟨-, ⟨-, rfl, rfl⟩, -⟩ := hafter
      exact ⟨rfl, rfl, hrouter, hempty⟩
  | pong => exact absurd (Phase.control.inj (hphase.symm.trans hafter)).2 hbefore
  | ignored => exact absurd (Phase.control.inj (hphase.symm.trans hafter)).2 hbefore
  | _ => simp at hafter

/-- A `BindOk` is issued for a client of the path router, or for a port that a new
listener is accepting visitors on. -/
theorem issues_cases {s s' : State} {label : Label}
    (h : s.step crates cfg label = some s') {i : ℕ} {id name : String} {port : UInt16}
    {url : Option String} (hissues : Issues s s' i id name port url) :
    (∃ phase, (s.conns i).phase = .control id phase) ∧ url = cfg.publicUrlFor id ∧
      ((port = 0 ∧ cfg.pathRouterPort.isSome = true ∧ cfg.portsEmpty id = true) ∨
        (s.conns i).phase = .control id (.bind name port) ∧
          cfg.allowed id port = true ∧
          ⟨id, name, port, .accepting⟩ ∈ (s'.conns i).listeners) := by
  have hafter := hissues.after
  obtain ⟨phase, hold, hmove⟩ := control_before h hafter (by simp)
  have hbefore : phase ≠ .write (.bindOk name port url) .reply :=
    fun heq => hissues.before (heq ▸ hold)
  cases hmove with
  | same => exact absurd rfl hbefore
  | own hlabel hmove =>
      subst hlabel
      obtain ⟨c, hact, rfl⟩ := conn_cases h
      rw [setConn_conns_self] at hafter
      obtain ⟨hport, hurl, hrouter⟩ := act_bindOk hold hact hbefore hafter
      exact ⟨⟨_, hold⟩, hurl, Or.inl ⟨hport, hrouter⟩⟩
  | bound hlabel =>
      subst hlabel
      obtain ⟨owner, name', port', hphase, ⟨hallowed, -, -, rfl⟩ | ⟨reason, -, rfl⟩⟩ :=
        bound_cases h
      · simp only [setConn_conns_self, Conn.goto_phase, Phase.control.injEq,
          ControlPhase.write.injEq, ServerMsg.bindOk.injEq] at hafter
        obtain ⟨rfl, ⟨rfl, rfl, rfl⟩, -⟩ := hafter
        exact ⟨⟨_, hold⟩, rfl, Or.inr ⟨hphase, hallowed, by simp⟩⟩
      · simp at hafter

/-! ## Addresses -/

/-- An address of a port of the relay. -/
def portAddress (tls : Bool) (host : String) (port : UInt16) : String :=
  (if tls then "https" else "http") ++ "://" ++ host ++ ":" ++ port.toNat.repr

theorem publicUrl_eq (port : UInt16) :
    me.publicUrl port = portAddress me.tls me.relayHost port := rfl

theorem portAddress_inj {tls tls' : Bool} {host : String} {port port' : UInt16} :
    portAddress tls host port = portAddress tls' host port' ↔
      tls = tls' ∧ port = port' := by
  refine ⟨fun h => ?_, fun h => by rw [h.1, h.2]⟩
  have hchars := congrArg String.toList h
  have hport : ∀ {scheme : List Char}, scheme ++ port.toNat.repr.toList =
      scheme ++ port'.toNat.repr.toList → port = port' := fun heq =>
    UInt16.toNat_inj.mp
      (repr_injective (String.toList_inj.mp (List.append_cancel_left heq)))
  cases tls <;> cases tls' <;> simp only [portAddress, String.toList_append] at hchars
  · exact ⟨rfl, hport hchars⟩
  · simp at hchars
  · simp at hchars
  · exact ⟨rfl, hport hchars⟩

/-- The relay is accepting visitors of a client on a port. -/
def Accepts (s : State) (clientId : String) (port : UInt16) : Prop :=
  ∃ i, ∃ l ∈ (s.conns i).listeners,
    l.clientId = clientId ∧ l.port = port ∧ l.state = .accepting

/-- An address at which visitors reach the client. -/
inductive Works (cfg : RelayConfig) (me : ClientConfig) (s : State) : String → Prop
  | configured {client : ClientAuth} {url : String} :
      cfg.client me.clientId = some client → client.publicUrl = some url →
      Works cfg me s url
  | based {base : String} : cfg.pathRouterPort.isSome = true →
      cfg.publicBaseUrl = some base →
      Works cfg me s (trimEndSlashes base ++ "/" ++ me.clientId ++ "/")
  | direct {port : UInt16} : Accepts s me.clientId port → port ≠ 0 →
      Works cfg me s (portAddress cfg.maybeVisitorTls me.relayHost port)

/-- The port that the client asks for is one of its own, and its visitors speak to it as
the client's address says. -/
structure DirectPort (cfg : RelayConfig) (me : ClientConfig) : Prop where
  own : ¬(cfg.pathRouterPort.isSome = true ∧ cfg.portsEmpty me.clientId = true)
  fixed : me.remotePort ≠ 0
  scheme : cfg.maybeVisitorTls = me.tls

variable {s : State} {address : String}

theorem works_of_publicUrlFor (h : cfg.publicUrlFor me.clientId = some address) :
    Works cfg me s address := by
  unfold RelayConfig.publicUrlFor at h
  split at h
  case h_1 url hurl =>
    cases h
    obtain ⟨client, hclient, hurl⟩ := Option.bind_eq_some_iff.mp hurl
    exact .configured hclient hurl
  case h_2 =>
    split at h
    case h_1 port base hport hbase =>
      cases h
      exact .based (by simp [hport]) hbase
    case h_2 => cases h

/-- Where the configuration names no address, only a port can work. -/
theorem direct_of_works (h : Works cfg me s address)
    (hnone : cfg.publicUrlFor me.clientId = none) :
    ∃ port, Accepts s me.clientId port ∧ port ≠ 0 ∧
      address = portAddress cfg.maybeVisitorTls me.relayHost port := by
  cases h with
  | configured hclient hurl =>
      simp [RelayConfig.publicUrlFor, hclient, hurl] at hnone
  | based hrouter hbase =>
      obtain ⟨port, hport⟩ := Option.isSome_iff_exists.mp hrouter
      unfold RelayConfig.publicUrlFor at hnone
      split at hnone
      case h_1 => cases hnone
      case h_2 => simp [hport, hbase] at hnone
  | direct haccepts hport => exact ⟨_, haccepts, hport, rfl⟩

/-- A client whose visitors find a listed port is not one of the path router. -/
theorem portsEmpty_of_allowed {id : String} {port : UInt16}
    (h : cfg.allowed id port = true) : cfg.portsEmpty id = false := by
  obtain ⟨client, hclient, hport⟩ := (cfg.allowed_iff id port).mp h
  have hne : client.ports ≠ [] := List.ne_nil_of_mem hport
  simp [RelayConfig.portsEmpty, hclient, hne]

/-- What the client shows for a granted request works exactly when the relay's
configuration names an address for it, or the client asked for a port of its own whose
visitors speak TLS as the client itself does. -/
theorem address_works_iff {label : Label}
    (hreach : (pair crates cfg me).Reachable w)
    (hstep : (pair crates cfg me).step w (.relay label) = some w') {i : ℕ} {link : Link}
    (hlink : w.links i = some link) {id name : String} {port : UInt16}
    {url : Option String} (hissues : Issues w.relay w'.relay i id name port url)
    (hshown : (receive me (.bindOk name port url)).2 = some (.online address)) :
    Works cfg me w'.relay address ↔
      (cfg.publicUrlFor me.clientId).isSome = true ∨ DirectPort cfg me := by
  have hasked := asks_of_reachable hreach i link hlink
  obtain ⟨hrelay, -⟩ := pairRelay_cases hstep
  obtain ⟨⟨phase, hphase⟩, rfl, hcases⟩ := issues_cases hrelay hissues
  obtain rfl := hasked.phase.control hphase
  have haddress := (RelayStatus.online.inj (Option.some.inj hshown)).symm
  cases hnames : cfg.publicUrlFor me.clientId with
  | some url =>
      rw [hnames, Option.getD_some] at haddress
      rw [haddress]
      exact iff_of_true (works_of_publicUrlFor hnames) (Or.inl rfl)
  | none =>
      rw [hnames, Option.getD_none, publicUrl_eq] at haddress
      constructor
      · intro hworks
        obtain ⟨port', haccepts, hport', heq⟩ := direct_of_works hworks hnames
        obtain ⟨hscheme, rfl⟩ := portAddress_inj.mp (haddress.symm.trans heq)
        obtain ⟨hzero, -⟩ | ⟨hbind, hallowed, -⟩ := hcases
        · exact absurd hzero hport'
        · obtain rfl := hasked.bind hbind
          refine Or.inr ⟨fun hrouter => ?_, hport', hscheme.symm⟩
          rw [portsEmpty_of_allowed hallowed] at hrouter
          cases hrouter.2
      · rintro (hsome | hdirect)
        · cases hsome
        · obtain ⟨-, hrouter⟩ | ⟨hbind, -, hlistener⟩ := hcases
          · exact absurd hrouter hdirect.own
          · obtain rfl := hasked.bind hbind
            rw [haddress, ← hdirect.scheme]
            exact .direct ⟨i, _, hlistener, rfl, rfl, rfl⟩ hdirect.fixed

/-- A client that gets through to a relay does TLS where the relay does.  Its visitors do
not exactly when a relay with a certificate turns `visitor_tls` off. -/
theorem scheme_iff (h : me.tls = cfg.acceptor) :
    cfg.maybeVisitorTls = me.tls ↔
      ¬(cfg.acceptor = true ∧ cfg.visitorTls = some false) := by
  unfold RelayConfig.maybeVisitorTls
  rw [h]
  cases cfg.acceptor <;> cases cfg.visitorTls <;> simp

/-! ## Two requests -/

/-- A run in which the client dials, the relay takes the labels, and a last step issues a
`BindOk`. -/
theorem exists_issues (crates : Crates) (cfg : RelayConfig) (me : ClientConfig)
    (labels : List PairLabel) (label : Label) (port : UInt16)
    (htoken : cfg.token me.clientId = some me.token) (nonce : Nonce)
    (hcheck : (((pair crates cfg me).exec
        ((pair crates cfg me).init.dialled crates me 0 nonce) labels).any fun w =>
      (w.links 0).isSome &&
      decide ((w.relay.conns 0).phase ≠
        .control me.clientId (.write (.bindOk me.name port none) .reply)) &&
      (w.relayStep crates cfg label).any fun w' => decide ((w'.relay.conns 0).phase =
        .control me.clientId (.write (.bindOk me.name port none) .reply))) = true) :
    ∃ w w' link, (pair crates cfg me).Reachable w ∧
      (pair crates cfg me).step w (.relay label) = some w' ∧ w.links 0 = some link ∧
      Issues w.relay w'.relay 0 me.clientId me.name port none := by
  obtain ⟨w, hw, hcheck⟩ := (Option.any_eq_true _ _).mp hcheck
  simp only [Bool.and_eq_true, decide_eq_true_eq] at hcheck
  obtain ⟨⟨hlink, hbefore⟩, hstep⟩ := hcheck
  obtain ⟨link, hlink⟩ := Option.isSome_iff_exists.mp hlink
  obtain ⟨w', hstep, hafter⟩ := (Option.any_eq_true _ _).mp hstep
  have hdial : (pair crates cfg me).exec (pair crates cfg me).init
      (dial crates cfg me 0 nonce) =
        some ((pair crates cfg me).init.dialled crates me 0 nonce) :=
    exec_dial nonce rfl rfl rfl htoken
  have hreach := (Reachable.init.exec hdial).exec hw
  exact ⟨w, w', link, hreach, hstep, hlink, hbefore, of_decide_eq_true hafter⟩

/-- The relay lets the client into its loop and reads its request. -/
def begin : List PairLabel :=
  [.relay (.kick 0), .relay (.register 0)]

def request : Label := .conn 0 (.read (some (.bind "disk" 8080)))

/-- A port of the relay whose visitors speak TLS, like the client. -/
theorem address_works_sample : ∃ w w',
    (pair sampleCrates tlsConfig sampleClient).Reachable w ∧
    (pair sampleCrates tlsConfig sampleClient).step w (.relay (.bound 0 true)) =
      some w' ∧
    Works tlsConfig sampleClient w'.relay "https://relay.example.com:8080" := by
  obtain ⟨w, w', link, hreach, hstep, hlink, hissues⟩ :=
    exists_issues sampleCrates tlsConfig sampleClient (begin ++ [.relay request])
      (.bound 0 true) 8080 sample_configured.token (Vector.replicate 32 0)
      (by decide +kernel)
  exact ⟨w, w', hreach, hstep, (address_works_iff hreach hstep hlink hissues rfl).mpr
    (Or.inr ⟨by decide, by decide, by decide⟩)⟩

/-- A path router whose operator left out `public_base_url`. -/
def routedConfig : RelayConfig :=
  { tomlConfig 15 with
    tlsCert := none
    tlsKey := none
    visitorTls := none
    pathRouterPort := some 8080
    clients := [⟨"mac", "mac-0123456789abcdef", [], none⟩] }

def routedText : String :=
  "path_router_port = 8080\n[[clients]]\nid = \"mac\"\n" ++
    "token = \"mac-0123456789abcdef\"\nports = []\n"

def plainClient : ClientConfig := { sampleClient with tls := false }

theorem loadConfig_routed :
    loadConfig (fun _ => some routedText) (fun _ => some routedConfig)
      "/etc/yunpan/relay.toml" = .ok routedConfig := by
  have herror : routedConfig.error = none := by
    simp [RelayConfig.error, routedConfig, tomlConfig, RelayConfig.clientError,
      length_tokens]
  exact loadConfig_of_error rfl rfl herror

/-- The client of the path router shows port 0 as the address of its disk. -/
theorem port_zero_shown :
    loadConfig (fun _ => some routedText) (fun _ => some routedConfig)
        "/etc/yunpan/relay.toml" = .ok routedConfig ∧
      plainClient.tls = routedConfig.acceptor ∧
      ∃ w w' link, (pair sampleCrates routedConfig plainClient).Reachable w ∧
        (pair sampleCrates routedConfig plainClient).step w (.relay request) = some w' ∧
        w.links 0 = some link ∧ Issues w.relay w'.relay 0 "mac" "disk" 0 none ∧
        (receive plainClient (.bindOk "disk" 0 none)).2 =
          some (.online "http://relay.example.com:0") ∧
        ¬Works routedConfig plainClient w'.relay "http://relay.example.com:0" := by
  obtain ⟨w, w', link, hreach, hstep, hlink, hissues⟩ :=
    exists_issues sampleCrates routedConfig plainClient begin request 0
      (by decide +kernel) (Vector.replicate 32 0) (by decide +kernel)
  have hshown : "http://relay.example.com:0" =
      portAddress plainClient.tls plainClient.relayHost 0 := by decide +kernel
  refine ⟨loadConfig_routed, rfl, w, w', link, hreach, hstep, hlink, hissues,
    congrArg (some ∘ RelayStatus.online) hshown.symm, fun hworks => ?_⟩
  obtain ⟨port, -, hport, heq⟩ := direct_of_works hworks rfl
  obtain ⟨-, rfl⟩ := portAddress_inj.mp (hshown.symm.trans heq)
  exact hport rfl

end Yunpan.Tunnel
