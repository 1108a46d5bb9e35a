import Yunpan.Tunnel.Lines

/-!
# A client that is never turned down

The relay of a correctly configured client has one reason left to refuse it: the
port is still held by an earlier session of the same client.  Where every session
enters its loop only after the earlier ones are through, no run of the client ends
in `Fatal`.
-/

namespace Yunpan.Tunnel

open Yunpan.Protocol
open Yunpan.Transition
open Yunpan.Transition.System
open Yunpan.Relay
open Yunpan.Client

variable {crates : Crates} {cfg : RelayConfig} {me : ClientConfig} {w w' : Pair}

/-- The relay knows the client and its token, and lists the port for it. -/
structure Configured (cfg : RelayConfig) (me : ClientConfig) : Prop where
  token : cfg.token me.clientId = some me.token
  allowed : cfg.allowed me.clientId me.remotePort = true

/-- No other client and no other process uses the port: whoever may have it is the
client, and the machine has it free. -/
def PortFree (cfg : RelayConfig) (me : ClientConfig) (w : Pair) : PairLabel → Prop
  | .relay (.bound i osOk) => ∀ id name,
      (w.relay.conns i).phase = .control id (.bind name me.remotePort) →
      cfg.allowed id me.remotePort = true → id = me.clientId ∧ osOk = true
  | _ => True

/-- A session of the client enters its loop only when no other session of the client
is live. -/
def FollowsOn (me : ClientConfig) (w : Pair) : PairLabel → Prop
  | .relay label => TakesOver me.clientId w.relay label
  | _ => True

structure Pair.Sound (crates : Crates) (me : ClientConfig) (w : Pair) : Prop where
  client : w.client.Safe
  line : ∀ {i link}, w.links i = some link →
    Line crates.hmac me (w.relay.conns i) link
      (if w.conn = some i then w.client.frame me else none)
      (if w.conn = some i then w.client.asking else 0)
  exclusive : w.relay.Exclusive me.clientId
  reserved : w.relay.Reserved me.clientId me.remotePort

theorem sound_init : (pair crates cfg me).init.Sound crates me where
  client := Runner.safe_init
  line := by simp [pair]
  exclusive := exclusive_init _
  reserved := reserved_init _ _

/-! ## Steps of the relay -/

theorem pairRelay_cases {label : Label} (h : w.relayStep crates cfg label = some w') :
    w.relay.step crates cfg label = some w'.relay ∧ w'.client = w.client ∧
      w'.conn = w.conn ∧ ∀ {i link'}, w'.links i = some link' →
        ∃ link, w.links i = some link ∧
          (((∀ action, label ≠ .conn i action) ∧ link' = link) ∨
            ∃ action, label = .conn i action ∧ link.serve (reads action)
              (answer crates cfg (w.relay.conns i) action) = some link') := by
  obtain ⟨relay, hstep, h⟩ := Option.bind_eq_some_iff.mp h
  cases label with
  | conn j action =>
      simp only at h
      split at h
      case h_1 hnone =>
        cases h
        refine ⟨hstep, rfl, rfl, fun {i link'} hlink =>
          ⟨link', hlink, Or.inl ⟨?_, rfl⟩⟩⟩
        rintro action' ⟨⟩
        rw [hnone] at hlink
        cases hlink
      case h_2 link hlink =>
        obtain ⟨link', hserve, rfl⟩ := Option.map_eq_some_iff.mp h
        refine ⟨hstep, rfl, rfl, fun {i link''} hnew => ?_⟩
        rcases update_cases hnew with ⟨rfl, heq⟩ | ⟨hne, hold⟩
        · cases heq
          exact ⟨link, hlink, Or.inr ⟨action, rfl, hserve⟩⟩
        · refine ⟨link'', hold, Or.inl ⟨?_, rfl⟩⟩
          rintro action' ⟨⟩
          exact hne rfl
  | _ =>
      cases h
      exact ⟨hstep, rfl, rfl, fun {i link'} hlink =>
        ⟨link', hlink, Or.inl ⟨by simp, rfl⟩⟩⟩

/-- The request of the client for its port is granted. -/
theorem Pair.Sound.granted (hs : w.Sound crates me) (hcfg : Configured cfg me)
    (hreach : (Relay.relay crates cfg).Reachable w.relay) {i : ℕ} {link : Link}
    (hlink : w.links i = some link) {osOk : Bool}
    (hport : PortFree cfg me w (.relay (.bound i osOk))) {s' : State}
    (h : w.relay.step crates cfg (.bound i osOk) = some s') {name : String}
    {port : UInt16}
    (hphase : (w.relay.conns i).phase = .control me.clientId (.bind name port))
    {msg : ServerMsg} {writing : Writing}
    (hwrite : (s'.conns i).phase = .control me.clientId (.write msg writing)) :
    msg.refuses = false := by
  have hline := hs.line hlink
  obtain rfl := hline.bind hphase
  obtain ⟨owner, name', port, hphase', ⟨-, -, -, rfl⟩ | ⟨reason, hbusy, rfl⟩⟩ :=
    bound_cases h
  · simp only [setConn_conns_self, Conn.goto_phase] at hwrite
    cases hwrite
    rfl
  · rw [hphase] at hphase'
    cases hphase'
    have hfree : w.relay.ports me.remotePort = none := by
      by_contra hheld
      obtain ⟨j, hj⟩ := Option.ne_none_iff_exists'.mp hheld
      obtain ⟨l, hl, hown, hstate⟩ := hs.reserved.live (held_of_reachable hreach) hj
      -- both sessions are live, so the holder is this session itself
      obtain rfl := hs.exclusive i j (Or.inl ⟨_, hphase, rfl⟩)
        (Or.inr ⟨l, hl, hown, hstate⟩)
      have hlength := List.length_pos_of_mem hl
      have honce := hline.once
      simp only [hphase, binding] at honce
      omega
    have hno := hbusy hcfg.allowed (Or.inl hfree)
    rw [(hport _ name hphase hcfg.allowed).2] at hno
    cases hno

theorem Pair.Sound.relayStep (hs : w.Sound crates me) (hcfg : Configured cfg me)
    (hreach : (Relay.relay crates cfg).Reachable w.relay) {label : Label}
    (hport : PortFree cfg me w (.relay label)) (hcond : FollowsOn me w (.relay label))
    (h : w.relayStep crates cfg label = some w') : w'.Sound crates me := by
  obtain ⟨hstep, hclient, hconn, hlinks⟩ := pairRelay_cases h
  refine ⟨hclient ▸ hs.client, @fun i link' hlink' => ?_,
    hs.exclusive.step (attended_of_reachable hreach) hcond hstep,
    hs.reserved.step hstep ?_⟩
  rw [hclient, hconn]
  obtain ⟨link, hlink, ⟨hlabel, rfl⟩ | ⟨action, rfl, hserve⟩⟩ := hlinks hlink'
  · refine (hs.line hlink).other hstep hlabel (benign_of_reachable hreach) ?_
    rintro osOk name port msg writing rfl hphase hwrite
    exact hs.granted hcfg hreach hlink hport hstep hphase hwrite
  · obtain ⟨c, hact, hrelay⟩ := conn_cases hstep
    rw [hrelay, setConn_conns_self]
    exact (hs.line hlink).act (genuine_of_reachable hreach i) hcfg.token hact hserve
  · rintro i osOk id name rfl hphase hallowed
    exact (hport id name hphase hallowed).1

/-! ## Steps of the client -/

theorem pairClient_cases {label : RunLabel}
    (h : w.clientStep crates.hmac me label = some w') :
    w.client.step crates.hmac me w.relay.now label = some w'.client ∧
      w'.relay = w.relay ∧ w'.conn = w.conn ∧ label ≠ .connected true ∧
      ((label ≠ .written true ∧ (∀ msg, label ≠ .read (some msg)) ∧
        w'.links = w.links) ∨
        ∃ i link, w.conn = some i ∧ w.links i = some link ∧
          ((∃ msg, label = .written true ∧ w.client.frame me = some msg ∧
            w'.links = Function.update w.links i
              (some { link with toRelay := link.toRelay ++ [msg] })) ∨
          ∃ msg, label = .read (some msg) ∧ msg ∈ link.toClient ∧
            w'.links = Function.update w.links i
              (some { link with toClient := link.toClient.tail }))) := by
  obtain ⟨client, hstep, h⟩ := Option.bind_eq_some_iff.mp h
  obtain ⟨links, hcarry, h⟩ := Option.bind_eq_some_iff.mp h
  cases h
  unfold Pair.carry at hcarry
  split at hcarry
  case h_1 => cases hcarry
  case h_2 =>
    obtain ⟨⟨i, link⟩, hlink, hcarry⟩ := Option.bind_eq_some_iff.mp hcarry
    obtain ⟨msg, hframe, hcarry⟩ := Option.bind_eq_some_iff.mp hcarry
    obtain ⟨j, hconn, hlink⟩ := Option.bind_eq_some_iff.mp hlink
    obtain ⟨link', hlink', heq⟩ := Option.map_eq_some_iff.mp hlink
    cases heq
    cases hcarry
    exact ⟨hstep, rfl, rfl, by simp, Or.inr ⟨i, link, hconn, hlink',
      Or.inl ⟨msg, rfl, hframe, rfl⟩⟩⟩
  case h_3 msg _ =>
    obtain ⟨⟨i, link⟩, hlink, hcarry⟩ := Option.bind_eq_some_iff.mp hcarry
    obtain ⟨j, hconn, hlink⟩ := Option.bind_eq_some_iff.mp hlink
    obtain ⟨link', hlink', heq⟩ := Option.map_eq_some_iff.mp hlink
    cases heq
    obtain ⟨hhead, hlinks⟩ := by simpa only [Option.ite_none_right_eq_some,
      Option.some.injEq] using hcarry
    exact ⟨hstep, rfl, rfl, by simp, Or.inr ⟨i, link, hconn, hlink',
      Or.inr ⟨msg, rfl, List.mem_of_mem_head? hhead, hlinks.symm⟩⟩⟩
  case h_4 hconnected hwritten hread =>
    cases hcarry
    exact ⟨hstep, rfl, rfl, hconnected,
      Or.inl ⟨hwritten, fun msg heq => hread msg heq, rfl⟩⟩

theorem Pair.Sound.clientStep (hs : w.Sound crates me) {label : RunLabel}
    (h : w.clientStep crates.hmac me label = some w') : w'.Sound crates me := by
  obtain ⟨hstep, hrelay, hconn, hnew, hcases⟩ := pairClient_cases h
  have hmove := Runner.step_cases hstep
  refine ⟨hs.client.step hstep ?_, @fun j link' hlink' => ?_, hrelay ▸ hs.exclusive,
    hrelay ▸ hs.reserved⟩
  · rintro msg rfl
    obtain ⟨-, hread, -⟩ | ⟨i, link, -, hlink,
        ⟨_, hlabel, -⟩ | ⟨msg', hlabel, hmsg, -⟩⟩ :=
      hcases
    · exact absurd rfl (hread msg)
    · cases hlabel
    · cases hlabel
      exact ((hs.line hlink).answers msg hmsg).1
  rw [hrelay, hconn]
  by_cases hcurrent : w.conn = some j
  · have hline : ∀ {link}, w.links j = some link →
        Line crates.hmac me (w.relay.conns j) link
        (w.client.frame me) w.client.asking :=
      fun hlink => by simpa only [hcurrent, if_true] using hs.line hlink
    rw [if_pos hcurrent, if_pos hcurrent]
    obtain ⟨hwritten, hread, hlinks⟩ | ⟨i, link, hi, hlink, hcases⟩ := hcases
    · rw [hlinks] at hlink'
      exact (hline hlink').run hmove ⟨hnew, hwritten⟩ fun msg heq =>
        absurd heq (hread msg)
    obtain rfl : i = j := Option.some.inj (hi.symm.trans hcurrent)
    obtain ⟨msg, rfl, hframe, hlinks⟩ | ⟨msg, rfl, hmsg, hlinks⟩ := hcases
    · rw [hlinks, Function.update_self] at hlink'
      cases hlink'
      exact (hline hlink).wrote hmove hframe
    · rw [hlinks, Function.update_self] at hlink'
      cases hlink'
      refine ((hline hlink).run hmove (by simp) ?_).receive
      rintro _ ⟨⟩
      exact (hline hlink).answers msg hmsg
  · have hlink : w.links j = some link' := by
      obtain ⟨-, -, hlinks⟩ | ⟨i, link, hi, -,
          ⟨msg, -, -, hlinks⟩ | ⟨msg, -, -, hlinks⟩⟩ :=
        hcases
      · exact hlinks ▸ hlink'
      all_goals
        have hne : j ≠ i := by
          rintro rfl
          exact hcurrent hi
        rwa [hlinks, Function.update_of_ne hne] at hlink'
    simpa only [hcurrent, if_false] using hs.line hlink

/-! ## A new connection -/

theorem pairConnect_cases {i : ℕ} (h : w.connect crates cfg me i = some w') :
    w.client.step crates.hmac me w.relay.now (.connected true) = some w'.client ∧
      w.relay.step crates cfg (.conn i .accept) = some w'.relay ∧
      w'.conn = some i ∧ w'.links = Function.update w.links i (some ⟨[], []⟩) := by
  obtain ⟨client, hclient, h⟩ := Option.bind_eq_some_iff.mp h
  obtain ⟨relay, hrelay, h⟩ := Option.bind_eq_some_iff.mp h
  cases h
  exact ⟨hclient, hrelay, rfl, rfl⟩

/-- The relay has no listeners on a connection that it has not accepted. -/
theorem listeners_of_idle {s : State} (h : (Relay.relay crates cfg).Reachable s) {i : ℕ}
    (hidle : (s.conns i).phase = .idle) : (s.conns i).listeners = [] := by
  refine List.eq_nil_iff_forall_not_mem.mpr fun l hl => ?_
  have hrole := ((addressed_of_reachable h).listener hl).1
  have hearly := (genuine_of_reachable h i).early (Or.inl hidle)
  simp [Conn.role?, hearly.1] at hrole

theorem Pair.Sound.connect (hs : w.Sound crates me)
    (hreach : (Relay.relay crates cfg).Reachable w.relay) {i : ℕ}
    (h : w.connect crates cfg me i = some w') : w'.Sound crates me := by
  obtain ⟨hclient, hrelay, hconn, hlinks⟩ := pairConnect_cases h
  refine ⟨hs.client.step hclient (by simp), @fun j link' hlink' => ?_,
    hs.exclusive.step (attended_of_reachable hreach) (by trivial) hrelay,
    hs.reserved.step hrelay (by simp)⟩
  obtain ⟨c, hact, hrelay⟩ := conn_cases hrelay
  obtain ⟨hidle, rfl⟩ := by simpa only [Conn.act, Option.ite_none_right_eq_some,
    Option.some.injEq] using hact
  rw [hlinks] at hlink'
  rw [hconn, hrelay]
  rcases update_cases hlink' with ⟨rfl, heq⟩ | ⟨hne, hold⟩
  · cases heq
    have hstage : w'.client.phase = .session (.handshake .hello) := by
      simp only [Runner.step] at hclient
      split at hclient
      case h_1 => exact (Option.some.inj hclient) ▸ rfl
      case h_2 => cases hclient
    obtain ⟨hframe, hasking⟩ := runner_frame me hstage
    have hlisteners := listeners_of_idle hreach hidle
    simp only [if_true, setConn_conns_self, hframe, hasking]
    constructor <;> simp [hlisteners, SessionStage.asking,
      Handshake.frame, SafeFrame, binding]
  · have hother : ¬(some i = some j) := fun heq => hne (Option.some.inj heq).symm
    rw [if_neg hother, if_neg hother, setConn_conns_ne _ _ hne]
    exact (hs.line hold).turn (by simp) (Nat.zero_le _)

/-! ## Runs -/

theorem Pair.Sound.step (hs : w.Sound crates me) (hcfg : Configured cfg me)
    (hreach : (Relay.relay crates cfg).Reachable w.relay) {label : PairLabel}
    (hport : PortFree cfg me w label) (hcond : FollowsOn me w label)
    (h : (pair crates cfg me).step w label = some w') : w'.Sound crates me := by
  cases label with
  | relay label => exact hs.relayStep hcfg hreach hport hcond h
  | client label => exact hs.clientStep h
  | connect i => exact hs.connect hreach h

/-- A step of a pair leaves the relay alone or is a step of the relay; sessions are
inserted only in the relay's own steps. -/
theorem relay_moves {label : PairLabel} (h : (pair crates cfg me).step w label = some w') :
    w'.relay = w.relay ∨ ∃ move, w.relay.step crates cfg move = some w'.relay ∧
      ∀ i, move = .register i → label = .relay (.register i) := by
  cases label with
  | relay label => exact Or.inr ⟨label, (pairRelay_cases h).1, fun _ heq => heq ▸ rfl⟩
  | client label => exact Or.inl (pairClient_cases h).2.1
  | connect i => exact Or.inr ⟨_, (pairConnect_cases h).2.1, by simp⟩

/-- The relay of a pair runs as it would alone. -/
theorem relay_of_pair (h : (pair crates cfg me).Reachable w) :
    (Relay.relay crates cfg).Reachable w.relay := by
  refine h.component Pair.relay rfl fun w label w' ih hstep => ?_
  obtain hsame | ⟨move, hmove, -⟩ := relay_moves hstep
  · exact hsame ▸ ih
  · exact ih.step hmove

/-- The relay is telling the client that it does not get its port. -/
def Pair.BindRefused (w : Pair) : Prop :=
  ∃ i link id name reason writing, w.links i = some link ∧
    (w.relay.conns i).phase = .control id (.write (.bindErr name reason) writing)

/-- A correctly configured client never ends up `Fatal`, and is never refused its port,
in a run in which each of its sessions enters its loop only after the earlier ones are
through. -/
theorem never_fatal (hcfg : Configured cfg me) {history : List (Pair × PairLabel)}
    (hrun : (pair crates cfg me).Run history w)
    (hport : Always (PortFree cfg me) history) (hcond : Always (FollowsOn me) history) :
    (∀ reason, .fatal reason ∉ w.client.published) ∧ ¬w.BindRefused := by
  have hboth : Always (fun w label => PortFree cfg me w label ∧ FollowsOn me w label)
      history := fun entry hentry => ⟨hport entry hentry, hcond entry hentry⟩
  have hsound := hrun.invariant_of_always hboth sound_init
    fun w label w' hreach hs hstep =>
      hs.step hcfg (relay_of_pair hreach) hstep.1 hstep.2
  refine ⟨hsound.client.published, ?_⟩
  rintro ⟨i, link, id, name, reason, writing, hlink, hphase⟩
  cases (hsound.line hlink).writing hphase

/-! ## A port that is still held -/

/-- The steps in which the client connects, passes the handshake and asks for its
port. -/
def dial (crates : Crates) (cfg : RelayConfig) (me : ClientConfig) (i : ℕ)
    (nonce : Nonce) : List PairLabel :=
  [.client .begin, .connect i, .client (.written true),
   .relay (.conn i (.frame nonce (.hello protoVersion me.controlRole agentName) true)),
   .client (.read (some (.challenge nonce.hex))), .client (.written true),
   .relay (.conn i (.frame nonce
     (.auth (sign crates.hmac me.token protoVersion me.controlRole nonce.hex)) true)),
   .client (.read (some (.authOk serverName cfg.heartbeatSecs))),
   .client (.written true)]

/-- The pair right after `dial`. -/
def Pair.dialled (crates : Crates) (me : ClientConfig) (w : Pair) (i : ℕ)
    (nonce : Nonce) : Pair where
  relay := w.relay.setConn i (Conn.loggedIn crates.hmac me.controlRole me.token nonce)
  client := { w.client with
    phase := .session .loop
    published := .connecting :: w.client.published }
  conn := some i
  links := Function.update w.links i (some ⟨[.bind me.name me.remotePort], []⟩)

theorem exec_dial {i : ℕ} (nonce : Nonce) (htop : w.client.phase = .top)
    (hshutdown : w.client.shutdown = false) (hfresh : w.relay.conns i = Conn.fresh)
    (htoken : cfg.token me.clientId = some me.token) :
    (pair crates cfg me).exec w (dial crates cfg me i nonce) =
      some (w.dialled crates me i nonce) := by
  have hok : accepts crates.hmac protoVersion me.controlRole (some me.token) nonce.hex
      (sign crates.hmac me.token protoVersion me.controlRole nonce.hex) = true :=
    (accepts_iff _ _ _ _ _ _).mpr ⟨me.token, rfl, rfl⟩
  have htoken' : cfg.token me.controlRole.clientId = some me.token := htoken
  simp [dial, System.exec, pair, Pair.step, Pair.clientStep, Pair.connect,
    Pair.relayStep,
    Pair.carry, Pair.link, Runner.step, Runner.begin, htop, hshutdown, Runner.enter,
    Runner.publish, SessionStage.connected, State.step, Conn.act, hfresh, Conn.fresh,
    Runner.frame, Handshake.frame, Handshake.written, SessionStage.ofHandshake,
      reads, answer, Link.serve, Incoming.step,
    handleHello, Incoming.reply, Conn.frame, htoken', SessionStage.reads,
    SessionStage.read, Handshake.read, readChallenge, handleAuth, hok, readAuthOk,
    Pair.dialled, Conn.loggedIn, State.setConn]

/-- A relay with a certificate, whose visitors have to pass a TLS handshake. -/
def tlsConfig : RelayConfig :=
  { sampleConfig with tlsCert := some "fullchain.pem", tlsKey := some "privkey.pem" }

def sampleClient : ClientConfig where
  relayHost := "relay.example.com"
  controlPort := 7100
  clientId := "mac"
  token := "mac-0123456789abcdef"
  name := "disk"
  remotePort := 8080
  localPort := 5000
  tls := true

theorem sample_configured : Configured tlsConfig sampleClient :=
  ⟨by decide +kernel, by decide +kernel⟩

/-- Nobody but the client connects to the control port. -/
def OnlyClient (_ : Pair) : PairLabel → Prop
  | .relay (.conn _ .accept) => False
  | _ => True

/-- Steps that the sample runs take: the machine has the port free and nobody else
connects. -/
def calm : PairLabel → Bool
  | .relay (.bound _ osOk) => osOk
  | .relay (.conn _ .accept) => false
  | _ => true

theorem onlyClient_of_calm (w : Pair) {label : PairLabel} (h : calm label = true) :
    OnlyClient w label := by
  unfold OnlyClient
  split
  case h_1 => cases h
  case h_2 => trivial

/-- Only `mac` may have the port of `mac`. -/
theorem portFree_of_calm (w : Pair) {label : PairLabel} (h : calm label = true) :
    PortFree tlsConfig sampleClient w label := by
  unfold PortFree
  split
  case h_1 i osOk =>
    intro id name _ hallowed
    obtain ⟨client, hclient, hport⟩ := (tlsConfig.allowed_iff _ _).mp hallowed
    have hmem : client ∈ tlsConfig.clients := List.mem_of_find?_eq_some hclient
    have hid : client.id = id := by simpa using List.find?_some hclient
    simp only [tlsConfig, sampleConfig, List.mem_cons, List.not_mem_nil,
      or_false] at hmem
    obtain rfl | rfl := hmem
    · exact ⟨hid.symm, h⟩
    · simp [sampleClient] at hport
  case h_2 => trivial

theorem calm_dial (i : ℕ) (nonce : Nonce) :
    ∀ label ∈ dial crates cfg me i nonce, calm label = true := by
  simp [dial, calm]

/-- The first connection of the client. -/
def firstDial : Pair :=
  (pair sampleCrates tlsConfig sampleClient).init.dialled sampleCrates sampleClient 0
    (Vector.replicate 32 0)

theorem firstDial_exec : (pair sampleCrates tlsConfig sampleClient).exec
    (pair sampleCrates tlsConfig sampleClient).init
    (dial sampleCrates tlsConfig sampleClient 0 (Vector.replicate 32 0)) =
      some firstDial :=
  exec_dial _ rfl rfl rfl sample_configured.token

/-- The relay gives the client its port, and the client shows its address. -/
def openDisk (i : ℕ) : List PairLabel :=
  [.relay (.conn i (.read (some (.bind "disk" 8080)))), .relay (.bound i true),
   .relay (.conn i (.written true)), .client (.read (some (.bindOk "disk" 8080 none)))]

/-- A visitor of the first session begins a TLS handshake; then the connection is
lost, and after a second the client goes on. -/
def loseConnection : List PairLabel :=
  [.relay (.arrive 0 0 0 "203.0.113.7:50000"), .client (.read none), .client .finish,
   .relay (.advance 1000), .client .wake]

/-- The new session waits five seconds for the old one, whose listener is still in
the handshake of its visitor. -/
def askAgain : List PairLabel :=
  [.relay (.kick 1), .relay (.signal 1), .relay (.conn 0 .shutdownSeen),
   .relay (.conn 0 (.written false)), .relay (.conn 0 .stop), .relay (.advance 5000),
   .relay (.waited 1), .relay (.register 1),
   .relay (.conn 1 (.read (some (.bind "disk" 8080)))), .relay (.bound 1 true),
   .relay (.conn 1 (.written true)),
   .client (.read (some (.bindErr "disk" (listenFailed "0.0.0.0:8080")))),
   .client .finish]

/-- The five seconds are over before the handshake of the visitor is, and the client
gives up for good. -/
theorem turned_away : Configured tlsConfig sampleClient ∧ ∃ history w,
    (pair sampleCrates tlsConfig sampleClient).Run history w ∧
    Always (PortFree tlsConfig sampleClient) history ∧ Always OnlyClient history ∧
    .fatal (bindRefused "disk" (listenFailed "0.0.0.0:8080")) ∈ w.client.published := by
  have hexec : (((pair sampleCrates tlsConfig sampleClient).exec firstDial
      ([.relay (.kick 0), .relay (.register 0)] ++ openDisk 0 ++ loseConnection)).any
        fun w => decide (w.client.phase = .top) && !w.client.shutdown &&
          decide (w.relay.conns 1 = Conn.fresh) &&
          ((pair sampleCrates tlsConfig sampleClient).exec
            (w.dialled sampleCrates sampleClient 1 (Vector.replicate 32 1))
            askAgain).any fun w => decide
              (.fatal (bindRefused "disk" (listenFailed "0.0.0.0:8080")) ∈
                w.client.published)) = true := by decide +kernel
  obtain ⟨w₁, hw₁, hcheck⟩ := (Option.any_eq_true _ _).mp hexec
  simp only [Bool.and_eq_true, decide_eq_true_eq, Bool.not_eq_true'] at hcheck
  obtain ⟨⟨⟨htop, hshutdown⟩, hfresh⟩, hcheck⟩ := hcheck
  obtain ⟨w₂, hw₂, hfatal⟩ := (Option.any_eq_true _ _).mp hcheck
  have hdial : (pair sampleCrates tlsConfig sampleClient).exec w₁
      (dial sampleCrates tlsConfig sampleClient 1 (Vector.replicate 32 1)) =
      some (w₁.dialled sampleCrates sampleClient 1 (Vector.replicate 32 1)) :=
    exec_dial _ htop hshutdown hfresh sample_configured.token
  have hnil : Always (fun (_ : Pair) label => calm label = true) [] := Always.nil
  obtain ⟨_, hrun, halways⟩ := Run.start.always_of_exec hnil firstDial_exec
    fun label hmem _ => calm_dial _ _ label hmem
  obtain ⟨_, hrun, halways⟩ := hrun.always_of_exec halways hw₁ (by
    simp [openDisk, loseConnection, calm])
  obtain ⟨_, hrun, halways⟩ := hrun.always_of_exec halways hdial
    fun label hmem _ => calm_dial _ _ label hmem
  obtain ⟨_, hrun, halways⟩ :=
    hrun.always_of_exec halways hw₂ (by simp [askAgain, calm])
  exact ⟨sample_configured, _, _, hrun, halways.mono fun w label => portFree_of_calm w,
    halways.mono fun w label => onlyClient_of_calm w, of_decide_eq_true hfatal⟩

/-! ## A reconnect -/

/-- Session `i` may still hold or open a port of `mac`: `State.Live`, computed. -/
def holdsPort (s : State) (i : ℕ) : Bool :=
  (s.conns i).phase.among ControlPhase.looping ||
    (s.conns i).listeners.any fun l => l.clientId = "mac" && l.state != .ended

theorem holdsPort_of_live {s : State} {i : ℕ} (h : s.Live "mac" i) :
    holdsPort s i = true := by
  obtain ⟨phase, hphase, hlooping⟩ | ⟨l, hl, hclient, hstate⟩ := h
  · simp [holdsPort, hphase, Phase.among, hlooping]
  · rw [holdsPort, Bool.or_eq_true, List.any_eq_true]
    exact Or.inr ⟨l, hl, by simp [hclient, hstate]⟩

/-- Only connections 0 and 1 are inserted, each when the other holds no port. -/
def inTurn (w : Pair) (label : PairLabel) : Bool :=
  calm label && match label with
    | .relay (.register i) => i < 2 && !holdsPort w.relay (1 - i)
    | _ => true

/-- No connection but 0 and 1 holds a port of `mac`. -/
def OthersFree (w : Pair) : Prop := ∀ j, 2 ≤ j → ¬w.relay.Live "mac" j

theorem othersFree_init : OthersFree (pair crates cfg me).init := by
  rintro j - (⟨phase, hphase, -⟩ | ⟨l, hl, -⟩)
  · cases hphase
  · cases hl

theorem OthersFree.step (hs : OthersFree w)
    (hreach : (pair crates cfg me).Reachable w) {label : PairLabel}
    (hturn : inTurn w label = true) (h : (pair crates cfg me).step w label = some w') :
    OthersFree w' := by
  intro j hj hlive
  obtain hsame | ⟨move, hmove, hregister⟩ := relay_moves h
  · exact hs j hj (hsame ▸ hlive)
  · obtain hold | ⟨heq, -⟩ :=
      live_before (attended_of_reachable (relay_of_pair hreach)) hmove hlive
    · exact hs j hj hold
    · obtain rfl := hregister j heq
      simp only [inTurn, Bool.and_eq_true, decide_eq_true_eq] at hturn
      omega

/-- In a run of two connections that take turns, each enters its loop alone. -/
theorem followsOn_of_inTurn {history : List (Pair × PairLabel)}
    (hrun : (pair crates cfg sampleClient).Run history w)
    (hturn : Always (fun w label => inTurn w label = true) history) :
    Always (FollowsOn sampleClient) history := by
  refine hrun.forall_of_always hturn othersFree_init
    (fun _ _ _ hreach hs hcond hstep => hs.step hreach hcond hstep) ?_
  intro w label hs hcond
  cases label with
  | relay label =>
      cases label with
      | register i =>
          intro _ j hne hlive
          simp only [inTurn, Bool.and_eq_true, decide_eq_true_eq,
            Bool.not_eq_true'] at hcond
          obtain ⟨-, hi, hother⟩ := hcond
          have hj : j < 2 := Nat.lt_of_not_le fun hj => hs j hj hlive
          obtain rfl : j = 1 - i := by omega
          rw [holdsPort_of_live hlive] at hother
          cases hother
      | _ => trivial
  | _ => trivial

/-- The connection is lost, the relay notices it and ends the session, and after a
second the client goes on. -/
def endSession : List PairLabel :=
  [.client (.read none), .client .finish, .relay (.conn 0 (.read none)),
   .relay (.conn 0 .stop), .relay (.retire 0 0), .relay (.conn 0 .join),
   .relay (.conn 0 .join), .relay (.unregister 0), .relay (.conn 0 .finish),
   .relay (.advance 1000), .client .wake]

/-- The client gets its port, loses the connection, and gets its port again. -/
theorem never_fatal_sample : ∃ history w,
    (pair sampleCrates tlsConfig sampleClient).Run history w ∧
    Always (PortFree tlsConfig sampleClient) history ∧
    Always (FollowsOn sampleClient) history ∧
    w.client.published.take 4 = [.online "https://relay.example.com:8080", .connecting,
      .retrying .read 1, .online "https://relay.example.com:8080"] ∧
    (∀ reason, .fatal reason ∉ w.client.published) ∧ ¬w.BindRefused := by
  have hexec : ((((pair sampleCrates tlsConfig sampleClient).restrict
      fun w label => inTurn w label = true).exec firstDial
      ([.relay (.kick 0), .relay (.register 0)] ++ openDisk 0 ++ endSession)).any
        fun w => decide (w.client.phase = .top) && !w.client.shutdown &&
          decide (w.relay.conns 1 = Conn.fresh) &&
          (((pair sampleCrates tlsConfig sampleClient).restrict
            fun w label => inTurn w label = true).exec
            (w.dialled sampleCrates sampleClient 1 (Vector.replicate 32 1))
            ([.relay (.kick 1), .relay (.register 1)] ++ openDisk 1)).any fun w => decide
              (w.client.published.take 4 = [.online "https://relay.example.com:8080",
                .connecting, .retrying .read 1,
                .online "https://relay.example.com:8080"])) = true := by decide +kernel
  obtain ⟨w₁, hw₁, hcheck⟩ := (Option.any_eq_true _ _).mp hexec
  simp only [Bool.and_eq_true, decide_eq_true_eq, Bool.not_eq_true'] at hcheck
  obtain ⟨⟨⟨htop, hshutdown⟩, hfresh⟩, hcheck⟩ := hcheck
  obtain ⟨w₂, hw₂, hshown⟩ := (Option.any_eq_true _ _).mp hcheck
  have hdial : (pair sampleCrates tlsConfig sampleClient).exec w₁
      (dial sampleCrates tlsConfig sampleClient 1 (Vector.replicate 32 1)) =
      some (w₁.dialled sampleCrates sampleClient 1 (Vector.replicate 32 1)) :=
    exec_dial _ htop hshutdown hfresh sample_configured.token
  have hdials : ∀ i nonce, ∀ label ∈ dial sampleCrates tlsConfig sampleClient i nonce,
      ∀ w, inTurn w label = true := by
    simp [dial, inTurn, calm]
  have hnil : Always (fun w label => inTurn w label = true) [] := Always.nil
  obtain ⟨_, hrun, halways⟩ := Run.start.always_of_exec hnil firstDial_exec (hdials _ _)
  obtain ⟨_, hrun, halways, -⟩ := hrun.exec_restrict halways hw₁
  obtain ⟨_, hrun, halways⟩ := hrun.always_of_exec halways hdial (hdials _ _)
  obtain ⟨_, hrun, halways, -⟩ := hrun.exec_restrict halways hw₂
  have hport : Always (PortFree tlsConfig sampleClient) _ :=
    halways.mono fun w label h => portFree_of_calm w (Bool.and_eq_true_iff.mp h).1
  have hcond := followsOn_of_inTurn hrun halways
  exact ⟨_, w₂, hrun, hport, hcond, of_decide_eq_true hshown,
    never_fatal sample_configured hrun hport hcond⟩

end Yunpan.Tunnel
