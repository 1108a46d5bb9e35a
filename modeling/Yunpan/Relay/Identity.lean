import Yunpan.Relay.Cases

/-!
# Who a connection is

What the handshake grants a connection stays with it for good: the accepted
response is set once, by a step that verified it, and every later phase of the
connection speaks for the role of that response.
-/

namespace Yunpan.Relay

open Yunpan.Protocol
open Yunpan.Transition

variable {crates : Crates} {cfg : RelayConfig} {s s' : State}

/-- The role a connection was accepted for. -/
def Conn.role? (c : Conn) : Option Role := c.accepted.map Accepted.role

/-- A response that verifies under the registered token of its client. -/
def Accepted.Valid (crates : Crates) (cfg : RelayConfig) (a : Accepted) : Prop :=
  a.proto = protoVersion ∧ ∃ token, cfg.token a.role.clientId = some token ∧
    a.mac = sign crates.hmac token a.proto a.role a.nonceHex

/-- How the phase and the grants of connection `j` can change in one step. -/
inductive Conn.Stride (crates : Crates) (cfg : RelayConfig) (label : Label) (j : ℕ)
    (c c' : Conn) : Prop
  | same :
      c'.phase = c.phase ∧ c'.accepted = c.accepted ∧ c'.joined = c.joined ∧
        c'.done = c.done →
      Conn.Stride crates cfg label j c c'
  | control {clientId : String} {phase : ControlPhase} (phase' : ControlPhase) :
      c.phase = .control clientId phase →
      c'.phase = .control clientId phase' ∧ c'.accepted = c.accepted ∧
        c'.joined = c.joined →
      Conn.Stride crates cfg label j c c'
  | handshake {action : Action} : label = .conn j action →
      HandshakeMove crates cfg c action c' →
      Conn.Stride crates cfg label j c c'
  | refused {clientId : String} {connId : UInt64} : label = .splice j →
      c.phase = .data clientId connId → c' = { c with phase := .closed } →
      Conn.Stride crates cfg label j c c'
  | joined {clientId : String} {connId : UInt64} {v : ℕ} : label = .splice j →
      c.phase = .data clientId connId →
      c' = { c with phase := .piping v, joined := some v } →
      Conn.Stride crates cfg label j c c'

theorem Conn.Stride.refl {label : Label} {j : ℕ} (c : Conn) :
    Conn.Stride crates cfg label j c c :=
  .same ⟨rfl, rfl, rfl, rfl⟩

/-- A step of control session `i` that changes at most channels of the others. -/
theorem stride_of_control {label : Label} {i : ℕ} {clientId : String}
    {phase : ControlPhase}
    (phase' : ControlPhase) (hphase : (s.conns i).phase = .control clientId phase)
    (hi : (s'.conns i).phase = .control clientId phase' ∧
      (s'.conns i).accepted = (s.conns i).accepted ∧
      (s'.conns i).joined = (s.conns i).joined)
    (hother : ∀ j, j ≠ i → (s'.conns j).phase = (s.conns j).phase ∧
      (s'.conns j).accepted = (s.conns j).accepted ∧
      (s'.conns j).joined = (s.conns j).joined ∧
      (s'.conns j).done = (s.conns j).done) (j : ℕ) :
    Conn.Stride crates cfg label j (s.conns j) (s'.conns j) := by
  by_cases hj : j = i
  · subst hj
    exact .control phase' hphase hi
  · exact .same (hother j hj)

theorem step_stride {label : Label} (h : s.step crates cfg label = some s')
    (j : ℕ) : Conn.Stride crates cfg label j (s.conns j) (s'.conns j) := by
  cases label with
  | advance ms => cases h; exact .refl _
  | sweep => cases h; exact .refl _
  | conn i action =>
      obtain ⟨c, hact, rfl⟩ := conn_cases h
      by_cases hj : j = i
      · subst hj
        rw [setConn_conns_self]
        by_cases hcontrol : ∃ clientId phase, (s.conns j).phase =
          .control clientId phase
        · obtain ⟨clientId, phase, hphase⟩ := hcontrol
          obtain ⟨phase', hphase', -, hsame, hacc, -⟩ := act_control hphase hact
          exact .control phase' hphase ⟨hphase', hacc, hsame.joined⟩
        · exact .handshake rfl
            (act_other (fun id p hp => hcontrol ⟨id, p, hp⟩) hact)
      · rw [setConn_conns_ne s c hj]
        exact .refl _
  | kick i =>
      obtain ⟨clientId, hphase, ⟨-, rfl⟩ | ⟨old, -, rfl⟩⟩ := kick_cases h
      · exact stride_of_control .register hphase (by simp)
          (fun j hj => by simp [hj]) j
      · exact stride_of_control (.signal old) hphase (by simp [moveHandle_conns])
          (fun j hj => by simp [hj, moveHandle_conns]) j
  | signal i =>
      obtain ⟨clientId, old, hphase, rfl⟩ := signal_cases h
      refine stride_of_control (.wait old (s.now + kickTimeout)) hphase ?_ ?_ j
      · by_cases hi : i = old <;> simp [hi]
      · intro j hj
        by_cases hold : j = old
        · subst hold
          simp [hj]
        · simp [hj, hold]
  | waited i =>
      obtain ⟨clientId, old, deadline, hphase, -, rfl⟩ := waited_cases h
      exact stride_of_control .register hphase (by simp [moveHandle_conns])
        (fun j hj => by simp [hj, moveHandle_conns]) j
  | register i =>
      obtain ⟨clientId, hphase, -, rfl⟩ := register_cases h
      exact stride_of_control .select hphase (by simp [moveHandle_conns])
        (fun j hj => by simp [hj, moveHandle_conns]) j
  | unregister i =>
      obtain ⟨clientId, hphase, rfl⟩ := unregister_cases h
      exact stride_of_control .finish hphase (by simp [moveHandle_conns])
        (fun j hj => by simp [hj, moveHandle_conns]) j
  | event i =>
      obtain ⟨clientId, msg, queue, hphase, -, ⟨-, rfl⟩ | ⟨v, waiters, -, rfl⟩⟩ :=
        event_cases h
      · exact stride_of_control (.write msg .event) hphase (by simp)
          (fun j hj => by simp [hj]) j
      · exact stride_of_control (.write msg .event) hphase (by simp)
          (fun j hj => by simp [hj]) j
  | bound i osOk =>
      obtain ⟨clientId, name, port, hphase, ⟨-, -, -, rfl⟩ | ⟨reason, -, rfl⟩⟩ :=
        bound_cases h
      · exact stride_of_control
          (.write (.bindOk name port (cfg.publicUrlFor clientId)) .reply) hphase
          (by simp) (fun j hj => by simp [hj]) j
      · exact stride_of_control (.write (.bindErr name reason) .reply) hphase
          (by simp) (fun j hj => by simp [hj]) j
  | arrive i n v peer =>
      obtain ⟨l, -, -, -, rfl⟩ := arrive_cases h
      exact .same (by simp [setListener_conns])
  | retire i n =>
      obtain ⟨l, -, -, -, rfl⟩ := retire_cases h
      exact .same (by simp [endListener_conns, setListener_conns])
  | route v peer =>
      obtain ⟨-, -, rfl⟩ := route_cases h
      exact .refl _
  | tls v result =>
      obtain ⟨x, since, -, -, ⟨-, rfl⟩ | ⟨-, rfl⟩⟩ := tls_cases h
      · exact .refl _
      · exact .same (by simp [release_conns])
  | head v block =>
      obtain ⟨x, since, -, -, ⟨status, -, rfl⟩ | ⟨bytes, seg, session, -, -, rfl⟩⟩ :=
        head_cases h
      · exact .refl _
      · exact .refl _
  | number v =>
      obtain ⟨x, -, -, rfl⟩ := number_cases h
      exact .refl _
  | insert v =>
      obtain ⟨x, k, target, -, -, -, rfl⟩ := insert_cases h
      exact .refl _
  | send v =>
      obtain ⟨x, k, target, -, -, ⟨-, -, rfl⟩ | ⟨-, -, -, rfl⟩ | ⟨-, -, -, rfl⟩⟩ :=
        send_cases h
      · exact .refl _
      · refine .same ?_
        by_cases hj : j = target.session <;> simp [release_conns, hj]
      · refine .same ?_
        by_cases hj : j = target.session <;> simp [hj]
  | resume v =>
      obtain ⟨x, k, target, -, -, -, ⟨-, rfl⟩ | ⟨-, rfl⟩⟩ := resume_cases h
      all_goals
        refine .same ?_
        by_cases hj : j = target.session <;> simp [release_conns, hj]
  | unwind v =>
      obtain ⟨x, k, -, -, rfl⟩ := unwind_cases h
      exact .same (by simp [release_conns])
  | splice i =>
      obtain ⟨clientId, connId, hphase,
        ⟨-, rfl⟩ | ⟨p, -, ⟨-, rfl⟩ | ⟨-, rfl⟩⟩⟩ := splice_cases h
      all_goals
        by_cases hj : j = i
        case neg => exact .same (by simp [hj])
        subst hj
      · exact .refused rfl hphase (by simp)
      · exact .joined (v := p.stream) rfl hphase (by simp)
      · exact .refused rfl hphase (by simp)

/-! ## The grants of a connection -/

/-- What the phase of a connection says about its grants. -/
structure Conn.Genuine (crates : Crates) (cfg : RelayConfig) (c : Conn) : Prop where
  challenged : ∀ {proto role token nonceHex},
    c.phase = .incoming (.auth proto role token nonceHex) →
    proto = protoVersion ∧ token = cfg.token role.clientId
  early : c.phase = .idle ∨ (∃ stage, c.phase = .incoming stage) →
    c.accepted = none ∧ c.joined = none
  control : ∀ {clientId phase}, c.phase = .control clientId phase →
    c.role? = some (.control clientId) ∧ c.joined = none
  data : ∀ {clientId connId}, c.phase = .data clientId connId →
    c.role? = some (.data clientId connId) ∧ c.joined = none
  joined : ∀ {v}, c.joined = some v →
    ∃ clientId connId, c.role? = some (.data clientId connId)
  valid : ∀ {a}, c.accepted = some a → a.Valid crates cfg

theorem genuine_fresh : Conn.fresh.Genuine crates cfg := by
  constructor <;> simp [Conn.fresh]

theorem Conn.Genuine.closed {c : Conn} (h : c.Genuine crates cfg) :
    Conn.Genuine crates cfg { c with phase := .closed } where
  challenged := by simp
  early := by simp
  control := by simp
  data := by simp
  joined := h.joined
  valid := h.valid

theorem Conn.Genuine.stride {label : Label} {j : ℕ} {c c' : Conn}
    (h : c.Genuine crates cfg)
    (hstride : Conn.Stride crates cfg label j c c') : c'.Genuine crates cfg := by
  cases hstride with
  | same hsame =>
      obtain ⟨hphase, hacc, hjoined, -⟩ := hsame
      have hrole : c'.role? = c.role? := by rw [Conn.role?, hacc, Conn.role?]
      constructor <;> simp only [hphase, hacc, hjoined, hrole]
      exacts [h.challenged, h.early, h.control, h.data, h.joined, h.valid]
  | @control clientId phase phase' hphase hnew =>
      obtain ⟨hphase', hacc, hjoined⟩ := hnew
      have hrole : c'.role? = c.role? := by rw [Conn.role?, hacc, Conn.role?]
      have hold := h.control hphase
      constructor <;> simp only [hphase', hacc, hjoined, hrole]
      · simp
      · simp
      · intro clientId' phase'' heq
        cases heq
        exact hold
      · simp
      · exact h.joined
      · exact h.valid
  | handshake _ hmove =>
      cases hmove with
      | accept hidle =>
          have hold := h.early (Or.inl hidle)
          constructor
          · simp
          · exact fun _ => hold
          · simp
          · simp
          · exact h.joined
          · exact h.valid
      | challenge hhello =>
          have hold := h.early (Or.inr ⟨_, hhello⟩)
          constructor
          · intro proto role token nonceHex heq
            cases heq
            exact ⟨rfl, rfl⟩
          · exact fun _ => hold
          · simp
          · simp
          · exact h.joined
          · exact h.valid
      | close => exact h.closed
      | stay => exact h
      | @pass proto role token nonceHex mac nonce hauth haccepts =>
          obtain ⟨rfl, rfl⟩ := h.challenged hauth
          obtain ⟨hnone, hjoined⟩ := h.early (Or.inr ⟨_, hauth⟩)
          constructor
          · intro proto role' token nonceHex' heq
            cases role <;> cases heq
          · rintro (heq | ⟨stage, heq⟩) <;> cases role <;> cases heq
          · intro clientId phase heq
            cases role <;> cases heq
            exact ⟨rfl, hjoined⟩
          · intro clientId connId heq
            cases role <;> cases heq
            exact ⟨rfl, hjoined⟩
          · intro v heq
            rw [show c.joined = some v from heq] at hjoined
            cases hjoined
          · intro a heq
            cases heq
            exact ⟨rfl, (accepts_iff _ _ _ _ _ _).mp haccepts⟩
  | refused _ hdata heq =>
      subst heq
      exact h.closed
  | @joined clientId connId v _ hdata heq =>
      subst heq
      have hrole := (h.data hdata).1
      constructor
      · simp
      · simp
      · simp
      · simp
      · exact fun _ => ⟨clientId, connId, hrole⟩
      · exact h.valid

/-- A session begins with an action of its own connection. -/
theorem Conn.Stride.begun_by {label : Label} {j : ℕ} {c c' : Conn}
    (hstride : Conn.Stride crates cfg label j c c')
    (hother : ∀ clientId phase, c.phase ≠ .control clientId phase) {clientId : String}
    {phase : ControlPhase} (hphase : c'.phase = .control clientId phase) :
    ∃ action, label = .conn j action := by
  cases hstride with
  | same hsame => exact absurd (hsame.1 ▸ hphase) (hother _ _)
  | control _ hold => exact absurd hold (hother _ _)
  | handshake hlabel => exact ⟨_, hlabel⟩
  | refused _ _ heq => subst heq; cases hphase
  | joined _ _ heq => subst heq; cases hphase

/-- A session begins with the kick, and nothing has been done before. -/
theorem Conn.Stride.begins {label : Label} {j : ℕ} {c c' : Conn}
    (hstride : Conn.Stride crates cfg label j c c')
    (hother : ∀ clientId phase, c.phase ≠ .control clientId phase) :
    c'.done = c.done ∧
      ∀ clientId phase, c'.phase = .control clientId phase → phase = .kick := by
  cases hstride with
  | same hsame =>
      exact ⟨hsame.2.2.2, fun _ _ hphase => absurd (hsame.1 ▸ hphase) (hother _ _)⟩
  | control phase' hphase => exact absurd hphase (hother _ _)
  | handshake _ hmove =>
      refine ⟨hmove.channels.2.2, fun clientId phase hphase => ?_⟩
      cases hmove with
      | @pass _ role =>
          cases role <;> cases hphase
          rfl
      | stay => exact absurd hphase (hother _ _)
      | _ => cases hphase
  | refused _ _ heq => subst heq; exact ⟨rfl, by simp⟩
  | joined _ _ heq => subst heq; exact ⟨rfl, by simp⟩

/-- An accepted response is never replaced. -/
theorem Conn.Genuine.accepted_kept {label : Label} {j : ℕ} {c c' : Conn} {a : Accepted}
    (h : c.Genuine crates cfg) (hstride : Conn.Stride crates cfg label j c c')
    (ha : c.accepted = some a) : c'.accepted = some a := by
  cases hstride with
  | same hsame => exact hsame.2.1.trans ha
  | control phase' hphase hnew => exact hnew.2.1.trans ha
  | handshake _ hmove =>
      cases hmove with
      | pass hauth =>
          rw [(h.early (Or.inr ⟨_, hauth⟩)).1] at ha
          cases ha
      | _ => exact ha
  | refused _ hdata heq => exact heq ▸ ha
  | joined _ hdata heq => exact heq ▸ ha

theorem Conn.Genuine.role_kept {label : Label} {j : ℕ} {c c' : Conn} {role : Role}
    (h : c.Genuine crates cfg) (hstride : Conn.Stride crates cfg label j c c')
    (hrole : c.role? = some role) : c'.role? = some role := by
  obtain ⟨a, ha, rfl⟩ := Option.map_eq_some_iff.mp hrole
  rw [Conn.role?, h.accepted_kept hstride ha]
  rfl

def State.Genuine (crates : Crates) (cfg : RelayConfig) (s : State) : Prop :=
  ∀ i, (s.conns i).Genuine crates cfg

theorem genuine_of_reachable (h : (relay crates cfg).Reachable s) :
    s.Genuine crates cfg :=
  h.invariant (fun _ => genuine_fresh) fun _ _ _ _ hinv hstep i =>
    (hinv i).stride (step_stride hstep i)

/-! ## Honest logins -/

/-- The steps in which a holder of the token passes the handshake. -/
def login (hmac : Hmac) (i : ℕ) (role : Role) (token : String) (nonce : Nonce) :
    List Label :=
  [.conn i .accept,
   .conn i (.frame nonce (.hello protoVersion role "yunpan/0.1.0") true),
   .conn i (.frame nonce
      (.auth (sign hmac token protoVersion role nonce.hex)) true)]

/-- A connection right after `login`. -/
def Conn.loggedIn (hmac : Hmac) (role : Role) (token : String) (nonce : Nonce) :
    Conn :=
  { Conn.fresh with
    accepted := some ⟨protoVersion, role, nonce.hex,
      sign hmac token protoVersion role nonce.hex⟩
    phase := Phase.enter role }

/-- Whoever holds the registered token gets in. -/
theorem exec_login {i : ℕ} {role : Role} {token : String} (nonce : Nonce)
    (hfresh : s.conns i = Conn.fresh) (htoken : cfg.token role.clientId = some token) :
    (relay crates cfg).exec s (login crates.hmac i role token nonce) =
      some (s.setConn i (Conn.loggedIn crates.hmac role token nonce)) := by
  have hok : accepts crates.hmac protoVersion role (some token) nonce.hex
      (sign crates.hmac token protoVersion role nonce.hex) = true :=
    (accepts_iff _ _ _ _ _ _).mpr ⟨token, rfl, rfl⟩
  simp [login, System.exec, relay, State.step, Conn.act, hfresh, Conn.fresh,
    Conn.frame, Incoming.step, handleHello, htoken, Incoming.reply, handleAuth, hok,
    Conn.loggedIn, State.setConn]

theorem Reachable.login {i : ℕ} (role : Role) {token : String} (nonce : Nonce)
    (h : (relay crates cfg).Reachable s) (hfresh : s.conns i = Conn.fresh)
    (htoken : cfg.token role.clientId = some token) :
    (relay crates cfg).Reachable
      (s.setConn i (Conn.loggedIn crates.hmac role token nonce)) :=
  h.exec (exec_login nonce hfresh htoken)

end Yunpan.Relay
