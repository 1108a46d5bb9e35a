import Yunpan.Relay.Isolation
import Yunpan.Relay.Session

/-!
# The heartbeat and its clock

The ticker of a control session is due every `heartbeat_secs`, and a loop that was
held up in a write or a bind takes the ticks that it missed back to back.  Here the
relay runs together with the schedule of one session's ticker, and with a record of
the Pings that were sent since a Pong was last read.
-/

namespace Yunpan.Relay

open Yunpan.Protocol
open Yunpan.Transition

variable {crates : Crates} {cfg : RelayConfig} {s s' : State}

/-! ## What a step does to the count of missed Pongs -/

/-- The count and the result of a loop that neither ticks nor reads a Pong. -/
structure Conn.SamePulse (c c' : Conn) : Prop where
  missedPongs : c'.missedPongs = c.missedPongs
  result : c'.result = some .heartbeatLost → c.result = some .heartbeatLost

theorem Conn.SamePulse.of_eq {c c' : Conn}
    (h : c'.missedPongs = c.missedPongs ∧ c'.result = c.result) : c.SamePulse c' :=
  ⟨h.1, fun hlost => h.2 ▸ hlost⟩

/-- How one step changes the heartbeat of session `i`. -/
inductive Conn.Pulse (label : Label) (i : ℕ) (c c' : Conn) : Prop
  | same : c.SamePulse c' → Conn.Pulse label i c c'
  | pong {clientId : String} {ts : UInt64} : label = .conn i (.read (some (.pong ts))) →
      c.phase = .control clientId .select → c' = { c with missedPongs := 0 } →
      Conn.Pulse label i c c'
  | tick {clientId : String} : label = .conn i .tick →
      c.phase = .control clientId .select → c' = c.tick clientId →
      Conn.Pulse label i c c'

theorem act_pulse {c c' : Conn} {action : Action} {i : ℕ}
    (h : c.act crates cfg action = some c') : c.Pulse (.conn i action) i c' := by
  by_cases hcontrol : ∃ clientId phase, c.phase = .control clientId phase
  · obtain ⟨clientId, phase, hphase⟩ := hcontrol
    cases act_cases hphase h with
    | overdue hmany => exact .tick rfl hphase (if_pos hmany).symm
    | ping hfew => exact .tick rfl hphase (if_neg (Nat.not_le.mpr hfew)).symm
    | pong => exact .pong rfl hphase rfl
    | readFailed => exact .same ⟨rfl, nofun⟩
    | left => exact .same ⟨rfl, nofun⟩
    | done => exact .same ⟨rfl, nofun⟩
    | _ => exact .same (.of_eq ⟨rfl, rfl⟩)
  · cases act_other (fun id p hp => hcontrol ⟨id, p, hp⟩) h <;>
      exact .same (.of_eq ⟨rfl, rfl⟩)

/-- A step of the relay seen from the heartbeat of one session. -/
theorem step_pulse {label : Label} (h : s.step crates cfg label = some s') (i : ℕ) :
    (s.conns i).Pulse label i (s'.conns i) := by
  have hsame : (s'.conns i).missedPongs = (s.conns i).missedPongs ∧
      (s'.conns i).result = (s.conns i).result →
      (s.conns i).Pulse label i (s'.conns i) := fun heq => .same (.of_eq heq)
  cases label with
  | advance ms => cases h; exact hsame ⟨rfl, rfl⟩
  | sweep => cases h; exact hsame ⟨rfl, rfl⟩
  | conn j action =>
      obtain ⟨c, hact, rfl⟩ := conn_cases h
      by_cases hj : i = j
      · subst hj
        rw [setConn_conns_self]
        exact act_pulse hact
      · exact hsame (by simp [hj])
  | kick j =>
      obtain ⟨clientId, -, ⟨-, rfl⟩ | ⟨old, -, rfl⟩⟩ := kick_cases h
      all_goals by_cases hj : i = j <;> exact hsame (by simp [hj, moveHandle_conns])
  | signal j =>
      obtain ⟨clientId, old, -, rfl⟩ := signal_cases h
      apply hsame
      simp only [State.setConn_conns, Function.update_apply]
      split <;> split <;> simp_all
  | waited j =>
      obtain ⟨clientId, old, deadline, -, -, rfl⟩ := waited_cases h
      by_cases hj : i = j <;> exact hsame (by simp [hj, moveHandle_conns])
  | register j =>
      obtain ⟨clientId, -, -, rfl⟩ := register_cases h
      by_cases hj : i = j <;> exact hsame (by simp [hj, moveHandle_conns])
  | unregister j =>
      obtain ⟨clientId, -, rfl⟩ := unregister_cases h
      by_cases hj : i = j <;> exact hsame (by simp [hj, moveHandle_conns])
  | event j =>
      obtain ⟨clientId, msg, queue, -, -, ⟨-, rfl⟩ | ⟨v, waiters, -, rfl⟩⟩ :=
        event_cases h
      all_goals by_cases hj : i = j <;> exact hsame (by simp [hj])
  | bound j osOk =>
      obtain ⟨clientId, name, port, -, ⟨-, -, -, rfl⟩ | ⟨reason, -, rfl⟩⟩ :=
        bound_cases h
      all_goals by_cases hj : i = j <;> exact hsame (by simp [hj])
  | arrive j n v peer =>
      obtain ⟨l, -, -, -, rfl⟩ := arrive_cases h
      by_cases hj : i = j <;> exact hsame (by simp [hj, setListener_conns])
  | retire j n =>
      obtain ⟨l, -, -, -, rfl⟩ := retire_cases h
      by_cases hj : i = j <;>
        exact hsame (by simp [hj, endListener_conns, setListener_conns])
  | route v peer =>
      obtain ⟨-, -, rfl⟩ := route_cases h
      exact hsame ⟨rfl, rfl⟩
  | tls v result =>
      obtain ⟨x, since, -, -, ⟨-, rfl⟩ | ⟨-, rfl⟩⟩ := tls_cases h
      all_goals exact hsame (by simp [release_conns])
  | head v block =>
      obtain ⟨x, since, -, -, ⟨status, -, rfl⟩ | ⟨bytes, seg, session, -, -, rfl⟩⟩ :=
        head_cases h
      all_goals exact hsame ⟨rfl, rfl⟩
  | number v =>
      obtain ⟨x, -, -, rfl⟩ := number_cases h
      exact hsame ⟨rfl, rfl⟩
  | insert v =>
      obtain ⟨x, k, target, -, -, -, rfl⟩ := insert_cases h
      exact hsame ⟨rfl, rfl⟩
  | send v =>
      obtain ⟨x, k, target, -, -, ⟨-, -, rfl⟩ | ⟨-, -, -, rfl⟩ | ⟨-, -, -, rfl⟩⟩ :=
        send_cases h
      all_goals
        by_cases hj : i = target.session <;> exact hsame (by simp [hj, release_conns])
  | resume v =>
      obtain ⟨x, k, target, -, -, -, ⟨-, rfl⟩ | ⟨-, rfl⟩⟩ := resume_cases h
      all_goals
        by_cases hj : i = target.session <;> exact hsame (by simp [hj, release_conns])
  | unwind v =>
      obtain ⟨x, k, -, -, rfl⟩ := unwind_cases h
      exact hsame (by simp [release_conns])
  | splice j =>
      obtain ⟨clientId, connId, -, ⟨-, rfl⟩ | ⟨p, -, ⟨-, rfl⟩ | ⟨-, rfl⟩⟩⟩ :=
        splice_cases h
      all_goals by_cases hj : i = j <;> exact hsame (by simp [hj])

/-- The clock of the relay does not go back. -/
theorem now_le {label : Label} (h : s.step crates cfg label = some s') :
    s.now ≤ s'.now := by
  cases label with
  | advance ms => cases h; exact Nat.le_add_right s.now ms
  | sweep => cases h; exact Nat.le_refl _
  | conn i action =>
      obtain ⟨c, -, rfl⟩ := conn_cases h
      exact Nat.le_refl _
  | kick i =>
      obtain ⟨clientId, -, ⟨-, rfl⟩ | ⟨old, -, rfl⟩⟩ := kick_cases h <;> simp
  | signal i =>
      obtain ⟨clientId, old, -, rfl⟩ := signal_cases h
      exact Nat.le_refl _
  | waited i =>
      obtain ⟨clientId, old, deadline, -, -, rfl⟩ := waited_cases h
      simp
  | register i =>
      obtain ⟨clientId, -, -, rfl⟩ := register_cases h
      simp
  | unregister i =>
      obtain ⟨clientId, -, rfl⟩ := unregister_cases h
      simp
  | event i =>
      obtain ⟨clientId, msg, queue, -, -, ⟨-, rfl⟩ | ⟨v, waiters, -, rfl⟩⟩ :=
        event_cases h <;> exact Nat.le_refl _
  | bound i osOk =>
      obtain ⟨clientId, name, port, -, ⟨-, -, -, rfl⟩ | ⟨reason, -, rfl⟩⟩ :=
        bound_cases h <;> exact Nat.le_refl _
  | arrive i n v peer =>
      obtain ⟨l, -, -, -, rfl⟩ := arrive_cases h
      exact Nat.le_refl _
  | retire i n =>
      obtain ⟨l, -, -, -, rfl⟩ := retire_cases h
      simp
  | route v peer =>
      obtain ⟨-, -, rfl⟩ := route_cases h
      exact Nat.le_refl _
  | tls v result =>
      obtain ⟨x, since, -, -, ⟨-, rfl⟩ | ⟨-, rfl⟩⟩ := tls_cases h <;> simp
  | head v block =>
      obtain ⟨x, since, -, -, ⟨status, -, rfl⟩ | ⟨bytes, seg, session, -, -, rfl⟩⟩ :=
        head_cases h <;> exact Nat.le_refl _
  | number v =>
      obtain ⟨x, -, -, rfl⟩ := number_cases h
      exact Nat.le_refl _
  | insert v =>
      obtain ⟨x, k, target, -, -, -, rfl⟩ := insert_cases h
      exact Nat.le_refl _
  | send v =>
      obtain ⟨x, k, target, -, -, ⟨-, -, rfl⟩ | ⟨-, -, -, rfl⟩ | ⟨-, -, -, rfl⟩⟩ :=
        send_cases h <;> simp
  | resume v =>
      obtain ⟨x, k, target, -, -, -, ⟨-, rfl⟩ | ⟨-, rfl⟩⟩ := resume_cases h <;> simp
  | unwind v =>
      obtain ⟨x, k, -, -, rfl⟩ := unwind_cases h
      simp
  | splice i =>
      obtain ⟨clientId, connId, -, ⟨-, rfl⟩ | ⟨p, -, ⟨-, rfl⟩ | ⟨-, rfl⟩⟩⟩ :=
        splice_cases h <;> exact Nat.le_refl _

/-! ## Before, in and after the loop -/

/-- The part of `run_control` that a session is in: before its loop, in it, or after
it. -/
def ControlPhase.part : ControlPhase → ℕ
  | .kick | .signal _ | .wait _ _ | .register => 0
  | .select | .write _ _ | .bind _ _ => 1
  | .stop | .join _ | .unregister | .finish | .returned _ => 2

theorem ControlPhase.part_of_looping {phase : ControlPhase} (h : phase.looping = true) :
    phase.part = 1 := by
  cases phase <;> first | rfl | cases h

theorem ControlStep.part_le {label : Label} {i : ℕ} {phase phase' : ControlPhase}
    (h : ControlStep crates s label i phase phase') : phase.part ≤ phase'.part := by
  cases h with
  | own _ hmove =>
      cases hmove with
      | loop hlooping _ hlooping' =>
          rw [ControlPhase.part_of_looping hlooping,
            ControlPhase.part_of_looping hlooping']
      | leave hlooping =>
          rw [ControlPhase.part_of_looping hlooping]
          exact Nat.le_succ 1
      | lost hlost =>
          obtain ⟨io, msg, -, rfl⟩ := write_of_losesReply hlost
          exact Nat.le_succ 1
      | _ => exact Nat.le_refl _
  | register => exact Nat.zero_le _
  | _ => exact Nat.le_refl _

/-- The part of `run_control` that a connection is in; handshakes and data
connections are before it. -/
def Conn.part (c : Conn) : ℕ :=
  match c.phase with
  | .control _ phase => phase.part
  | _ => 0

theorem Conn.part_eq {c : Conn} {clientId : String} {phase : ControlPhase}
    (h : c.phase = .control clientId phase) : c.part = phase.part := by
  simp [Conn.part, h]

theorem Conn.part_le_two (c : Conn) : c.part ≤ 2 := by
  unfold Conn.part ControlPhase.part
  split
  · split <;> decide
  · decide

/-- No session goes back. -/
theorem part_le {label : Label} (h : s.step crates cfg label = some s') (i : ℕ) :
    (s.conns i).part ≤ (s'.conns i).part := by
  cases hphase : (s.conns i).phase with
  | control clientId phase =>
      obtain ⟨phase', hstep⟩ := step_session h hphase
      rw [Conn.part_eq hphase, Conn.part_eq hstep.phase_eq]
      exact hstep.moves.part_le
  | _ => simp [Conn.part, hphase]

/-! ## The ticker -/

/-- `heartbeat_secs` in milliseconds. -/
def RelayConfig.period (cfg : RelayConfig) : ℕ := cfg.heartbeatSecs.toNat * 1000

/-- A Ping: when its tick was due, and when it was sent.  That is when the loop took
the tick, and from the moment the write returns, when it returned. -/
structure Ping where
  due : ℕ
  sent : ℕ
  deriving DecidableEq

/-- The relay and the ticker of one session: when the next tick is due, and the Pings
sent since a Pong was last read, newest first. -/
structure Beat where
  relay : State
  due : Option ℕ
  pings : List Ping

/-- The ticker of session `i` fires. -/
def Label.ticks (i : ℕ) : Label → Bool
  | .conn j .tick => j == i
  | _ => false

/-- Session `i` reads a Pong. -/
def Label.readsPong (i : ℕ) : Label → Bool
  | .conn j (.read (some (.pong _))) => j == i
  | _ => false

/-- Session `i` comes back from a write. -/
def Label.writes (i : ℕ) : Label → Bool
  | .conn j (.written _) => j == i
  | _ => false

/-- The session is writing a Ping. -/
def Conn.pinging (c : Conn) : Bool :=
  match c.phase with
  | .control _ (.write _ .ping) => true
  | _ => false

/-- Session `i` makes its ticker, whose first tick is due at once. -/
def Label.startsTicker (i : ℕ) : Label → Bool
  | .register j => j == i
  | _ => false

/-- A tick that is due; the next one is due a period after this one was, however late
this one is. -/
def Beat.tick (cfg : RelayConfig) (i : ℕ) (b : Beat) (relay : State) : Option Beat :=
  match b.due with
  | none => none
  | some due =>
      if due ≤ b.relay.now then
        some {
          relay
          due := some (due + cfg.period)
          pings :=
            if (b.relay.conns i).missedPongs < 3 then ⟨due, b.relay.now⟩ :: b.pings
            else b.pings }
      else none

/-- The Ping that was taken last is sent now. -/
def sendPing (now : ℕ) (pings : List Ping) : List Ping :=
  pings.modifyHead fun ping => { ping with sent := now }

def Beat.step (crates : Crates) (cfg : RelayConfig) (i : ℕ) (b : Beat)
    (label : Label) : Option Beat :=
  (b.relay.step crates cfg label).bind fun relay =>
    if label.ticks i then b.tick cfg i relay
    else if label.readsPong i then some { b with relay, pings := [] }
    else if label.startsTicker i then some { b with relay, due := some b.relay.now }
    else if label.writes i && (b.relay.conns i).pinging then
      some { b with relay, pings := sendPing b.relay.now b.pings }
    else some { b with relay }

/-- The relay on the clock of session `i`. -/
def beats (crates : Crates) (cfg : RelayConfig) (i : ℕ) : System Beat Label where
  init := ⟨State.init, none, []⟩
  step := Beat.step crates cfg i

/-- A session ends with the heartbeat error. -/
def GivesUp (i : ℕ) (b b' : Beat) : Prop :=
  (b.relay.conns i).result ≠ some .heartbeatLost ∧
    (b'.relay.conns i).result = some .heartbeatLost

/-- Three Pings of consecutive ticks without a Pong since the first of them, which was
sent three periods ago or more. -/
def Overdue (cfg : RelayConfig) (b : Beat) : Prop :=
  ∃ first second third, b.pings = [third, second, first] ∧
    second.due = first.due + cfg.period ∧ third.due = second.due + cfg.period ∧
    first.sent + 3 * cfg.period ≤ b.relay.now

/-- The Ping that was sent last is a period old, or none is unanswered. -/
def Beat.rested (cfg : RelayConfig) (b : Beat) : Bool :=
  b.pings.head?.all fun last => last.sent + cfg.period ≤ b.relay.now

/-- The ticker does not catch up while a Ping is unanswered: each tick comes a period
or more after the last Ping was sent. -/
def TicksApart (cfg : RelayConfig) (i : ℕ) (b : Beat) (label : Label) : Prop :=
  label.ticks i = true → b.rested cfg = true

instance (cfg : RelayConfig) (i : ℕ) (b : Beat) (label : Label) :
    Decidable (TicksApart cfg i b label) :=
  inferInstanceAs (Decidable (_ → _))

/-- No Pong is read. -/
def Silent (i : ℕ) (history : List (Beat × Label)) : Prop :=
  ∀ entry ∈ history, entry.2.readsPong i = false

def ticksTaken (i : ℕ) (history : List (Beat × Label)) : ℕ :=
  history.countP fun entry => entry.2.ticks i

/-! ## The schedule of the Pings -/

/-- Pings of consecutive ticks up to the one that is due next. -/
def Spaced (period : ℕ) : ℕ → List Ping → Prop
  | _, [] => True
  | due, ping :: pings => ping.due + period = due ∧ Spaced period ping.due pings

theorem spaced_sendPing {period due now : ℕ} {pings : List Ping} :
    Spaced period due (sendPing now pings) ↔ Spaced period due pings := by
  cases pings with
  | nil => exact Iff.rfl
  | cons ping pings => exact Iff.rfl

@[simp]
theorem length_sendPing (now : ℕ) (pings : List Ping) :
    (sendPing now pings).length = pings.length :=
  List.length_modifyHead

structure Beat.Paced (cfg : RelayConfig) (i : ℕ) (b : Beat) : Prop where
  count : (b.relay.conns i).missedPongs = b.pings.length
  few : b.pings.length ≤ 3
  started : b.due.isSome = true → 1 ≤ (b.relay.conns i).part
  waiting : b.due = none → b.pings = []
  spaced : ∀ due, b.due = some due → (b.relay.conns i).part = 1 →
    Spaced cfg.period due b.pings

section Steps

variable {i : ℕ} {b b' : Beat} {label : Label}

/-- What a step does to the ticker and to the record of Pings. -/
inductive Beat.Moves (cfg : RelayConfig) (i : ℕ) (b b' : Beat) : Label → Prop
  | tick {clientId : String} {due : ℕ} : b.due = some due → due ≤ b.relay.now →
      (b.relay.conns i).phase = .control clientId .select →
      b'.relay.conns i = (b.relay.conns i).tick clientId →
      b'.due = some (due + cfg.period) →
      b'.pings = (if (b.relay.conns i).missedPongs < 3 then
        ⟨due, b.relay.now⟩ :: b.pings else b.pings) →
      Beat.Moves cfg i b b' (.conn i .tick)
  | pong {ts : UInt64} :
      b'.relay.conns i = { b.relay.conns i with missedPongs := 0 } →
      b'.due = b.due → b'.pings = [] →
      Beat.Moves cfg i b b' (.conn i (.read (some (.pong ts))))
  | pinged {io : Bool} : (b.relay.conns i).SamePulse (b'.relay.conns i) →
      b'.due = b.due → b'.pings = sendPing b.relay.now b.pings →
      Beat.Moves cfg i b b' (.conn i (.written io))
  | start : (b.relay.conns i).part = 0 → (b'.relay.conns i).part = 1 →
      (b.relay.conns i).SamePulse (b'.relay.conns i) →
      b'.due = some b.relay.now → b'.pings = b.pings →
      Beat.Moves cfg i b b' (.register i)
  | other {label : Label} : label.ticks i = false → label.readsPong i = false →
      (b.relay.conns i).SamePulse (b'.relay.conns i) → b'.due = b.due →
      b'.pings = b.pings → Beat.Moves cfg i b b' label

theorem Beat.step_relay (h : b.step crates cfg i label = some b') :
    b.relay.step crates cfg label = some b'.relay := by
  obtain ⟨relay, hrelay, hb⟩ := Option.bind_eq_some_iff.mp h
  have hsame : b'.relay = relay := by
    split at hb
    case isTrue =>
      unfold Beat.tick at hb
      split at hb
      case h_1 => cases hb
      case h_2 =>
        split at hb
        case isTrue => cases hb; rfl
        case isFalse => cases hb
    case isFalse =>
      split at hb
      case isTrue => cases hb; rfl
      case isFalse =>
        split at hb
        case isTrue => cases hb; rfl
        case isFalse => split at hb <;> cases hb <;> rfl
  rw [hrelay, hsame]

theorem Label.ticks_eq (h : label.ticks i = true) : label = .conn i .tick := by
  unfold Label.ticks at h
  split at h
  case h_1 j => rw [eq_of_beq h]
  case h_2 => cases h

theorem Label.readsPong_eq (h : label.readsPong i = true) :
    ∃ ts, label = .conn i (.read (some (.pong ts))) := by
  unfold Label.readsPong at h
  split at h
  case h_1 j ts => exact ⟨ts, by rw [eq_of_beq h]⟩
  case h_2 => cases h

theorem Label.writes_eq (h : label.writes i = true) :
    ∃ io, label = .conn i (.written io) := by
  unfold Label.writes at h
  split at h
  case h_1 j io => exact ⟨io, by rw [eq_of_beq h]⟩
  case h_2 => cases h

theorem Label.startsTicker_eq (h : label.startsTicker i = true) :
    label = .register i := by
  unfold Label.startsTicker at h
  split at h
  case h_1 j => rw [eq_of_beq h]
  case h_2 => cases h

/-- Apart from its own ticks and Pongs nothing touches a session's heartbeat. -/
theorem Conn.Pulse.same_of_not {c c' : Conn} (h : c.Pulse label i c')
    (hticks : label.ticks i = false) (hpong : label.readsPong i = false) :
    c.SamePulse c' := by
  cases h with
  | same hsame => exact hsame
  | pong hlabel => simp [hlabel, Label.readsPong] at hpong
  | tick hlabel => simp [hlabel, Label.ticks] at hticks

theorem Beat.tick_moves (h : b.step crates cfg i (.conn i .tick) = some b') :
    Beat.Moves cfg i b b' (.conn i .tick) := by
  obtain ⟨relay, hrelay, hb⟩ := Option.bind_eq_some_iff.mp h
  have hticks : Label.ticks i (.conn i .tick) = true := by simp [Label.ticks]
  rw [if_pos hticks] at hb
  unfold Beat.tick at hb
  split at hb
  case h_1 => cases hb
  case h_2 due hdue =>
    obtain ⟨hle, rfl⟩ := by simpa only [Option.ite_none_right_eq_some,
      Option.some.injEq] using hb
    have hact : (b.relay.conns i).act crates cfg .tick = some (relay.conns i) := by
      obtain ⟨c, hact, rfl⟩ := conn_cases hrelay
      rw [hact, setConn_conns_self]
    simp only [Conn.act] at hact
    split at hact
    case h_1 clientId hphase =>
      exact .tick hdue hle hphase (Option.some.inj hact).symm rfl rfl
    case h_2 => cases hact

theorem Beat.pong_moves {ts : UInt64}
    (h : b.step crates cfg i (.conn i (.read (some (.pong ts)))) = some b') :
    Beat.Moves cfg i b b' (.conn i (.read (some (.pong ts)))) := by
  obtain ⟨relay, hrelay, hb⟩ := Option.bind_eq_some_iff.mp h
  have hticks : Label.ticks i (.conn i (.read (some (.pong ts)))) = false := rfl
  have hpong : Label.readsPong i (.conn i (.read (some (.pong ts)))) = true := by
    simp [Label.readsPong]
  rw [if_neg (by simp [hticks]), if_pos hpong] at hb
  cases hb
  have hact : (b.relay.conns i).act crates cfg (.read (some (.pong ts))) =
      some (relay.conns i) := by
    obtain ⟨c, hact, rfl⟩ := conn_cases hrelay
    rw [hact, setConn_conns_self]
  simp only [Conn.act] at hact
  split at hact
  case h_1 clientId hphase => exact .pong (Option.some.inj hact).symm rfl rfl
  case h_2 => cases hact

theorem Beat.start_moves (h : b.step crates cfg i (.register i) = some b') :
    Beat.Moves cfg i b b' (.register i) := by
  obtain ⟨relay, hrelay, hb⟩ := Option.bind_eq_some_iff.mp h
  have hstarts : Label.startsTicker i (.register i) = true := by
    simp [Label.startsTicker]
  rw [if_neg (by simp [Label.ticks]), if_neg (by simp [Label.readsPong]),
    if_pos hstarts] at hb
  cases hb
  have hsame := (step_pulse hrelay i).same_of_not (i := i) rfl rfl
  obtain ⟨clientId, hphase, -, rfl⟩ := register_cases hrelay
  refine .start ?_ ?_ hsame rfl rfl
  · simp [Conn.part, hphase, ControlPhase.part]
  · simp [Conn.part, ControlPhase.part]

theorem Beat.step_moves (h : b.step crates cfg i label = some b') :
    Beat.Moves cfg i b b' label := by
  by_cases hticks : label.ticks i = true
  · obtain rfl := Label.ticks_eq hticks
    exact Beat.tick_moves h
  · by_cases hpong : label.readsPong i = true
    · obtain ⟨ts, rfl⟩ := Label.readsPong_eq hpong
      exact Beat.pong_moves h
    · by_cases hstarts : label.startsTicker i = true
      · obtain rfl := Label.startsTicker_eq hstarts
        exact Beat.start_moves h
      · obtain ⟨relay, hrelay, hb⟩ := Option.bind_eq_some_iff.mp h
        rw [if_neg hticks, if_neg hpong, if_neg hstarts] at hb
        have hticks' := Bool.eq_false_iff.mpr hticks
        have hpong' := Bool.eq_false_iff.mpr hpong
        have hsame := (step_pulse hrelay i).same_of_not hticks' hpong'
        split at hb
        case isTrue hwritten =>
          obtain ⟨io, rfl⟩ := Label.writes_eq (Bool.and_eq_true_iff.mp hwritten).1
          cases hb
          exact .pinged hsame rfl rfl
        case isFalse =>
          cases hb
          exact .other hticks' hpong' hsame rfl rfl

/-! ## The invariant -/

theorem Beat.paced_init (crates : Crates) (cfg : RelayConfig) (i : ℕ) :
    (beats crates cfg i).init.Paced cfg i := by
  constructor <;> simp [beats, State.init, Conn.fresh]

theorem Conn.tick_of_few {c : Conn} (clientId : String) (h : c.missedPongs < 3) :
    (c.tick clientId).missedPongs = c.missedPongs + 1 ∧
      (c.tick clientId).part = 1 ∧ (c.tick clientId).result = c.result := by
  have hnot : ¬3 ≤ c.missedPongs := Nat.not_le.mpr h
  rw [Conn.tick, if_neg hnot]
  exact ⟨rfl, rfl, rfl⟩

theorem Conn.tick_of_many {c : Conn} (clientId : String) (h : 3 ≤ c.missedPongs) :
    (c.tick clientId).missedPongs = c.missedPongs ∧ (c.tick clientId).part = 2 ∧
      (c.tick clientId).result = some .heartbeatLost := by
  rw [Conn.tick, if_pos h]
  exact ⟨rfl, rfl, rfl⟩

/-- Sending a Ping changes neither how many there are nor when they were due. -/
theorem Beat.Paced.kept (hb : b.Paced cfg i)
    (hsame : (b.relay.conns i).SamePulse (b'.relay.conns i))
    (hpart : (b.relay.conns i).part ≤ (b'.relay.conns i).part) (hdue : b'.due = b.due)
    (hpings : b'.pings = b.pings ∨ b'.pings = sendPing b.relay.now b.pings) :
    b'.Paced cfg i := by
  have hlength : b'.pings.length = b.pings.length := by
    obtain heq | heq := hpings <;> simp [heq]
  have hspaced : ∀ due, Spaced cfg.period due b.pings →
      Spaced cfg.period due b'.pings := by
    obtain heq | heq := hpings
    · simp [heq]
    · simp [heq, spaced_sendPing]
  constructor
  · rw [hsame.missedPongs, hlength, hb.count]
  · exact hlength ▸ hb.few
  · intro hsome
    exact Nat.le_trans (hb.started (hdue ▸ hsome)) hpart
  · intro hnone
    rw [← List.length_eq_zero_iff, hlength, hb.waiting (hdue ▸ hnone)]
    rfl
  · intro due hsome hloop
    have hstarted : 1 ≤ (b.relay.conns i).part :=
      hb.started (by rw [← hdue, hsome]; rfl)
    apply hspaced
    exact hb.spaced due (hdue ▸ hsome) (by omega)

theorem Beat.Paced.step (hb : b.Paced cfg i) (h : b.step crates cfg i label = some b') :
    b'.Paced cfg i := by
  have hpart := part_le (Beat.step_relay h) i
  cases Beat.step_moves h with
  | @tick clientId due hdue hle hphase hconn hdue' hpings =>
      have hone : (b.relay.conns i).part = 1 := Conn.part_eq hphase
      have hspaced := hb.spaced due hdue hone
      have hstarted : 1 ≤ (b'.relay.conns i).part := hone ▸ hpart
      by_cases hfew : (b.relay.conns i).missedPongs < 3
      · obtain ⟨hcount, -, -⟩ := Conn.tick_of_few clientId hfew
        rw [if_pos hfew] at hpings
        have hlength := hb.count
        refine ⟨?_, ?_, fun _ => hstarted, ?_, ?_⟩
        · rw [hconn, hcount, hpings, hlength, List.length_cons]
        · rw [hpings, List.length_cons]
          omega
        · simp [hdue']
        · intro due' hnext _
          obtain rfl : due + cfg.period = due' := by simpa [hdue'] using hnext
          rw [hpings]
          exact ⟨rfl, hspaced⟩
      · obtain ⟨hcount, htwo, -⟩ := Conn.tick_of_many clientId (Nat.not_lt.mp hfew)
        rw [if_neg hfew] at hpings
        refine ⟨?_, hpings ▸ hb.few, fun _ => hstarted, ?_, ?_⟩
        · rw [hconn, hcount, hpings, hb.count]
        · simp [hdue']
        · intro due' _ hloop
          rw [hconn, htwo] at hloop
          cases hloop
  | pong hconn hdue hpings =>
      refine ⟨?_, ?_, ?_, fun _ => hpings, ?_⟩
      · rw [hconn, hpings]
        rfl
      · simp [hpings]
      · intro hsome
        exact Nat.le_trans (hb.started (hdue ▸ hsome)) hpart
      · intro due _ _
        rw [hpings]
        trivial
  | pinged hsame hdue hpings => exact hb.kept hsame hpart hdue (Or.inr hpings)
  | start hbefore hafter hsame hdue hpings =>
      have hnone : b.due = none := by
        by_contra hsome
        have := hb.started (Option.isSome_iff_ne_none.mpr hsome)
        omega
      have hnil := hb.waiting hnone
      refine ⟨?_, hpings ▸ hb.few, fun _ => hafter ▸ Nat.le_refl 1, ?_, ?_⟩
      · rw [hsame.missedPongs, hpings, hb.count]
      · simp [hdue]
      · intro due _ _
        rw [hpings, hnil]
        trivial
  | other _ _ hsame hdue hpings => exact hb.kept hsame hpart hdue (Or.inl hpings)

theorem paced_of_reachable (h : (beats crates cfg i).Reachable b) : b.Paced cfg i := by
  apply h.invariant
  · exact Beat.paced_init crates cfg i
  · intro s label s' _ hs hstep
    exact hs.step hstep

/-! ## The verdict -/

/-- Only a tick that finds three unanswered Pings gives up. -/
theorem tick_of_givesUp (h : b.step crates cfg i label = some b')
    (hgives : GivesUp i b b') :
    label = .conn i .tick ∧ 3 ≤ (b.relay.conns i).missedPongs ∧
      (b.relay.conns i).part = 1 ∧ ∃ due, b.due = some due ∧ due ≤ b.relay.now := by
  obtain ⟨hbefore, hafter⟩ := hgives
  cases Beat.step_moves h with
  | @tick clientId due hdue hle hphase hconn =>
      refine ⟨rfl, ?_, Conn.part_eq hphase, due, hdue, hle⟩
      by_contra hfew
      obtain ⟨-, -, hresult⟩ := Conn.tick_of_few clientId (Nat.not_le.mp hfew)
      rw [hconn, hresult] at hafter
      exact hbefore hafter
  | pong hconn =>
      rw [hconn] at hafter
      exact absurd hafter hbefore
  | pinged hsame => exact absurd (hsame.result hafter) hbefore
  | start _ _ hsame => exact absurd (hsame.result hafter) hbefore
  | other _ _ hsame => exact absurd (hsame.result hafter) hbefore

/-- The unanswered Pings were sent a period or more apart, the last of them no later
than now. -/
structure Beat.Apart (cfg : RelayConfig) (b : Beat) : Prop where
  chain : b.pings.IsChain fun newer older => older.sent + cfg.period ≤ newer.sent
  latest : ∀ last ∈ b.pings.head?, last.sent ≤ b.relay.now

/-- What happens to the Pings in a step other than a tick that sends one. -/
theorem Beat.Apart.kept (hb : b.Apart cfg) (hnow : b.relay.now ≤ b'.relay.now)
    (hpings : b'.pings = b.pings ∨ b'.pings = [] ∨
      b'.pings = sendPing b.relay.now b.pings) : b'.Apart cfg := by
  obtain ⟨hchain, hlatest⟩ := hb
  obtain heq | heq | heq := hpings
  · exact ⟨heq ▸ hchain, fun last hlast => (hlatest last (heq ▸ hlast)).trans hnow⟩
  · exact ⟨heq ▸ .nil, by simp [heq]⟩
  · cases hlist : b.pings with
    | nil => exact ⟨by simp [heq, hlist, sendPing], by simp [heq, hlist, sendPing]⟩
    | cons ping pings =>
        have hping : ping.sent ≤ b.relay.now := hlatest ping (by simp [hlist])
        rw [hlist, sendPing, List.modifyHead_cons] at heq
        rw [hlist] at hchain
        refine ⟨heq ▸ ?_, ?_⟩
        · cases pings with
          | nil => exact .singleton _
          | cons older pings =>
              obtain ⟨hgap, hrest⟩ := List.isChain_cons_cons.mp hchain
              exact List.isChain_cons_cons.mpr ⟨hgap.trans hping, hrest⟩
        · intro last hlast
          obtain rfl : { ping with sent := b.relay.now } = last := by
            simpa [heq] using hlast
          exact hnow

theorem Beat.Apart.step (hb : b.Apart cfg) (hcond : TicksApart cfg i b label)
    (h : b.step crates cfg i label = some b') : b'.Apart cfg := by
  have hnow := now_le (Beat.step_relay h)
  cases Beat.step_moves h with
  | @tick clientId due _ _ _ _ _ hpings =>
      by_cases hfew : (b.relay.conns i).missedPongs < 3
      · rw [if_pos hfew] at hpings
        have hrested : b.rested cfg = true := hcond (by simp [Label.ticks])
        refine ⟨hpings ▸ ?_, ?_⟩
        · cases hlist : b.pings with
          | nil => exact .singleton _
          | cons last pings =>
              have hgap : last.sent + cfg.period ≤ b.relay.now := by
                simpa [Beat.rested, hlist] using hrested
              exact List.isChain_cons_cons.mpr ⟨hgap, hlist ▸ hb.chain⟩
        · intro last hlast
          obtain rfl : (⟨due, b.relay.now⟩ : Ping) = last := by
            simpa [hpings] using hlast
          exact hnow
      · rw [if_neg hfew] at hpings
        exact hb.kept hnow (Or.inl hpings)
  | pong _ _ hpings => exact hb.kept hnow (Or.inr (Or.inl hpings))
  | pinged _ _ hpings => exact hb.kept hnow (Or.inr (Or.inr hpings))
  | start _ _ _ _ hpings => exact hb.kept hnow (Or.inl hpings)
  | other _ _ _ _ hpings => exact hb.kept hnow (Or.inl hpings)

/-- A session is given up over three Pings that have waited long enough, since each of
them and the verdict came a period after the one before. -/
theorem overdue_of_givesUp (hb : b.Paced cfg i) (hapart : b.Apart cfg)
    (hcond : TicksApart cfg i b label) (h : b.step crates cfg i label = some b')
    (hgives : GivesUp i b b') : label = .conn i .tick ∧ Overdue cfg b := by
  obtain ⟨rfl, hmany, hloop, due, hdue, -⟩ := tick_of_givesUp h hgives
  obtain ⟨third, second, first, hpings⟩ : ∃ third second first,
      b.pings = [third, second, first] := by
    apply List.length_eq_three.mp
    have hcount := hb.count
    have hfew := hb.few
    omega
  have hspaced := hb.spaced due hdue hloop
  rw [hpings] at hspaced
  obtain ⟨-, hsecond, hfirst, -⟩ := hspaced
  have hchain := hapart.chain
  rw [hpings] at hchain
  obtain ⟨hgap, hrest⟩ := List.isChain_cons_cons.mp hchain
  obtain ⟨hgap', -⟩ := List.isChain_cons_cons.mp hrest
  have hlast : third.sent + cfg.period ≤ b.relay.now := by
    have hrested : b.rested cfg = true := hcond (by simp [Label.ticks])
    simpa [Beat.rested, hpings] using hrested
  exact ⟨rfl, first, second, third, hpings, hfirst.symm, hsecond.symm, by omega⟩

/-! ## Silence -/

theorem ticksTaken_cons (b : Beat) (label : Label) (history : List (Beat × Label)) :
    ticksTaken i ((b, label) :: history) =
      ticksTaken i history + (if label.ticks i then 1 else 0) := by
  rw [ticksTaken, List.countP_cons]
  rfl

/-- The count after `n` Pings and `k` further ticks, unless one of these ended the
loop. -/
def Beat.Unanswered (i n k : ℕ) (b : Beat) : Prop :=
  (b.relay.conns i).missedPongs = n + k ∨ ((b.relay.conns i).part = 2 ∧ k ≤ 3)

theorem Beat.Unanswered.still {n k : ℕ} (h : b.Unanswered i n k)
    (hsame : (b.relay.conns i).SamePulse (b'.relay.conns i))
    (hpart : (b.relay.conns i).part ≤ (b'.relay.conns i).part) :
    b'.Unanswered i n k := by
  obtain hadded | ⟨hended, hthree⟩ := h
  · exact Or.inl (hsame.missedPongs.trans hadded)
  · have hmost := (b'.relay.conns i).part_le_two
    exact Or.inr ⟨by omega, hthree⟩

/-- While no Pong is read every tick adds to the count, until one finds it full. -/
theorem silence {later earlier : List (Beat × Label)} {first : Beat}
    (h : (beats crates cfg i).Run (later ++ (first, .conn i .tick) :: earlier) b)
    (hfew : (first.relay.conns i).missedPongs < 3) (hsilent : Silent i later) :
    b.Unanswered i ((first.relay.conns i).missedPongs + 1) (ticksTaken i later) := by
  induction later generalizing b with
  | nil =>
      cases h with
      | snoc _ hstep =>
          cases Beat.step_moves hstep with
          | @tick clientId _ _ _ _ hconn =>
              obtain ⟨hcount, -, -⟩ := Conn.tick_of_few clientId hfew
              left
              rw [hconn, hcount]
              rfl
          | other hnot => simp [Label.ticks] at hnot
  | cons entry later ih =>
      obtain ⟨before, label⟩ := entry
      cases h with
      | snoc hrun hstep =>
          have hbefore := ih hrun fun entry hentry =>
            hsilent entry (List.mem_cons_of_mem _ hentry)
          have hcount := (paced_of_reachable hrun.reachable).count
          have hmax := (paced_of_reachable hrun.reachable).few
          have hpart := part_le (Beat.step_relay hstep) i
          rw [ticksTaken_cons]
          cases Beat.step_moves hstep with
          | @tick clientId _ _ _ hphase hconn =>
              have hone : (before.relay.conns i).part = 1 := Conn.part_eq hphase
              have hticks :
                  (if Label.ticks i (.conn i .tick) = true then 1 else 0) = 1 := by
                simp [Label.ticks]
              rw [hticks]
              obtain hadded | ⟨hended, -⟩ := hbefore
              · by_cases hfull : (before.relay.conns i).missedPongs < 3
                · obtain ⟨hnext, -, -⟩ := Conn.tick_of_few clientId hfull
                  left
                  rw [hconn, hnext]
                  omega
                · obtain ⟨-, htwo, -⟩ :=
                    Conn.tick_of_many clientId (Nat.not_lt.mp hfull)
                  right
                  rw [hconn]
                  exact ⟨htwo, by omega⟩
              · omega
          | @pong ts =>
              have hread := hsilent _ List.mem_cons_self
              simp [Label.readsPong] at hread
          | pinged hsame => exact hbefore.still hsame hpart
          | start _ _ hsame => exact hbefore.still hsame hpart
          | other hnot _ hsame =>
              rw [hnot]
              exact hbefore.still hsame hpart

end Steps

/-- In every run in which no tick comes within a period of the last unanswered Ping, a
session that is given up has not answered three Pings, the first sent three periods ago
or more.  In every run, a session that falls silent after a Ping is ended by the third
tick after it. -/
theorem heartbeat_verdicts (crates : Crates) (cfg : RelayConfig) (i : ℕ)
    (history : List (Beat × Label)) (b : Beat)
    (hrun : (beats crates cfg i).Run history b) :
    (System.Always (TicksApart cfg i) history →
      ∀ entry ∈ history, ∀ b', entry.1.step crates cfg i entry.2 = some b' →
        GivesUp i entry.1 b' → entry.2 = .conn i .tick ∧ Overdue cfg entry.1) ∧
    ∀ later first earlier, history = later ++ (first, .conn i .tick) :: earlier →
      (first.relay.conns i).missedPongs < 3 → Silent i later →
      ticksTaken i later ≤ 3 ∧
        (ticksTaken i later = 3 → (b.relay.conns i).part = 2) := by
  constructor
  · intro hcond
    have hpaced : System.Always (fun b _ => Beat.Paced cfg i b) history :=
      hrun.forall_steps fun s _ _ hs _ => paced_of_reachable hs
    have hinit : (beats crates cfg i).init.Apart cfg := ⟨.nil, by simp [beats]⟩
    have hapart : System.Always (fun b _ => b.Apart cfg) history :=
      hrun.forall_of_always hcond hinit
        (fun _ _ _ _ hb hcond hstep => hb.step hcond hstep) fun _ _ hb _ => hb
    intro entry hentry b' hstep hgives
    exact overdue_of_givesUp (hpaced entry hentry) (hapart entry hentry)
      (hcond entry hentry) hstep hgives
  · rintro later first earlier rfl hfew hsilent
    have hmax := (paced_of_reachable hrun.reachable).few
    have hcount := (paced_of_reachable hrun.reachable).count
    obtain hadded | ⟨hended, hthree⟩ := silence hrun hfew hsilent
    · omega
    · exact ⟨hthree, fun _ => hended⟩

/-! ## Ticks on time and ticks in a burst -/

/-- Steps of the relay that do not concern the heartbeat of session `i`. -/
theorem exec_beats {i : ℕ} {b : Beat} {labels : List Label} {next : State}
    (hlabels : ∀ label ∈ labels, label.ticks i = false ∧ label.readsPong i = false ∧
      label.startsTicker i = false ∧ label.writes i = false)
    (h : (Relay.relay crates cfg).exec b.relay labels = some next) :
    (beats crates cfg i).exec b labels = some { b with relay := next } := by
  induction labels generalizing b with
  | nil =>
      obtain rfl : b.relay = next := by simpa [System.exec] using h
      rfl
  | cons label labels ih =>
      obtain ⟨hticks, hpong, hstarts, hwrites⟩ := hlabels label List.mem_cons_self
      rw [System.exec, Option.bind_eq_some_iff] at h
      obtain ⟨mid, hmid, hrest⟩ := h
      have hstep :
          (beats crates cfg i).step b label = some { b with relay := mid } := by
        have hmid : b.relay.step crates cfg label = some mid := hmid
        simp [beats, Beat.step, hmid, hticks, hpong, hstarts, hwrites]
      apply System.exec_cons hstep
      exact ih (fun label hlabel => hlabels label (List.mem_cons_of_mem _ hlabel)) hrest

/-- The control connection of `mac` after the handshake. -/
def beatLogin : Beat where
  relay := State.init.setConn 0
    (Conn.loggedIn Sha256.hmac (.control "mac") "mac-0123456789abcdef"
      (Vector.replicate 32 0))
  due := none
  pings := []

theorem beatLogin_exec :
    (beats sampleCrates sampleConfig 0).exec (beats sampleCrates sampleConfig 0).init
      (login Sha256.hmac 0 (.control "mac") "mac-0123456789abcdef"
        (Vector.replicate 32 0)) = some beatLogin :=
  exec_beats (by
      simp [login, Label.ticks, Label.readsPong, Label.startsTicker, Label.writes])
    (exec_login _ rfl (by decide +kernel))

/-- A tick and the Ping that it sends. -/
def ping : List Label := [.conn 0 .tick, .conn 0 (.written true)]

/-- A client that answers its first Ping and none of the next three is given up three
periods after the first of these. -/
theorem heartbeat_verdicts_sample : ∃ history b b',
    (beats sampleCrates sampleConfig 0).Run ((b, .conn 0 .tick) :: history) b' ∧
      GivesUp 0 b b' ∧ b.relay.now = 60000 ∧ Overdue sampleConfig b := by
  have hexec :
      (((beats sampleCrates sampleConfig 0).restrict (TicksApart sampleConfig 0)).exec
        beatLogin ([.kick 0, .register 0] ++ ping ++
          [.conn 0 (.read (some (.pong 1))), .advance 15000] ++ ping ++
          [.advance 15000] ++ ping ++ [.advance 15000] ++ ping ++
          [.advance 15000])).any (fun b =>
          decide ((b.relay.conns 0).result = none ∧ b.relay.now = 60000 ∧
            TicksApart sampleConfig 0 b (.conn 0 .tick)) &&
          (b.step sampleCrates sampleConfig 0 (.conn 0 .tick)).any fun b' =>
            decide ((b'.relay.conns 0).result = some .heartbeatLost)) = true := by
    decide +kernel
  obtain ⟨b, hb, hcheck⟩ := (Option.any_eq_true _ _).mp hexec
  obtain ⟨hbefore, hafter⟩ := Bool.and_eq_true_iff.mp hcheck
  obtain ⟨hresult, hnow, hapart⟩ := of_decide_eq_true hbefore
  obtain ⟨b', hstep, hlost⟩ := (Option.any_eq_true _ _).mp hafter
  have hgives : GivesUp 0 b b' := ⟨by simp [hresult], of_decide_eq_true hlost⟩
  obtain ⟨first, hfirst, hlogin⟩ := System.Run.start.always_of_exec
    (System.Always.nil : System.Always (TicksApart sampleConfig 0) []) beatLogin_exec (by
      intro label hlabel b hticks
      have hnot : label.ticks 0 = false := by
        revert label
        simp [login, Label.ticks]
      rw [hnot] at hticks
      cases hticks)
  obtain ⟨steps, hrun, hall, -⟩ := hfirst.exec_restrict hlogin hb
  have hrun' : (beats sampleCrates sampleConfig 0).Run
      ((b, .conn 0 .tick) :: (steps ++ first)) b' :=
    hrun.snoc hstep
  have hverdicts := heartbeat_verdicts sampleCrates sampleConfig 0 _ b' hrun'
  exact ⟨_, b, b', hrun', hgives, hnow,
    (hverdicts.1 (System.always_cons.mpr ⟨hapart, hall⟩) _ List.mem_cons_self b' hstep
      hgives).2⟩

/-- The bind takes a minute; then four ticks come at once and the last gives up a client
that had no time to answer. -/
theorem given_up_in_a_burst : ∃ history b b',
    (beats sampleCrates sampleConfig 0).Run ((b, .conn 0 .tick) :: history) b' ∧
      GivesUp 0 b b' ∧ b.relay.now = 60000 ∧ (∀ p ∈ b.pings, p.sent = 60000) ∧
      ¬Overdue sampleConfig b := by
  have hexec : ((beats sampleCrates sampleConfig 0).exec beatLogin
      ([.kick 0, .register 0] ++ ping ++ [.conn 0 (.read (some (.pong 1))),
        .conn 0 (.read (some (.bind "share" 8080))), .advance 60000, .bound 0 true,
        .conn 0 (.written true)] ++ ping ++ ping ++ ping)).any (fun b =>
          decide ((b.relay.conns 0).result = none ∧ b.relay.now = 60000 ∧
            (∀ p ∈ b.pings, p.sent = 60000)) &&
          (b.step sampleCrates sampleConfig 0 (.conn 0 .tick)).any fun b' =>
            decide ((b'.relay.conns 0).result = some .heartbeatLost)) = true := by
    decide +kernel
  obtain ⟨b, hb, hcheck⟩ := (Option.any_eq_true _ _).mp hexec
  obtain ⟨hbefore, hafter⟩ := Bool.and_eq_true_iff.mp hcheck
  obtain ⟨hresult, hnow, hsent⟩ := of_decide_eq_true hbefore
  obtain ⟨b', hstep, hlost⟩ := (Option.any_eq_true _ _).mp hafter
  obtain ⟨first, hfirst, -⟩ := System.Run.start.of_exec beatLogin_exec
  obtain ⟨second, hrun, -⟩ := hfirst.of_exec hb
  refine ⟨_, b, b', hrun.snoc hstep, ⟨by simp [hresult], of_decide_eq_true hlost⟩, hnow,
    hsent, ?_⟩
  rintro ⟨first, second, third, hpings, -, -, hlong⟩
  have hperiod : sampleConfig.period = 15000 := by decide
  have hfirst := hsent first (by simp [hpings])
  omega

end Yunpan.Relay
