import Yunpan.Relay.Registry
import Yunpan.Relay.Teardown

/-!
# One live session after another

A session is live for its client while its loop runs or one of its listeners has
not ended: for so long it may hold a port of the client.  `kick_previous` lets a
new session go ahead when the old one is done, has returned, or five seconds are
over; only the first of these says that the old session is no longer live.
-/

namespace Yunpan.Relay

open Yunpan.Protocol
open Yunpan.Transition

variable {crates : Crates} {cfg : RelayConfig} {s s' : State}

/-- Session `i` may still hold or open a port of the client. -/
def State.Live (s : State) (clientId : String) (i : ℕ) : Prop :=
  (s.conns i).Running clientId ∨
    ∃ l ∈ (s.conns i).listeners, l.clientId = clientId ∧ l.state ≠ .ended

/-- At most one session of the client is live. -/
def State.Exclusive (s : State) (clientId : String) : Prop :=
  ∀ i j, s.Live clientId i → s.Live clientId j → i = j

/-- A session of the client enters its loop only when no other session of the client
is live. -/
def TakesOver (clientId : String) (s : State) : Label → Prop
  | .register i => (s.conns i).phase = .control clientId .register →
      ∀ j, j ≠ i → ¬s.Live clientId j
  | _ => True

theorem ControlStep.looping {label : Label} {i : ℕ} {phase phase' : ControlPhase}
    (h : ControlStep crates s label i phase phase') (hlooping : phase'.looping = true) :
    phase.looping = true ∨ label = .register i ∧ phase = .register := by
  cases h with
  | same => exact Or.inl hlooping
  | own _ hmove =>
      cases hmove with
      | loop hold => exact Or.inl hold
      | _ => cases hlooping
  | register hlabel => exact Or.inr ⟨hlabel, rfl⟩
  | event => exact Or.inl rfl
  | bound => exact Or.inl rfl
  | _ => cases hlooping

/-- The phase of a control session comes from a phase of the same session, or the
session has just begun. -/
theorem control_before {label : Label} (h : s.step crates cfg label = some s') {i : ℕ}
    {clientId : String} {phase' : ControlPhase}
    (hphase : (s'.conns i).phase = .control clientId phase') (hkick : phase' ≠ .kick) :
    ∃ phase, (s.conns i).phase = .control clientId phase ∧
      ControlStep crates s label i phase phase' := by
  by_cases hcontrol : ∃ owner phase, (s.conns i).phase = .control owner phase
  · obtain ⟨owner, phase, hold⟩ := hcontrol
    obtain ⟨next, hstep⟩ := step_session h hold
    have heq := hphase.symm.trans hstep.phase_eq
    cases heq
    exact ⟨phase, hold, hstep.moves⟩
  · have hbegins := (step_stride h i).begins fun owner phase hold =>
      hcontrol ⟨owner, phase, hold⟩
    exact absurd (hbegins.2 _ _ hphase) hkick

theorem running_before {label : Label} (h : s.step crates cfg label = some s') {i : ℕ}
    {clientId : String} (hrunning : (s'.conns i).Running clientId) :
    (s.conns i).Running clientId ∨
      label = .register i ∧ (s.conns i).phase = .control clientId .register := by
  obtain ⟨phase', hphase, hlooping⟩ := hrunning
  obtain ⟨phase, hold, hmove⟩ := control_before h hphase (by rintro rfl; cases hlooping)
  obtain hrun | ⟨hlabel, rfl⟩ := hmove.looping hlooping
  · exact Or.inl ⟨phase, hold, hrun⟩
  · exact Or.inr ⟨hlabel, hold⟩

theorem Listener.Move.clientId {label : Label} {i n : ℕ} {l l' : Listener}
    (h : Listener.Move s s' label i n l l') : l'.clientId = l.clientId := by
  cases h <;> rfl

/-- A listener that has not ended had not ended before, or its session was in the
loop and opened it. -/
theorem listener_before (hattended : s.Attended) {label : Label}
    (h : s.step crates cfg label = some s') {i : ℕ} {l : Listener}
    (hl : l ∈ (s'.conns i).listeners) (hstate : l.state ≠ .ended) :
    s.Live l.clientId i := by
  obtain ⟨n, hn⟩ := List.getElem?_of_mem hl
  have hkept : ∀ l₀, (s.conns i).listeners[n]? = some l₀ → s.Live l.clientId i := by
    intro l₀ hl₀
    obtain ⟨l', hl', hmove⟩ := step_listener hattended h hl₀
    obtain rfl : l = l' := Option.some.inj (hn.symm.trans hl')
    exact Or.inr ⟨l₀, List.mem_of_getElem? hl₀, hmove.clientId.symm,
      fun hended => hstate (hmove.ended hended)⟩
  cases hold : (s.conns i).listeners[n]? with
  | some l₀ => exact hkept l₀ hold
  | none =>
      obtain hsame | ⟨osOk, clientId, name, port, -, hphase, -, hnew⟩ :=
        (step_flow h i).ports
      · have hlength := congrArg List.length hsame
        have hlt := (List.getElem?_eq_some_iff.mp hn).1
        have hge := List.getElem?_eq_none_iff.mp hold
        simp only [List.length_map] at hlength
        omega
      · have hge := List.getElem?_eq_none_iff.mp hold
        rw [hnew, List.getElem?_append_right hge] at hn
        obtain rfl := List.mem_singleton.mp (List.mem_of_getElem? hn)
        exact Or.inl ⟨_, hphase, rfl⟩

theorem live_before (hattended : s.Attended) {label : Label}
    (h : s.step crates cfg label = some s') {clientId : String} {i : ℕ}
    (hlive : s'.Live clientId i) :
    s.Live clientId i ∨
      label = .register i ∧ (s.conns i).phase = .control clientId .register := by
  obtain hrunning | ⟨l, hl, rfl, hstate⟩ := hlive
  · exact (running_before h hrunning).imp_left Or.inl
  · exact Or.inl (listener_before hattended h hl hstate)

theorem exclusive_init (clientId : String) : State.init.Exclusive clientId := by
  rintro i j (⟨phase, hphase, -⟩ | ⟨l, hl, -⟩)
  · cases hphase
  · cases hl

theorem State.Exclusive.step {clientId : String} (hs : s.Exclusive clientId)
    (hattended : s.Attended) {label : Label} (hcond : TakesOver clientId s label)
    (h : s.step crates cfg label = some s') : s'.Exclusive clientId := by
  intro i j hi hj
  obtain hi | ⟨hlabel, hphase⟩ := live_before hattended h hi
  · obtain hj | ⟨rfl, hphase⟩ := live_before hattended h hj
    · exact hs i j hi hj
    · by_contra hne
      exact hcond hphase i hne hi
  · subst hlabel
    obtain hj | ⟨heq, -⟩ := live_before hattended h hj
    · by_contra hne
      exact hcond hphase j (Ne.symm hne) hj
    · cases heq
      rfl

/-! ## The one client that uses a port -/

/-- Every listener of the port was opened for the client. -/
def State.Reserved (s : State) (clientId : String) (port : UInt16) : Prop :=
  ∀ i, ∀ l ∈ (s.conns i).listeners, l.port = port → l.clientId = clientId

theorem reserved_init (clientId : String) (port : UInt16) :
    State.init.Reserved clientId port := by
  simp [State.Reserved, State.init, Conn.fresh]

theorem State.Reserved.step {clientId : String} {port : UInt16}
    (hs : s.Reserved clientId port) {label : Label}
    (h : s.step crates cfg label = some s')
    (halone : ∀ i osOk id name, label = .bound i osOk →
      (s.conns i).phase = .control id (.bind name port) →
      cfg.allowed id port = true → id = clientId) : s'.Reserved clientId port := by
  rintro i l hl rfl
  obtain ⟨l', hl', heq⟩ | ⟨⟨osOk, hlabel⟩, hphase, hallowed⟩ :=
    (step_flow h i).listener_old hl
  · simp only [Listener.opened, Prod.mk.injEq] at heq
    exact heq.1 ▸ hs i l' hl' heq.2.2
  · exact halone i osOk l.clientId l.name hlabel hphase hallowed

/-- Whoever holds a port that one client uses is live for this client. -/
theorem State.Reserved.live {clientId : String} {port : UInt16}
    (hs : s.Reserved clientId port) (hheld : s.Held) {i : ℕ}
    (hport : s.ports port = some i) :
    ∃ l ∈ (s.conns i).listeners, l.clientId = clientId ∧ l.state ≠ .ended := by
  obtain ⟨l, hl, hlport, hstate⟩ := hheld.port hport
  exact ⟨l, hl, hs i l hl hlport, hstate⟩

/-! ## What a session is asked for and what it writes -/

/-- Of its own accord a session writes no refusal, and it turns to a port only when
it reads a request. -/
theorem act_writes {c c' : Conn} {action : Action} {clientId : String}
    {phase : ControlPhase} (hphase : c.phase = .control clientId phase)
    (h : c.act crates cfg action = some c') :
    (∀ msg writing, c'.phase = .control clientId (.write msg writing) →
      msg.refuses = false) ∧
    ∀ name port, c'.phase = .control clientId (.bind name port) →
      phase = .select ∧ action = .read (some (.bind name port)) := by
  cases act_cases hphase h with
  | replaced => simp +contextual [ServerMsg.refuses, eq_comm]
  | ping => simp +contextual [ServerMsg.refuses, eq_comm]
  | routed => simp +contextual [ServerMsg.refuses, eq_comm]
  | asked => simp +contextual
  | pong => simp [hphase]
  | ignored => simp [hphase]
  | _ => simp

/-- The event channel holds notices only. -/
def State.Benign (s : State) : Prop :=
  ∀ i, ∀ msg ∈ (s.conns i).queue, msg.refuses = false

theorem benign_of_reachable (h : (relay crates cfg).Reachable s) : s.Benign := by
  have hinit : State.init.Benign := by simp [State.Benign, State.init, Conn.fresh]
  refine h.invariant hinit fun s label s' _ hs hstep i msg hmsg => ?_
  obtain hold | ⟨v, x, target, k, -, -, -, -, rfl⟩ := (step_flow hstep i).queue_old hmsg
  · exact hs i msg hold
  · rfl

/-- What a session comes to write or to open after a step of any task. -/
theorem step_writes {label : Label} (h : s.step crates cfg label = some s') {i : ℕ}
    {clientId : String} {msg : ServerMsg} {writing : Writing}
    (hphase : (s'.conns i).phase = .control clientId (.write msg writing)) :
    (s.conns i).phase = .control clientId (.write msg writing) ∨ msg.refuses = false ∨
      label = .event i ∧ msg ∈ (s.conns i).queue ∨
      ∃ osOk name port, label = .bound i osOk ∧
        (s.conns i).phase = .control clientId (.bind name port) := by
  obtain ⟨phase, hold, hmove⟩ := control_before h hphase (by simp)
  cases hmove with
  | same => exact Or.inl hold
  | own hlabel hmove =>
      subst hlabel
      obtain ⟨c, hact, rfl⟩ := conn_cases h
      rw [setConn_conns_self] at hphase
      exact Or.inr (Or.inl ((act_writes hold hact).1 msg writing hphase))
  | event hlabel =>
      subst hlabel
      obtain ⟨owner, msg', queue, -, hqueue, ⟨-, rfl⟩ | ⟨v, waiters, -, rfl⟩⟩ :=
        event_cases h
      all_goals
        obtain ⟨rfl, rfl⟩ : owner = clientId ∧ msg' = msg := by simpa using hphase
        exact Or.inr (Or.inr (Or.inl ⟨rfl, by simp [hqueue]⟩))
  | bound hlabel => exact Or.inr (Or.inr (Or.inr ⟨_, _, _, hlabel, hold⟩))

theorem step_binds {label : Label} (h : s.step crates cfg label = some s') {i : ℕ}
    {clientId name : String} {port : UInt16}
    (hphase : (s'.conns i).phase = .control clientId (.bind name port)) :
    (s.conns i).phase = .control clientId (.bind name port) ∨
      label = .conn i (.read (some (.bind name port))) ∧
        (s.conns i).phase = .control clientId .select := by
  obtain ⟨phase, hold, hmove⟩ := control_before h hphase (by simp)
  cases hmove with
  | same => exact Or.inl hold
  | own hlabel hmove =>
      subst hlabel
      obtain ⟨c, hact, rfl⟩ := conn_cases h
      rw [setConn_conns_self] at hphase
      obtain ⟨rfl, rfl⟩ := (act_writes hold hact).2 name port hphase
      exact Or.inr ⟨rfl, hold⟩

end Yunpan.Relay
