import Yunpan.Relay.Cases

/-!
# How a control session moves

One step of the relay seen from one control session: where it stands in
`run_control`, and whether its shutdown and `done` signals have been sent.
-/

namespace Yunpan.Relay

open Yunpan.Protocol
open Yunpan.Transition

variable {crates : Crates} {cfg : RelayConfig} {s s' : State}

/-! ## One session -/

/-- How a control session moves through `run_control`. -/
inductive ControlStep (crates : Crates) (s : State) (label : Label) (i : ℕ) :
    ControlPhase → ControlPhase → Prop
  | same {phase : ControlPhase} : ControlStep crates s label i phase phase
  | own {action : Action} {phase phase' : ControlPhase} : label = .conn i action →
      ControlMove crates (s.conns i) action phase phase' →
      ControlStep crates s label i phase phase'
  | free : label = .kick i → ControlStep crates s label i .kick .register
  | take {old : ℕ} : label = .kick i → ControlStep crates s label i .kick (.signal old)
  | signal {old : ℕ} : label = .signal i →
      ControlStep crates s label i (.signal old) (.wait old (s.now + kickTimeout))
  | waited {old deadline : ℕ} : label = .waited i →
      ControlStep crates s label i (.wait old deadline) .register
  | register : label = .register i → ControlStep crates s label i .register .select
  | event {msg : ServerMsg} : label = .event i →
      ControlStep crates s label i .select (.write msg .event)
  | bound {name : String} {port : UInt16} {osOk : Bool} {msg : ServerMsg} :
      label = .bound i osOk →
      ControlStep crates s label i (.bind name port) (.write msg .reply)
  | unregister : label = .unregister i →
      ControlStep crates s label i .unregister .finish

/-- What a step does to a control session: its phase, its shutdown signal and its
`done` signal. -/
structure SessionStep (crates : Crates) (s : State) (label : Label) (i : ℕ)
    (clientId : String) (phase phase' : ControlPhase) (c c' : Conn) : Prop where
  phase_eq : c'.phase = .control clientId phase'
  moves : ControlStep crates s label i phase phase'
  shutdown : c.shutdown = true ∨ (phase = .stop ∧ phase' ≠ .stop) → c'.shutdown = true
  done : c'.done = true ↔ c.done = true ∨ (phase = .finish ∧ phase' ≠ .finish)

/-- A step that leaves phase and `done` of a session alone. -/
theorem session_same {label : Label} {i : ℕ} {clientId : String}
    {phase : ControlPhase} {c c' : Conn} (hphase : c.phase = .control clientId phase)
    (hsame : c'.phase = c.phase ∧ (c.shutdown = true → c'.shutdown = true) ∧
      c'.done = c.done) :
    ∃ phase', SessionStep crates s label i clientId phase phase' c c' := by
  obtain ⟨hphase', hshutdown, hdone⟩ := hsame
  refine ⟨phase, hphase'.trans hphase, .same, ?_, by simp [hdone]⟩
  rintro (h | ⟨hstop, hleft⟩)
  · exact hshutdown h
  · exact absurd hstop hleft

/-- A step that moves a session between phases that are neither `stop` nor
`finish`. -/
theorem session_moved {label : Label} {i : ℕ} {clientId : String}
    {phase phase' : ControlPhase} {c c' : Conn}
    (hmove : ControlStep crates s label i phase phase')
    (hphase : phase ≠ .stop ∧ phase ≠ .finish)
    (hnew : c'.phase = .control clientId phase' ∧
      (c.shutdown = true → c'.shutdown = true) ∧ c'.done = c.done) :
    ∃ phase', SessionStep crates s label i clientId phase phase' c c' :=
  ⟨phase', hnew.1, hmove, by simpa [hphase.1] using hnew.2.1, by
    simp [hnew.2.2, hphase.2]⟩

theorem step_session {label : Label} {i : ℕ} {clientId : String}
    {phase : ControlPhase} (h : s.step crates cfg label = some s')
    (hphase : (s.conns i).phase = .control clientId phase) :
    ∃ phase', SessionStep crates s label i clientId phase phase' (s.conns i)
      (s'.conns i) := by
  cases label with
  | advance ms => cases h; exact session_same hphase ⟨rfl, id, rfl⟩
  | sweep => cases h; exact session_same hphase ⟨rfl, id, rfl⟩
  | conn j action =>
      obtain ⟨c, hact, rfl⟩ := conn_cases h
      by_cases hj : i = j
      · subst hj
        obtain ⟨phase', hphase', hmove, -, -, hshutdown, hdone⟩ :=
          act_control hphase hact
        rw [setConn_conns_self]
        refine ⟨phase', hphase', .own rfl hmove, ?_, ?_⟩
        · rintro (h | ⟨hstop, -⟩) <;> simp_all
        · have hleft : phase = .finish → phase' ≠ .finish := by
            rintro rfl rfl
            cases hmove with
            | loop hlooping => cases hlooping
          simp only [hdone, Bool.or_eq_true, decide_eq_true_eq]
          exact or_congr_right ⟨fun heq => ⟨heq, hleft heq⟩, And.left⟩
      · exact session_same hphase (by simp [hj])
  | kick j =>
      obtain ⟨owner, hj, hcases⟩ := kick_cases h
      by_cases hij : i = j
      · subst hij
        rw [hphase] at hj
        cases hj
        obtain ⟨-, rfl⟩ | ⟨old, -, rfl⟩ := hcases
        · exact session_moved (.free rfl) (by simp) (by simp)
        · exact session_moved (.take rfl) (by simp)
            ⟨by simp; rfl, by simp [moveHandle_conns], by simp [moveHandle_conns]⟩
      · obtain ⟨-, rfl⟩ | ⟨old, -, rfl⟩ := hcases
        · exact session_same hphase (by simp [hij])
        · exact session_same hphase (by simp [hij, moveHandle_conns])
  | signal j =>
      obtain ⟨owner, old, hj, rfl⟩ := signal_cases h
      by_cases hij : i = j
      · subst hij
        rw [hphase] at hj
        cases hj
        refine session_moved (.signal rfl) (by simp) ⟨by simp, ?_, ?_⟩
        all_goals
          by_cases hold : i = old
          · subst hold
            simp
          · simp [hold]
      · by_cases hold : i = old
        · subst hold
          exact session_same hphase (by simp [hij])
        · exact session_same hphase (by simp [hij, hold])
  | waited j =>
      obtain ⟨owner, old, deadline, hj, -, rfl⟩ := waited_cases h
      by_cases hij : i = j
      · subst hij
        rw [hphase] at hj
        cases hj
        exact session_moved (.waited rfl) (by simp) (by simp [moveHandle_conns])
      · exact session_same hphase (by simp [hij, moveHandle_conns])
  | register j =>
      obtain ⟨owner, hj, -, rfl⟩ := register_cases h
      by_cases hij : i = j
      · subst hij
        rw [hphase] at hj
        cases hj
        exact session_moved (.register rfl) (by simp) (by simp [moveHandle_conns])
      · exact session_same hphase (by simp [hij, moveHandle_conns])
  | unregister j =>
      obtain ⟨owner, hj, rfl⟩ := unregister_cases h
      by_cases hij : i = j
      · subst hij
        rw [hphase] at hj
        cases hj
        exact session_moved (.unregister rfl) (by simp) (by simp [moveHandle_conns])
      · exact session_same hphase (by simp [hij, moveHandle_conns])
  | event j =>
      obtain ⟨owner, msg, queue, hj, -, hcases⟩ := event_cases h
      by_cases hij : i = j
      · subst hij
        rw [hphase] at hj
        cases hj
        obtain ⟨-, rfl⟩ | ⟨v, waiters, -, rfl⟩ := hcases
        all_goals
          exact session_moved (.event rfl) (by simp) ⟨by simp; rfl, by simp, by simp⟩
      · obtain ⟨-, rfl⟩ | ⟨v, waiters, -, rfl⟩ := hcases
        all_goals exact session_same hphase (by simp [hij])
  | bound j osOk =>
      obtain ⟨owner, name, port, hj, hcases⟩ := bound_cases h
      by_cases hij : i = j
      · subst hij
        rw [hphase] at hj
        cases hj
        obtain ⟨-, -, -, rfl⟩ | ⟨reason, -, rfl⟩ := hcases
        all_goals
          exact session_moved (.bound rfl) (by simp) ⟨by simp; rfl, by simp, by simp⟩
      · obtain ⟨-, -, -, rfl⟩ | ⟨reason, -, rfl⟩ := hcases
        all_goals exact session_same hphase (by simp [hij])
  | arrive j n v peer =>
      obtain ⟨l, -, -, -, rfl⟩ := arrive_cases h
      exact session_same hphase (by simp [setListener_conns])
  | retire j n =>
      obtain ⟨l, -, -, -, rfl⟩ := retire_cases h
      exact session_same hphase (by simp [endListener_conns, setListener_conns])
  | route v peer =>
      obtain ⟨-, -, rfl⟩ := route_cases h
      exact session_same hphase ⟨rfl, id, rfl⟩
  | tls v result =>
      obtain ⟨x, since, -, -, ⟨-, rfl⟩ | ⟨-, rfl⟩⟩ := tls_cases h
      all_goals exact session_same hphase (by simp [release_conns])
  | head v block =>
      obtain ⟨x, since, -, -, ⟨status, -, rfl⟩ | ⟨bytes, seg, session, -, -, rfl⟩⟩ :=
        head_cases h
      all_goals exact session_same hphase ⟨rfl, id, rfl⟩
  | number v =>
      obtain ⟨x, -, -, rfl⟩ := number_cases h
      exact session_same hphase ⟨rfl, id, rfl⟩
  | insert v =>
      obtain ⟨x, k, target, -, -, -, rfl⟩ := insert_cases h
      exact session_same hphase ⟨rfl, id, rfl⟩
  | send v =>
      obtain ⟨x, k, target, -, -, ⟨-, -, rfl⟩ | ⟨-, -, -, rfl⟩ | ⟨-, -, -, rfl⟩⟩ :=
        send_cases h
      all_goals
        refine session_same hphase ?_
        by_cases hij : i = target.session <;> simp [release_conns, hij]
  | resume v =>
      obtain ⟨x, k, target, -, -, -, ⟨-, rfl⟩ | ⟨-, rfl⟩⟩ := resume_cases h
      all_goals
        refine session_same hphase ?_
        by_cases hij : i = target.session <;> simp [release_conns, hij]
  | unwind v =>
      obtain ⟨x, k, -, -, rfl⟩ := unwind_cases h
      exact session_same hphase (by simp [release_conns])
  | splice j =>
      obtain ⟨owner, connId, hj, hcases⟩ := splice_cases h
      have hij : i ≠ j := by
        rintro rfl
        rw [hphase] at hj
        cases hj
      obtain ⟨-, rfl⟩ | ⟨p, -, ⟨-, rfl⟩ | ⟨-, rfl⟩⟩ := hcases
      all_goals exact session_same hphase (by simp [hij])

theorem returned_iff {c : Conn} :
    c.returned = true ↔
      ∃ clientId early, c.phase = .control clientId (.returned early) := by
  unfold Conn.returned
  split
  case h_1 clientId early hphase => simp [hphase]
  case h_2 hother => simpa using hother

/-- `run_control` returns once. -/
theorem returned_kept {label : Label} {i : ℕ} {clientId : String} {early : Bool}
    (h : s.step crates cfg label = some s')
    (hphase : (s.conns i).phase = .control clientId (.returned early)) :
    (s'.conns i).phase = .control clientId (.returned early) := by
  obtain ⟨phase', hstep⟩ := step_session h hphase
  have hsame : phase' = .returned early := by
    cases hstep.moves with
    | same => rfl
    | own _ hmove =>
        cases hmove with
        | loop hlooping => cases hlooping
        | leave hlooping => cases hlooping
        | lost hlost =>
            obtain ⟨_, _, _, ⟨⟩⟩ := write_of_losesReply hlost
  exact hsame ▸ hstep.phase_eq

theorem Conn.returned_mono {label : Label} {i : ℕ}
    (h : s.step crates cfg label = some s') (hret : (s.conns i).returned = true) :
    (s'.conns i).returned = true := by
  obtain ⟨clientId, early, hphase⟩ := returned_iff.mp hret
  exact returned_iff.mpr ⟨clientId, early, returned_kept h hphase⟩

end Yunpan.Relay
