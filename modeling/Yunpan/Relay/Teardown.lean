import Yunpan.Relay.Listeners

/-!
# What a session leaves behind

After its loop `run_control` sends the shutdown signal, waits for its listeners,
removes its registration and sends `done`, in this order.  A reply that cannot be
written leaves `run_control` before all of that.  So a session that has returned
has cleaned up exactly when none of its replies was lost.
-/

namespace Yunpan.Relay

open Yunpan.Protocol
open Yunpan.Transition

variable {crates : Crates} {cfg : RelayConfig} {s s' : State}

/-! ## The order of the teardown -/

/-- The phases in which the shutdown signal of the session has been sent. -/
def ControlPhase.shut : ControlPhase → Bool
  | .join _ => true
  | .unregister => true
  | .finish => true
  | .returned false => true
  | _ => false

/-- How many of its listeners the session has waited for. -/
def ControlPhase.awaited (listeners : ℕ) : ControlPhase → ℕ
  | .join next => next
  | .unregister => listeners
  | .finish => listeners
  | .returned false => listeners
  | _ => 0

/-- What the phase of a session says about its teardown. -/
structure Conn.Orderly (c : Conn) : Prop where
  shutdown : ∀ {clientId phase}, c.phase = .control clientId phase →
    phase.shut = true → c.shutdown = true
  awaited : ∀ {clientId phase}, c.phase = .control clientId phase →
    ∀ n l, n < phase.awaited c.listeners.length → c.listeners[n]? = some l →
      l.state = .ended
  done : c.done = true ↔ ∃ clientId, c.phase = .control clientId (.returned false)

theorem orderly_fresh : Conn.fresh.Orderly := by
  constructor <;> simp [Conn.fresh]

def State.Orderly (s : State) : Prop := ∀ i, (s.conns i).Orderly

/-- A listener that has ended stays so. -/
theorem Listener.Move.ended {label : Label} {i n : ℕ} {l l' : Listener}
    (h : Listener.Move s s' label i n l l') (hended : l.state = .ended) :
    l'.state = .ended := by
  cases h with
  | same => exact hended
  | arrive _ hstate => rw [hended] at hstate; cases hstate
  | retire => rfl
  | free _ hstate => rw [hended] at hstate; cases hstate
  | close => rfl

theorem shut_of_looping {phase : ControlPhase} (h : phase.looping = true) :
    phase.shut = false ∧ ∀ listeners, phase.awaited listeners = 0 := by
  cases phase <;> first | exact ⟨rfl, fun _ => rfl⟩ | cases h

/-- The signal is sent when the session leaves `stop`. -/
theorem ControlStep.shut {label : Label} {i : ℕ} {phase phase' : ControlPhase}
    (h : ControlStep crates s label i phase phase') (hshut : phase'.shut = true) :
    phase.shut = true ∨ (phase = .stop ∧ phase' ≠ .stop) := by
  cases h with
  | same => exact Or.inl hshut
  | own _ hmove =>
      cases hmove with
      | loop _ _ hlooping => rw [(shut_of_looping hlooping).1] at hshut; cases hshut
      | stop => exact Or.inr ⟨rfl, by simp⟩
      | joined => exact Or.inl rfl
      | next => exact Or.inl rfl
      | finish => exact Or.inl rfl
      | leave => cases hshut
      | lost => cases hshut
  | unregister => exact Or.inl rfl
  | _ => cases hshut

/-- The session passes a listener in its wait only when it has ended. -/
theorem ControlStep.awaited {label : Label} {i n : ℕ} {l : Listener}
    {phase phase' : ControlPhase} (h : ControlStep crates s label i phase phase')
    (hl : (s.conns i).listeners[n]? = some l)
    (hn : n < phase'.awaited (s.conns i).listeners.length) :
    n < phase.awaited (s.conns i).listeners.length ∨ l.state = .ended := by
  cases h with
  | same => exact Or.inl hn
  | own _ hmove =>
      cases hmove with
      | loop _ _ hlooping => rw [(shut_of_looping hlooping).2] at hn; cases hn
      | joined hnone =>
          exact Or.inl (lt_of_lt_of_le hn (List.getElem?_eq_none_iff.mp hnone))
      | @next m l' hl' hended =>
          by_cases hm : n = m
          · subst hm
            obtain rfl : l = l' := Option.some.inj (hl.symm.trans hl')
            exact Or.inr hended
          · exact Or.inl (lt_of_le_of_ne (Nat.le_of_lt_succ hn) hm)
      | finish => exact Or.inl hn
      | stop => cases hn
      | leave => cases hn
      | lost => cases hn
  | unregister => exact Or.inl hn
  | _ => cases hn

/-- No port is opened by a session that waits for its listeners. -/
theorem ControlStep.length_kept {label : Label} {i n : ℕ} {clientId : String}
    {phase phase' : ControlPhase} (hmove : ControlStep crates s label i phase phase')
    (hphase : (s.conns i).phase = .control clientId phase)
    (h : s.step crates cfg label = some s')
    (hn : n < phase'.awaited (s'.conns i).listeners.length) :
    (s'.conns i).listeners.length = (s.conns i).listeners.length := by
  obtain hsame | ⟨osOk, owner, name, port, -, hbind, -, -⟩ := (step_flow h i).ports
  · simpa using congrArg List.length hsame
  · rw [hphase] at hbind
    cases hbind
    cases hmove with
    | same => cases hn
    | bound => cases hn
    | own _ hmove =>
        cases hmove with
        | loop _ _ hlooping => rw [(shut_of_looping hlooping).2] at hn; cases hn
        | leave => cases hn
        | lost => cases hn

theorem SessionStep.orderly {label : Label} {i : ℕ} {clientId : String}
    {phase phase' : ControlPhase} (hphase : (s.conns i).phase = .control clientId phase)
    (hs : (s.conns i).Orderly) (hattended : s.Attended)
    (h : s.step crates cfg label = some s')
    (hstep : SessionStep crates s label i clientId phase phase' (s.conns i)
      (s'.conns i)) : (s'.conns i).Orderly := by
  constructor
  · intro owner p hp hshut
    rw [hstep.phase_eq] at hp
    cases hp
    exact hstep.shutdown ((hstep.moves.shut hshut).imp_left (hs.shutdown hphase))
  · intro owner p hp n l' hn hl'
    rw [hstep.phase_eq] at hp
    cases hp
    have hlength := hstep.moves.length_kept hphase h hn
    rw [hlength] at hn
    have hlt : n < (s.conns i).listeners.length :=
      hlength ▸ (List.getElem?_eq_some_iff.mp hl').1
    obtain ⟨l, hl⟩ : ∃ l, (s.conns i).listeners[n]? = some l :=
      ⟨_, List.getElem?_eq_getElem hlt⟩
    have hended : l.state = .ended := by
      rcases hstep.moves.awaited hl hn with hold | hended
      · exact hs.awaited hphase n l hold hl
      · exact hended
    obtain ⟨l'', hl'', hmove⟩ := step_listener hattended h hl
    obtain rfl : l' = l'' := Option.some.inj (hl'.symm.trans hl'')
    exact hmove.ended hended
  · have hfinal : phase = .returned false → phase' = .returned false := by
      rintro rfl
      have := returned_kept h hphase
      rw [hstep.phase_eq] at this
      cases this
      rfl
    have hleft : phase' = .returned false → phase = .returned false ∨
        phase = .finish := by
      rintro rfl
      cases hstep.moves with
      | same => exact Or.inl rfl
      | own _ hmove =>
          cases hmove with
          | loop _ _ hlooping => cases hlooping
          | finish => exact Or.inr rfl
    have hnext : phase = .finish → phase' ≠ .finish → phase' = .returned false := by
      rintro rfl hne
      cases hstep.moves with
      | same => exact absurd rfl hne
      | own _ hmove =>
          cases hmove with
          | loop hlooping => cases hlooping
          | leave hlooping => cases hlooping
          | lost hlost =>
              obtain ⟨_, _, _, ⟨⟩⟩ := write_of_losesReply hlost
          | finish => rfl
    have hdone := hs.done
    simp only [hphase, Phase.control.injEq, exists_eq_left'] at hdone
    simp only [hstep.done, hdone, hstep.phase_eq, Phase.control.injEq, exists_eq_left']
    constructor
    · rintro (hret | ⟨hfinish, hne⟩)
      · exact hfinal hret
      · exact hnext hfinish hne
    · intro hret
      rcases hleft hret with hold | hfinish
      · exact Or.inl hold
      · exact Or.inr ⟨hfinish, by simp [hret]⟩

theorem Conn.Orderly.step {i : ℕ} (hs : (s.conns i).Orderly) (hattended : s.Attended)
    {label : Label} (h : s.step crates cfg label = some s') : (s'.conns i).Orderly := by
  by_cases hcontrol : ∃ clientId phase, (s.conns i).phase = .control clientId phase
  · obtain ⟨clientId, phase, hphase⟩ := hcontrol
    obtain ⟨phase', hstep⟩ := step_session h hphase
    exact hstep.orderly hphase hs hattended h
  -- nothing of a teardown concerns a connection that is no session yet
  have hidle : (s.conns i).done = false := by
    by_contra hdone
    obtain ⟨clientId, hphase⟩ := hs.done.mp (by simpa using hdone)
    exact hcontrol ⟨_, _, hphase⟩
  have hother : ∀ clientId phase, (s.conns i).phase ≠ .control clientId phase :=
    fun clientId phase hphase => hcontrol ⟨clientId, phase, hphase⟩
  obtain ⟨hsame, hnew⟩ := (step_stride h i).begins hother
  have hdone : (s'.conns i).done = false := by
    rw [hsame]
    by_contra hdone
    obtain ⟨clientId, hphase⟩ := hs.done.mp (by simpa using hdone)
    exact hother _ _ hphase
  constructor
  · intro clientId phase hphase hshut
    cases hnew _ _ hphase
    cases hshut
  · intro clientId phase hphase n l hn
    cases hnew _ _ hphase
    cases hn
  · simp only [hdone, Bool.false_eq_true, false_iff, not_exists]
    intro clientId hphase
    cases hnew _ _ hphase

theorem orderly_of_reachable (h : (relay crates cfg).Reachable s) (i : ℕ) :
    (s.conns i).Orderly := by
  have horderly : s.Orderly :=
    h.invariant (fun _ => orderly_fresh) fun _ _ _ hreach hinv hstep i =>
      (hinv i).step (attended_of_reachable hreach) hstep
  exact horderly i

/-! ## What a session holds -/

/-- The session has inserted itself and has not yet come to its removal, or has
returned without it. -/
def ControlPhase.listed : ControlPhase → Bool
  | .kick => false
  | .signal _ => false
  | .wait _ _ => false
  | .register => false
  | .finish => false
  | .returned false => false
  | _ => true

/-- An entry of `sessions` names a session that has inserted itself; a port
belongs to a listener that has not ended. -/
structure State.Held (s : State) : Prop where
  session : ∀ {clientId i}, s.sessions clientId = some i →
    ∃ phase, (s.conns i).phase = .control clientId phase ∧ phase.listed = true
  port : ∀ {port i}, s.ports port = some i →
    ∃ l ∈ (s.conns i).listeners, l.port = port ∧ l.state ≠ .ended

theorem held_init : State.init.Held := by
  constructor <;> simp [State.init]

theorem listed_of_looping {phase : ControlPhase} (h : phase.looping = true) :
    phase.listed = true := by
  cases phase <;> first | rfl | cases h

/-- A session's entry ends only with the removal. -/
theorem ControlStep.listed {label : Label} {i : ℕ} {phase phase' : ControlPhase}
    (h : ControlStep crates s label i phase phase') (hreg : phase.listed = true) :
    phase'.listed = true ∨ label = .unregister i ∧ phase = .unregister := by
  cases h with
  | same => exact Or.inl hreg
  | own _ hmove =>
      cases hmove with
      | loop _ _ hlooping => exact Or.inl (listed_of_looping hlooping)
      | finish => cases hreg
      | _ => exact Or.inl rfl
  | unregister hlabel => exact Or.inr ⟨hlabel, rfl⟩
  | free => cases hreg
  | take => cases hreg
  | signal => cases hreg
  | waited => cases hreg
  | register => cases hreg
  | event => exact Or.inl rfl
  | bound => exact Or.inl rfl

theorem State.Held.step (hs : s.Held) (hattended : s.Attended) {label : Label}
    (h : s.step crates cfg label = some s') : s'.Held := by
  constructor
  · intro clientId i hi
    rcases step_sessions h clientId with hold | hnone | ⟨j, rfl, hphase, hj⟩
    · obtain ⟨phase, hphase, hreg⟩ := hs.session (hold ▸ hi)
      obtain ⟨phase', hstep⟩ := step_session h hphase
      rcases hstep.moves.listed hreg with hreg' | ⟨rfl, rfl⟩
      · exact ⟨phase', hstep.phase_eq, hreg'⟩
      · obtain ⟨owner, howner, rfl⟩ := unregister_cases h
        rw [hphase] at howner
        cases howner
        simp at hi
    · rw [hnone] at hi
      cases hi
    · rw [hj] at hi
      cases hi
      obtain ⟨owner, howner, -, rfl⟩ := register_cases h
      rw [hphase] at howner
      cases howner
      exact ⟨.select, by simp, rfl⟩
  · intro port i hi
    rcases step_ports h port with hold | hnone | ⟨j, osOk, clientId, name, -, hj, -, hl⟩
    · obtain ⟨l, hl, rfl, hlive⟩ := hs.port (hold ▸ hi)
      obtain ⟨n, hn⟩ := List.getElem?_of_mem hl
      obtain ⟨l', hl', hmove⟩ := step_listener hattended h hn
      have hmem := List.mem_of_getElem? hl'
      cases hmove with
      | same => exact ⟨l, hmem, rfl, hlive⟩
      | arrive => exact ⟨_, hmem, rfl, by simp⟩
      | retire _ _ _ hfree => rw [hfree] at hi; cases hi
      | free => exact ⟨_, hmem, rfl, by simp⟩
      | close _ _ hfree => rw [hfree] at hi; cases hi
    · rw [hnone] at hi
      cases hi
    · rw [hj] at hi
      cases hi
      refine ⟨⟨clientId, name, port, .accepting⟩, ?_, rfl, by simp⟩
      rw [hl]
      exact List.mem_append_right _ (List.mem_singleton.mpr rfl)

theorem held_of_reachable (h : (relay crates cfg).Reachable s) : s.Held :=
  h.invariant held_init fun _ _ _ hreach hinv hstep =>
    hinv.step (attended_of_reachable hreach) hstep

/-! ## Every exit of `run_control` -/

/-- Nothing is left of a session. -/
structure State.CleanedUp (s : State) (i : ℕ) : Prop where
  shutdown : (s.conns i).shutdown = true
  listeners : ∀ l ∈ (s.conns i).listeners, l.state = .ended
  ports : ∀ port, s.ports port ≠ some i
  sessions : ∀ clientId, s.sessions clientId ≠ some i
  done : (s.conns i).done = true

/-- The step is no write of a reply of session `i` that fails. -/
def WritesReply (crates : Crates) (i : ℕ) (s : State) : Label → Prop
  | .conn j action => j = i → ∀ clientId phase,
      (s.conns j).phase = .control clientId phase →
      losesReply crates action phase = false
  | _ => True

theorem cleanedUp_of_done (hreach : (relay crates cfg).Reachable s) {i : ℕ}
    (hdone : (s.conns i).done = true) : s.CleanedUp i := by
  have horderly := orderly_of_reachable hreach i
  have hheld := held_of_reachable hreach
  obtain ⟨clientId, hphase⟩ := horderly.done.mp hdone
  have hended : ∀ l ∈ (s.conns i).listeners, l.state = .ended := by
    intro l hl
    obtain ⟨n, hn⟩ := List.getElem?_of_mem hl
    exact horderly.awaited hphase n l (List.getElem?_eq_some_iff.mp hn).1 hn
  refine ⟨horderly.shutdown hphase rfl, hended, ?_, ?_, hdone⟩
  · intro port hport
    obtain ⟨l, hl, -, hlive⟩ := hheld.port hport
    exact hlive (hended l hl)
  · intro owner howner
    obtain ⟨phase, hphase', hreg⟩ := hheld.session howner
    rw [hphase] at hphase'
    cases hphase'
    cases hreg

theorem ControlStep.returned_early {label : Label} {i : ℕ} {phase : ControlPhase}
    (h : ControlStep crates s label i phase (.returned true)) :
    phase = .returned true ∨
      ∃ action, label = .conn i action ∧ losesReply crates action phase = true := by
  cases h with
  | same => exact Or.inl rfl
  | own hlabel hmove =>
      cases hmove with
      | loop _ _ hlooping => cases hlooping
      | lost hlost => exact Or.inr ⟨_, hlabel, hlost⟩

/-- `run_control` has returned by `?`. -/
def State.ReturnedEarly (s : State) (i : ℕ) : Prop :=
  ∃ clientId, (s.conns i).phase = .control clientId (.returned true)

theorem returnedEarly_of_lost {i : ℕ} {label : Label}
    (h : s.step crates cfg label = some s') (hlost : ¬WritesReply crates i s label) :
    s'.ReturnedEarly i := by
  cases label with
  | conn j action =>
      simp only [WritesReply, not_forall, Bool.not_eq_false] at hlost
      obtain ⟨rfl, clientId, phase, hphase, hlost⟩ := hlost
      obtain ⟨c, hact, rfl⟩ := conn_cases h
      obtain ⟨phase', hphase', hmove, -⟩ := act_control hphase hact
      obtain ⟨io, msg, rfl, rfl⟩ := write_of_losesReply hlost
      refine ⟨clientId, ?_⟩
      cases hmove with
      | loop _ hkept => rw [hlost] at hkept; cases hkept
      | leave _ hkept => rw [hlost] at hkept; cases hkept
      | lost => simpa using hphase'
  | _ => exact absurd trivial hlost

theorem lost_of_returnedEarly {i : ℕ} {label : Label} (hnot : ¬s.ReturnedEarly i)
    (h : s.step crates cfg label = some s') (hearly : s'.ReturnedEarly i) :
    ¬WritesReply crates i s label := by
  intro hcond
  obtain ⟨clientId, hearly⟩ := hearly
  by_cases hcontrol : ∃ clientId phase, (s.conns i).phase = .control clientId phase
  · obtain ⟨owner, phase, hold⟩ := hcontrol
    obtain ⟨phase', hsession⟩ := step_session h hold
    have heq := hsession.phase_eq
    rw [hearly] at heq
    cases heq
    rcases hsession.moves.returned_early with rfl | ⟨action, rfl, hlost⟩
    · exact hnot ⟨_, hold⟩
    · rw [hcond rfl _ _ hold] at hlost
      cases hlost
  · obtain ⟨-, hbegins⟩ := (step_stride h i).begins
      fun clientId phase hphase => hcontrol ⟨clientId, phase, hphase⟩
    cases hbegins _ _ hearly

/-- A session returns by `?` exactly when one of its replies was lost. -/
theorem returnedEarly_iff {history : List (State × Label)} {i : ℕ}
    (hrun : (relay crates cfg).Run history s) :
    s.ReturnedEarly i ↔ ¬System.Always (WritesReply crates i) history := by
  constructor
  · intro hearly halways
    have hnot : ¬s.ReturnedEarly i :=
      hrun.invariant_of_always halways (by simp [State.ReturnedEarly, relay, State.init,
        Conn.fresh]) fun _ _ _ _ hnot hcond hstep hearly =>
          lost_of_returnedEarly hnot hstep hearly hcond
    exact hnot hearly
  · intro hlost
    have hruns : System.Always (WritesReply crates i) history ∨ s.ReturnedEarly i :=
      hrun.always_or_absorbed
        (fun _ _ _ hstep hearly => hearly.imp fun _ => returned_kept hstep)
        (fun _ _ _ hstep hlost => returnedEarly_of_lost hstep hlost)
    exact hruns.resolve_left hlost

/-- A session that has returned has cleaned up exactly when every reply it had to
write could be written. -/
theorem cleanedUp_iff {history : List (State × Label)} {i : ℕ}
    (hrun : (relay crates cfg).Run history s) (hret : (s.conns i).returned = true) :
    s.CleanedUp i ↔ System.Always (WritesReply crates i) history := by
  obtain ⟨clientId, early, hphase⟩ := returned_iff.mp hret
  have horderly := orderly_of_reachable hrun.reachable i
  rw [← not_iff_not, ← returnedEarly_iff hrun]
  cases early with
  | true =>
      refine iff_of_true (fun hclean => ?_) ⟨clientId, hphase⟩
      obtain ⟨owner, hdone⟩ := horderly.done.mp hclean.done
      rw [hphase] at hdone
      cases hdone
  | false =>
      have hclean :=
        cleanedUp_of_done hrun.reachable (horderly.done.mpr ⟨clientId, hphase⟩)
      refine iff_of_false (not_not_intro hclean) ?_
      rintro ⟨owner, hearly⟩
      rw [hphase] at hearly
      cases hearly

/-- The answer to a `Bind` cannot be written: the listener, the port and the
registration outlive the session, and `done` is never sent. -/
theorem left_behind : ∃ s, (relay sampleCrates sampleConfig).Reachable s ∧
    (s.conns 0).returned = true ∧ s.ports 8080 = some 0 ∧
    s.sessions "mac" = some 0 ∧ ¬s.CleanedUp 0 := by
  obtain ⟨s, hreach, hcheck⟩ := sampleLogins_reachable.exists_of_exec
    [.kick 0, .register 0, .conn 0 (.read (some (.bind "dufs" 8080))), .bound 0 true,
      .conn 0 (.written false)]
    (fun s : State => decide ((s.conns 0).returned = true ∧ s.ports 8080 = some 0 ∧
      s.sessions "mac" = some 0)) (by decide +kernel)
  obtain ⟨hret, hport, hsession⟩ := of_decide_eq_true hcheck
  exact ⟨s, hreach, hret, hport, hsession, fun hclean => hclean.ports 8080 hport⟩

/-- A session that opened a port and was told `Bye`. -/
theorem cleanedUp_iff_sample : ∃ history s,
    (relay sampleCrates sampleConfig).Run history s ∧
    (s.conns 0).listeners.length = 1 ∧ s.CleanedUp 0 ∧
    System.Always (WritesReply sampleCrates 0) history := by
  obtain ⟨s, ⟨history, hrun⟩, hcheck⟩ := sampleLogins_reachable.exists_of_exec
    ([.kick 0, .register 0] ++ openPort 0 "dufs" 8080 ++
      [.conn 0 (.read (some (.bye "quit"))), .conn 0 .stop, .retire 0 0, .conn 0 .join,
        .conn 0 .join, .unregister 0, .conn 0 .finish])
    (fun s : State => decide ((s.conns 0).returned = true ∧ (s.conns 0).done = true ∧
      (s.conns 0).listeners.length = 1)) (by decide +kernel)
  obtain ⟨hret, hdone, hlength⟩ := of_decide_eq_true hcheck
  have hclean := cleanedUp_of_done hrun.reachable hdone
  exact ⟨history, s, hrun, hlength, hclean, (cleanedUp_iff hrun hret).mp hclean⟩

end Yunpan.Relay
