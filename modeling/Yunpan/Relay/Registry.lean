import Yunpan.Relay.Isolation
import Yunpan.Core.Takeover

/-!
# Which session a client has

`sessions` names at most one control session per client.  A login first removes
the previous session and signals it, later inserts itself; a session that ends
removes whatever lies under its client id.  The registry is an instance of
`Takeover`, and so the two questions about it, whether a removal hits the right
entry and whether two sessions can be active at once, are questions about the
order of logins and endings.
-/

namespace Yunpan.Relay

open Yunpan.Protocol
open Yunpan.Transition

variable {crates : Crates} {cfg : RelayConfig} {s s' : State}

/-! ## The relay keeps to the registry -/

/-- Where a control session stands in taking over its client's slot. -/
def ControlPhase.takeover (clientId : String) :
    ControlPhase → Takeover.Phase String ℕ
  | .kick => .idle
  | .signal old => .entering clientId (some old)
  | .wait _ _ => .entering clientId none
  | .register => .entering clientId none
  | .select => .holding clientId
  | .write _ _ => .holding clientId
  | .bind _ _ => .holding clientId
  | .stop => .holding clientId
  | .join _ => .leaving clientId
  | .unregister => .leaving clientId
  | .finish => .gone clientId
  | .returned _ => .gone clientId

def Phase.takeover : Phase → Takeover.Phase String ℕ
  | .control clientId phase => phase.takeover clientId
  | _ => .idle

def State.registry (s : State) : Takeover.Registry String ℕ where
  slot := s.sessions
  phase := fun i => (s.conns i).phase.takeover
  signalled := fun i => (s.conns i).shutdown

/-- The step of the registry that a step of the relay is. -/
def registryMove (crates : Crates) (s : State) :
    Label → Option (Takeover.Label String ℕ)
  | .kick i =>
      match (s.conns i).phase with
      | .control clientId .kick => some (.take i clientId)
      | _ => none
  | .signal i => some (.signal i)
  | .register i => some (.put i)
  | .unregister i => some (.clear i)
  | .conn i action =>
      match (s.conns i).phase with
      | .control _ .stop => some (.leave i)
      | .control _ phase =>
          if losesReply crates action phase then some (.quit i) else none
      | _ => none
  | _ => none

theorem takeover_of_looping {clientId : String} {phase : ControlPhase}
    (h : phase.looping = true) : phase.takeover clientId = .holding clientId := by
  cases phase <;> simp_all [ControlPhase.looping, ControlPhase.takeover]

/-- A step that changes neither the table nor where sessions stand. -/
theorem registry_unchanged (hsessions : s'.sessions = s.sessions)
    (hconns : ∀ j, (s'.conns j).phase.takeover = (s.conns j).phase.takeover ∧
      (s'.conns j).shutdown = (s.conns j).shutdown) : s'.registry = s.registry := by
  refine Takeover.Registry.ext hsessions ?_ ?_
  · funext j
    exact (hconns j).1
  · funext j
    exact (hconns j).2

theorem registryMove_quiet {i : ℕ} {action : Action} {clientId : String}
    {phase : ControlPhase} (hphase : (s.conns i).phase = .control clientId phase)
    (hstop : phase ≠ .stop) (hkept : losesReply crates action phase = false) :
    registryMove crates s (.conn i action) = none := by
  cases phase <;> first | exact absurd rfl hstop | simp [registryMove, hphase, hkept]

theorem registry_follows_conn {i : ℕ} {action : Action}
    (hstep : s.step crates cfg (.conn i action) = some s') :
    System.Follows Takeover.system State.registry (registryMove crates) s
      (.conn i action) s' := by
  obtain ⟨c, hact, rfl⟩ := conn_cases hstep
  have hother : ∀ {phase : Takeover.Phase String ℕ} {signalled : Bool},
      c.phase.takeover = phase → c.shutdown = signalled →
      (s.setConn i c).registry = { s.registry with
        phase := Function.update s.registry.phase i phase
        signalled := Function.update s.registry.signalled i signalled } := by
    rintro _ _ rfl rfl
    refine Takeover.Registry.ext rfl ?_ ?_ <;>
      · funext j
        by_cases hj : j = i <;> simp [State.registry, hj]
  have hsame : c.phase.takeover = (s.conns i).phase.takeover →
      c.shutdown = (s.conns i).shutdown → (s.setConn i c).registry = s.registry := by
    intro hphase hshutdown
    refine registry_unchanged rfl fun j => ?_
    by_cases hj : j = i
    · subst hj
      simp [hphase, hshutdown]
    · simp [hj]
  unfold System.Follows
  by_cases hcontrol : ∃ clientId phase, (s.conns i).phase = .control clientId phase
  · obtain ⟨clientId, phase, hphase⟩ := hcontrol
    obtain ⟨phase', hphase', hmove, -, -, hshutdown, -⟩ := act_control hphase hact
    have hbefore : (s.conns i).phase.takeover = phase.takeover clientId := by
      rw [hphase, Phase.takeover]
    have hafter : c.phase.takeover = phase'.takeover clientId := by
      rw [hphase', Phase.takeover]
    have hquiet : phase ≠ .stop → losesReply crates action phase = false →
        registryMove crates s (.conn i action) = none :=
      registryMove_quiet hphase
    cases hmove with
    | loop hlooping hkept hlooping' =>
        have hstop : phase ≠ .stop := by rintro rfl; cases hlooping
        rw [hquiet hstop hkept]
        exact hsame (by rw [hafter, hbefore, takeover_of_looping hlooping,
          takeover_of_looping hlooping']) (by simpa [hstop] using hshutdown)
    | leave hlooping hkept =>
        have hstop : phase ≠ .stop := by rintro rfl; cases hlooping
        rw [hquiet hstop hkept]
        exact hsame (by rw [hafter, hbefore, takeover_of_looping hlooping]; rfl)
          (by simpa [hstop] using hshutdown)
    | lost hlost =>
        obtain ⟨io, msg, rfl, rfl⟩ := write_of_losesReply hlost
        have hholding : s.registry.phase i = .holding clientId := hbefore
        have hmove : registryMove crates s (.conn i (.written io)) =
            some (.quit i) := by
          simp [registryMove, hphase, hlost]
        rw [hmove]
        simp only [Takeover.system, Takeover.Registry.step, hholding, Option.some.injEq]
        rw [hother hafter (by simpa using hshutdown)]
        refine Takeover.Registry.ext rfl rfl ?_
        exact (Function.update_eq_self i s.registry.signalled).symm
    | stop =>
        have hholding : s.registry.phase i = .holding clientId := hbefore
        simp only [registryMove, hphase, Takeover.system, Takeover.Registry.step,
          hholding, Option.some.injEq]
        exact (hother hafter (by simpa using hshutdown)).symm
    | joined =>
        rw [hquiet (by simp) (by rfl)]
        exact hsame (by rw [hafter, hbefore]; rfl) (by simpa using hshutdown)
    | next =>
        rw [hquiet (by simp) (by rfl)]
        exact hsame (by rw [hafter, hbefore]; rfl) (by simpa using hshutdown)
    | finish =>
        rw [hquiet (by simp) (by rfl)]
        exact hsame (by rw [hafter, hbefore]; rfl) (by simpa using hshutdown)
  · have hmove : registryMove crates s (.conn i action) = none := by
      simp only [registryMove]
      split
      case h_1 hphase => exact absurd ⟨_, _, hphase⟩ hcontrol
      case h_2 hphase => exact absurd ⟨_, _, hphase⟩ hcontrol
      case h_3 => rfl
    have hidle : ∀ phase : Phase, (∀ clientId p, phase ≠ .control clientId p) →
        phase.takeover = .idle := by
      intro phase hphase
      cases phase <;> first | rfl | exact absurd rfl (hphase _ _)
    have hact := act_other (fun clientId p hp => hcontrol ⟨clientId, p, hp⟩) hact
    rw [hmove]
    refine hsame ?_ hact.channels.2.1
    rw [hidle _ fun clientId p hp => hcontrol ⟨clientId, p, hp⟩]
    cases hact with
    | @pass proto role => cases role <;> rfl
    | stay => exact hidle _ fun clientId p hp => hcontrol ⟨clientId, p, hp⟩
    | _ => rfl

theorem registry_follows {label : Label} (hstep : s.step crates cfg label = some s') :
    System.Follows Takeover.system State.registry (registryMove crates) s label s' := by
  cases label with
  | conn i action => exact registry_follows_conn hstep
  | kick i =>
      obtain ⟨clientId, hphase, hcases⟩ := kick_cases hstep
      have hidle : s.registry.phase i = .idle := by
        simp [State.registry, hphase, Phase.takeover, ControlPhase.takeover]
      simp only [System.Follows, registryMove, hphase, Takeover.system,
        Takeover.Registry.step, hidle, Option.some.injEq]
      obtain ⟨hnone, rfl⟩ | ⟨old, hold, rfl⟩ := hcases
      · refine Takeover.Registry.ext ?_ ?_ ?_
        · exact (Function.update_eq_self_iff.mpr hnone.symm)
        all_goals
          funext j
          by_cases hj : j = i
          · subst hj
            simp [State.registry, Phase.takeover, ControlPhase.takeover, hnone]
          · simp [State.registry, hj]
      · refine Takeover.Registry.ext rfl ?_ ?_
        all_goals
          funext j
          by_cases hj : j = i
          · subst hj
            simp [State.registry, Phase.takeover, ControlPhase.takeover, hold,
              moveHandle_conns]
          · simp [State.registry, hj, moveHandle_conns]
  | signal i =>
      obtain ⟨clientId, old, hphase, rfl⟩ := signal_cases hstep
      have hentering : s.registry.phase i = .entering clientId (some old) := by
        simp [State.registry, hphase, Phase.takeover, ControlPhase.takeover]
      simp only [System.Follows, registryMove, Takeover.system,
        Takeover.Registry.step, hentering, Option.some.injEq]
      refine Takeover.Registry.ext rfl ?_ ?_
      · funext j
        by_cases hj : j = i
        · subst hj
          simp [State.registry, Phase.takeover, ControlPhase.takeover]
        · by_cases hold : j = old
          · subst hold
            simp [State.registry, hj]
          · simp [State.registry, hj, hold]
      · funext j
        by_cases hj : j = i
        · subst hj
          by_cases hold : j = old
          · subst hold
            simp [State.registry]
          · simp [State.registry, hold]
        · by_cases hold : j = old
          · subst hold
            simp [State.registry, hj]
          · simp [State.registry, hj, hold]
  | register i =>
      obtain ⟨clientId, hphase, -, rfl⟩ := register_cases hstep
      have hentering : s.registry.phase i = .entering clientId none := by
        simp [State.registry, hphase, Phase.takeover, ControlPhase.takeover]
      simp only [System.Follows, registryMove, Takeover.system,
        Takeover.Registry.step, hentering, Option.some.injEq]
      refine Takeover.Registry.ext rfl ?_ ?_
      all_goals
        funext j
        by_cases hj : j = i
        · subst hj
          simp [State.registry, Phase.takeover, ControlPhase.takeover,
            moveHandle_conns]
        · simp [State.registry, hj, moveHandle_conns]
  | unregister i =>
      obtain ⟨clientId, hphase, rfl⟩ := unregister_cases hstep
      have hleaving : s.registry.phase i = .leaving clientId := by
        simp [State.registry, hphase, Phase.takeover, ControlPhase.takeover]
      simp only [System.Follows, registryMove, Takeover.system,
        Takeover.Registry.step, hleaving, Option.some.injEq]
      refine Takeover.Registry.ext rfl ?_ ?_
      all_goals
        funext j
        by_cases hj : j = i
        · subst hj
          simp [State.registry, Phase.takeover, ControlPhase.takeover,
            moveHandle_conns]
        · simp [State.registry, hj, moveHandle_conns]
  | waited i =>
      obtain ⟨clientId, old, deadline, hphase, -, rfl⟩ := waited_cases hstep
      refine registry_unchanged (by simp) fun j => ?_
      by_cases hj : j = i
      · subst hj
        simp [moveHandle_conns, hphase, Phase.takeover, ControlPhase.takeover]
      · simp [moveHandle_conns, hj]
  | event i =>
      obtain ⟨clientId, msg, queue, hphase, -, ⟨-, rfl⟩ | ⟨v, waiters, -, rfl⟩⟩ :=
        event_cases hstep
      all_goals
        refine registry_unchanged rfl fun j => ?_
        by_cases hj : j = i
        · subst hj
          simp [hphase, Phase.takeover, ControlPhase.takeover]
        · simp [hj]
  | bound i osOk =>
      obtain ⟨clientId, name, port, hphase, ⟨-, -, -, rfl⟩ | ⟨reason, -, rfl⟩⟩ :=
        bound_cases hstep
      all_goals
        refine registry_unchanged rfl fun j => ?_
        by_cases hj : j = i
        · subst hj
          simp [hphase, Phase.takeover, ControlPhase.takeover]
        · simp [hj]
  | splice i =>
      obtain ⟨clientId, connId, hphase,
        ⟨-, rfl⟩ | ⟨p, -, ⟨-, rfl⟩ | ⟨-, rfl⟩⟩⟩ := splice_cases hstep
      all_goals
        refine registry_unchanged rfl fun j => ?_
        by_cases hj : j = i
        · subst hj
          simp [hphase, Phase.takeover]
        · simp [hj]
  | advance ms => cases hstep; exact registry_unchanged rfl fun _ => ⟨rfl, rfl⟩
  | sweep => cases hstep; exact registry_unchanged rfl fun _ => ⟨rfl, rfl⟩
  | arrive i n v peer =>
      obtain ⟨l, -, -, -, rfl⟩ := arrive_cases hstep
      exact registry_unchanged rfl fun _ => by simp [setListener_conns]
  | retire i n =>
      obtain ⟨l, -, -, -, rfl⟩ := retire_cases hstep
      exact registry_unchanged (by simp) fun _ => by
        simp [endListener_conns, setListener_conns]
  | route v peer =>
      obtain ⟨-, -, rfl⟩ := route_cases hstep
      exact registry_unchanged rfl fun _ => ⟨rfl, rfl⟩
  | tls v result =>
      obtain ⟨x, since, -, -, ⟨-, rfl⟩ | ⟨-, rfl⟩⟩ := tls_cases hstep
      all_goals exact registry_unchanged (by simp) fun _ => by simp [release_conns]
  | head v block =>
      obtain ⟨x, since, -, -, ⟨status, -, rfl⟩ | ⟨bytes, seg, session, -, -, rfl⟩⟩ :=
        head_cases hstep
      all_goals exact registry_unchanged rfl fun _ => ⟨rfl, rfl⟩
  | number v =>
      obtain ⟨x, -, -, rfl⟩ := number_cases hstep
      exact registry_unchanged rfl fun _ => ⟨rfl, rfl⟩
  | insert v =>
      obtain ⟨x, k, target, -, -, -, rfl⟩ := insert_cases hstep
      exact registry_unchanged rfl fun _ => ⟨rfl, rfl⟩
  | send v =>
      obtain ⟨x, k, target, -, -, ⟨-, -, rfl⟩ | ⟨-, -, -, rfl⟩ | ⟨-, -, -, rfl⟩⟩ :=
        send_cases hstep
      all_goals
        refine registry_unchanged (by simp) fun j => ?_
        by_cases hj : j = target.session <;> simp [release_conns, hj]
  | resume v =>
      obtain ⟨x, k, target, -, -, -, ⟨-, rfl⟩ | ⟨-, rfl⟩⟩ := resume_cases hstep
      all_goals
        refine registry_unchanged (by simp) fun j => ?_
        by_cases hj : j = target.session <;> simp [release_conns, hj]
  | unwind v =>
      obtain ⟨x, k, -, -, rfl⟩ := unwind_cases hstep
      exact registry_unchanged (by simp) fun _ => by simp [release_conns]

/-! ## Removals -/

/-- The session is registered and its removal from `sessions` is still to come. -/
def ControlPhase.removalAhead : ControlPhase → Bool
  | .select => true
  | .write _ _ => true
  | .bind _ _ => true
  | .stop => true
  | .join _ => true
  | .unregister => true
  | _ => false

/-- The session has taken its predecessor's entry and is not inserted yet. -/
def ControlPhase.entering : ControlPhase → Bool
  | .signal _ => true
  | .wait _ _ => true
  | .register => true
  | _ => false

/-- A session is inserted only when every earlier session of the client that is
going to remove an entry has done so. -/
def RegistersAfterRemoval (s : State) : Label → Prop
  | .register i => ∀ clientId, (s.conns i).phase = .control clientId .register →
      ∀ j phase, (s.conns j).phase = .control clientId phase →
        phase.removalAhead = false
  | _ => True

/-- The removal at the end of `run_control` hits the session's own entry or none. -/
def RemovesOwn (s : State) : Label → Prop
  | .unregister i => ∀ clientId, (s.conns i).phase = .control clientId .unregister →
      ∀ j, s.sessions clientId = some j → j = i
  | _ => True

/-- A later login of the client replaces session `i`: its `kick_previous` found the
session's entry in `sessions` and took it out, in order to be inserted itself.  The
session counts as replaced from that step on, since it cannot be found any more while
its successor waits for it to end. -/
def Replaced (history : List (State × Label)) (i : ℕ) (clientId : String) : Prop :=
  ∃ s j, (s, Label.kick j) ∈ history ∧ (s.conns j).phase = .control clientId .kick ∧
    s.sessions clientId = some i

/-- The loop of a registered session is running. -/
def Conn.Running (c : Conn) (clientId : String) : Prop :=
  ∃ phase, c.phase = .control clientId phase ∧ phase.looping = true

theorem control_of_settled {phase : Phase} {clientId : String}
    (h : phase.takeover.settled? = some clientId) :
    ∃ p, phase = .control clientId p ∧ p.removalAhead = true := by
  cases phase with
  | control owner p =>
      cases p <;> simp_all [Phase.takeover, ControlPhase.takeover,
        Takeover.Phase.settled?, ControlPhase.removalAhead]
  | _ => cases h

/-- Emptying a slot of the registry is the kick of a login. -/
theorem kick_of_take {label : Label} {i : ℕ} {clientId : String}
    (h : registryMove crates s label = some (.take i clientId)) :
    label = .kick i ∧ (s.conns i).phase = .control clientId .kick := by
  cases label with
  | kick j =>
      simp only [registryMove] at h
      split at h
      case h_1 hphase => cases h; exact ⟨rfl, hphase⟩
      case h_2 => cases h
  | conn j action =>
      simp only [registryMove] at h
      split at h
      case h_1 => cases h
      case h_2 => split at h <;> cases h
      case h_3 => cases h
  | _ => cases h

theorem puts_of_registers {label : Label} {move : Takeover.Label String ℕ}
    (hcond : RegistersAfterRemoval s label)
    (hstep : s.step crates cfg label = some s')
    (hmove : registryMove crates s label = some move) :
    Takeover.PutsWhenSettled s.registry move := by
  cases label with
  | register i =>
      cases hmove
      obtain ⟨clientId, hphase, -, -⟩ := register_cases hstep
      intro key hentering other hsettled
      have hkey : key = clientId := by
        simpa [State.registry, hphase, Phase.takeover, ControlPhase.takeover,
          eq_comm] using hentering
      subst hkey
      obtain ⟨p, hp, hahead⟩ := control_of_settled hsettled
      rw [hcond key hphase other p hp] at hahead
      cases hahead
  | kick i =>
      simp only [registryMove] at hmove
      split at hmove <;> cases hmove
      trivial
  | conn i action =>
      simp only [registryMove] at hmove
      split at hmove
      case h_1 => cases hmove; trivial
      case h_2 => split at hmove <;> cases hmove; trivial
      case h_3 => cases hmove
  | signal i => cases hmove; trivial
  | unregister i => cases hmove; trivial
  | _ => cases hmove

theorem oneHolder_step {label : Label} (hinv : Takeover.OneHolder s.registry)
    (hcond : RegistersAfterRemoval s label)
    (hstep : s.step crates cfg label = some s') : Takeover.OneHolder s'.registry :=
  (registry_follows hstep).preserves hinv fun _ hmove habstract =>
    hinv.step (puts_of_registers hcond hstep hmove) habstract

/-- In a run in which sessions are inserted after their predecessors' removals, a
session whose loop is running is found under its client id or was replaced. -/
theorem found_or_replaced {history : List (State × Label)}
    (hrun : (relay crates cfg).Run history s)
    (hcond : System.Always RegistersAfterRemoval history) {i : ℕ} {clientId : String}
    (hrunning : (s.conns i).Running clientId) :
    s.sessions clientId = some i ∨ Replaced history i clientId := by
  have habstract : Takeover.system.Run
      (System.abstractHistory State.registry (registryMove crates) history)
      s.registry :=
    hrun.abstract rfl fun _ _ _ _ hstep => registry_follows hstep
  have hputs : System.Always Takeover.PutsWhenSettled
      (System.abstractHistory State.registry (registryMove crates) history) :=
    hrun.always_abstract hcond fun _ _ _ _ hcond hstep hmove =>
      puts_of_registers hcond hstep hmove
  obtain ⟨phase, hphase, hlooping⟩ := hrunning
  have hholding : s.registry.phase i = .holding clientId := by
    simp only [State.registry, hphase, Phase.takeover, takeover_of_looping hlooping]
  obtain hslot | ⟨earlier, j, hentry, hslot⟩ :=
    Takeover.Run.holder_named habstract hputs hholding
  · exact Or.inl hslot
  · obtain ⟨before, label, hentry, hmove, rfl⟩ := System.mem_abstractHistory.mp hentry
    obtain ⟨rfl, hkick⟩ := kick_of_take hmove
    exact Or.inr ⟨before, j, hentry, hkick, hslot⟩

/-- In a run in which sessions are inserted after their predecessors' removals,
every removal hits the session's own entry, and every running session that was
not replaced is the one found under its client id. -/
theorem removal_own {history : List (State × Label)}
    (hrun : (relay crates cfg).Run history s)
    (hcond : System.Always RegistersAfterRemoval history) :
    System.Always RemovesOwn history ∧
      ∀ i clientId, (s.conns i).Running clientId → ¬Replaced history i clientId →
        s.sessions clientId = some i := by
  refine ⟨hrun.forall_of_always hcond Takeover.oneHolder_empty
    (fun _ _ _ _ hinv hcond hstep => oneHolder_step hinv hcond hstep) ?_, ?_⟩
  · intro s label hinv _
    cases label with
    | unregister i =>
        intro clientId hphase j hslot
        have hsettled : (s.registry.phase i).settled? = some clientId := by
          simp [State.registry, hphase, Phase.takeover, ControlPhase.takeover,
            Takeover.Phase.settled?]
        exact hinv.slot_own hsettled hslot
    | _ => trivial
  · intro i clientId hrunning hreplaced
    exact (found_or_replaced hrun hcond hrunning).resolve_right hreplaced

/-- Two control connections of `mac` right after their handshakes. -/
def twinLogins : State :=
  (State.init.setConn 0
    (Conn.loggedIn Sha256.hmac (.control "mac") "mac-0123456789abcdef"
    (Vector.replicate 32 0))).setConn 1
      (Conn.loggedIn Sha256.hmac (.control "mac") "mac-0123456789abcdef"
      (Vector.replicate 32 1))

theorem twinLogins_reachable :
    (relay sampleCrates sampleConfig).Reachable twinLogins :=
  Reachable.login _ _
    (Reachable.login _ _ System.Reachable.init rfl (by decide +kernel))
    rfl (by decide +kernel)

/-- The first session needs more than five seconds for its farewell; when it is
done, the entry it removes is the second session's. -/
theorem stranger_removed : ∃ history s,
    (relay sampleCrates sampleConfig).Run history s ∧
    ¬(System.Always RemovesOwn history ∧
      ∀ i clientId, (s.conns i).Running clientId → ¬Replaced history i clientId →
        s.sessions clientId = some i) := by
  obtain ⟨s, ⟨history, hrun⟩, hcheck⟩ := twinLogins_reachable.exists_of_exec
    [.kick 0, .register 0, .kick 1, .signal 1, .conn 0 .shutdownSeen, .advance 5000,
     .waited 1, .register 1, .conn 0 (.written false), .conn 0 .stop, .conn 0 .join]
    (fun s : State => decide ((s.conns 0).phase = .control "mac" .unregister ∧
      s.sessions "mac" = some 1)) (by decide +kernel)
  obtain ⟨hphase, hslot⟩ := of_decide_eq_true hcheck
  have hstep : ∃ s', s.step sampleCrates sampleConfig (.unregister 0) = some s' := by
    simp [State.step, State.unregister, hphase]
  obtain ⟨s', hstep⟩ := hstep
  have hrun' :
      (relay sampleCrates sampleConfig).Run ((s, .unregister 0) :: history) s' :=
    hrun.snoc hstep
  refine ⟨_, s', hrun', fun hclaim => ?_⟩
  have := (System.always_cons.mp hclaim.1).1 "mac" hphase 1 hslot
  cases this

/-- The entry that lies under the client id of control session `i`. -/
def State.entryOf (s : State) (i : ℕ) : Option ℕ :=
  match (s.conns i).phase with
  | .control clientId _ => s.sessions clientId
  | _ => none

/-- The connection is a control session in one of the phases. -/
def Phase.among (phases : ControlPhase → Bool) : Phase → Bool
  | .control _ phase => phases phase
  | _ => false

/-- Only connections 0 and 1 log in; one of them starts its kick while neither is between
kick and insertion and finds at most session 0, is inserted when neither has a removal
ahead, and removes no entry but its own. -/
def twinsInTurn (s : State) : Label → Bool
  | .conn i _ => i < 2
  | .kick i => !(s.conns 0).phase.among ControlPhase.entering &&
      !(s.conns 1).phase.among ControlPhase.entering && s.entryOf i != some 1
  | .register _ => !(s.conns 0).phase.among ControlPhase.removalAhead &&
      !(s.conns 1).phase.among ControlPhase.removalAhead
  | .unregister i => (s.entryOf i).all (· == i)
  | _ => true

/-- No connection but 0 and 1 is a control session. -/
def State.Twins (s : State) : Prop :=
  ∀ j, 2 ≤ j → ∀ clientId phase, (s.conns j).phase ≠ .control clientId phase

theorem twins_init : (relay crates cfg).init.Twins := by
  intro j _ clientId phase hphase
  cases hphase

theorem twins_step {label : Label} (hs : s.Twins) (hcond : twinsInTurn s label = true)
    (hstep : s.step crates cfg label = some s') : s'.Twins := by
  intro j hj clientId phase hphase
  obtain ⟨action, rfl⟩ := (step_stride hstep j).begun_by (hs j hj) hphase
  have hlt : j < 2 := by simpa [twinsInTurn] using hcond
  omega

theorem State.Twins.none_among (hs : s.Twins) {phases : ControlPhase → Bool}
    (hfirst : (s.conns 0).phase.among phases = false)
    (hsecond : (s.conns 1).phase.among phases = false) {j : ℕ} {clientId : String}
    {phase : ControlPhase} (hphase : (s.conns j).phase = .control clientId phase) :
    phases phase = false := by
  match j with
  | 0 => simpa [hphase, Phase.among] using hfirst
  | 1 => simpa [hphase, Phase.among] using hsecond
  | j + 2 => exact absurd hphase (hs (j + 2) (by omega) clientId phase)

/-- The second login takes the first session's entry, waits until that session has
ended and removed nothing but its own, and is inserted. -/
theorem takeover_run : ∃ history s, (relay sampleCrates sampleConfig).Run history s ∧
    System.Always (fun s label => twinsInTurn s label = true) history ∧
    (∃ earlier, (earlier, Label.unregister 0) ∈ history) ∧
    (∃ earlier, (earlier, Label.register 1) ∈ history) ∧
    (s.conns 1).phase = .control "mac" .select ∧ (s.conns 1).shutdown = false := by
  have hnil : System.Always (fun s label => twinsInTurn s label = true) [] :=
    System.Always.nil
  have hlogin : (relay sampleCrates sampleConfig).exec State.init
      (login Sha256.hmac 0 (.control "mac") "mac-0123456789abcdef"
        (Vector.replicate 32 0)) = some (State.init.setConn 0 _) :=
    exec_login _ rfl (by decide +kernel)
  have htwin : (relay sampleCrates sampleConfig).exec _
      (login Sha256.hmac 1 (.control "mac") "mac-0123456789abcdef"
        (Vector.replicate 32 1)) = some twinLogins :=
    exec_login _ rfl (by decide +kernel)
  obtain ⟨first, hfirst, hturn⟩ := System.Run.start.always_of_exec hnil hlogin
    (by simp [login, twinsInTurn])
  obtain ⟨second, hsecond, hturn⟩ := hfirst.always_of_exec hturn htwin
    (by simp [login, twinsInTurn])
  have hexec : (((relay sampleCrates sampleConfig).restrict
      (fun s label => twinsInTurn s label = true)).exec twinLogins
        [.kick 0, .register 0, .kick 1, .signal 1, .conn 0 .shutdownSeen,
          .conn 0 (.written true), .conn 0 .stop, .conn 0 .join, .unregister 0,
          .conn 0 .finish, .waited 1, .register 1]).any (fun s =>
            decide ((s.conns 1).phase = .control "mac" .select ∧
              (s.conns 1).shutdown = false)) = true := by
    decide +kernel
  obtain ⟨s, hs, hcheck⟩ := (Option.any_eq_true _ _).mp hexec
  obtain ⟨steps, hrun, hall, hlabels⟩ := hsecond.exec_restrict hturn hs
  have hmem : ∀ {label : Label}, label ∈ steps.map Prod.snd →
      ∃ earlier, (earlier, label) ∈ steps ++ second := by
    intro label hlabel
    obtain ⟨⟨earlier, _⟩, hentry, rfl⟩ := List.mem_map.mp hlabel
    exact ⟨earlier, List.mem_append_left _ hentry⟩
  exact ⟨_, s, hrun, hall, hmem (by simp [hlabels]), hmem (by simp [hlabels]),
    of_decide_eq_true hcheck⟩

/-- The second session takes over from the first, which removes nothing of its
successor's. -/
theorem removal_own_sample : ∃ history s,
    (relay sampleCrates sampleConfig).Run history s ∧
    System.Always RegistersAfterRemoval history ∧
    (∃ earlier, (earlier, .unregister 0) ∈ history ∧
      RemovesOwn earlier (.unregister 0)) ∧
    ¬Replaced history 1 "mac" ∧ s.sessions "mac" = some 1 := by
  obtain ⟨history, s, hrun, hturn, ⟨earlier, hremoved⟩, -, hphase, -⟩ := takeover_run
  have hcond : System.Always RegistersAfterRemoval history := by
    refine hrun.forall_of_always hturn twins_init
      (fun _ _ _ _ hs hcond hstep => twins_step hs hcond hstep) ?_
    intro s label hs hcond
    cases label with
    | register i =>
        simp only [twinsInTurn, Bool.and_eq_true, Bool.not_eq_true'] at hcond
        exact fun _ _ j phase hj => hs.none_among hcond.1 hcond.2 hj
    | _ => trivial
  have hreplaced : ¬Replaced history 1 "mac" := by
    rintro ⟨before, j, hentry, hkick, hslot⟩
    have := hturn _ hentry
    simp [twinsInTurn, State.entryOf, hkick, hslot] at this
  obtain ⟨hremovals, hfound⟩ := removal_own hrun hcond
  exact ⟨history, s, hrun, hcond, ⟨earlier, hremoved, hremovals _ hremoved⟩, hreplaced,
    hfound 1 "mac" ⟨.select, hphase, rfl⟩ hreplaced⟩

/-! ## Logins -/

/-- The session has been inserted into `sessions`, whatever happened later. -/
def ControlPhase.registered : ControlPhase → Bool
  | .kick => false
  | phase => !phase.entering

/-- A login starts only when no other login of the client is between its removal
and its insertion, and no session removes the entry of another. -/
def LoginsDisjoint (s : State) : Label → Prop
  | .kick i => ∀ clientId, (s.conns i).phase = .control clientId .kick →
      ∀ j phase, (s.conns j).phase = .control clientId phase → phase.entering = false
  | label => RemovesOwn s label

theorem control_of_takeover_entering {phase : Phase} {clientId : String}
    {old : Option ℕ} (h : phase.takeover = .entering clientId old) :
    ∃ p, phase = .control clientId p ∧ p.entering = true := by
  cases phase with
  | control owner p =>
      cases p <;> simp_all [Phase.takeover, ControlPhase.takeover,
        ControlPhase.entering]
  | _ => cases h

/-- Every session that was inserted before has been signalled when the next one
is inserted. -/
def SignalsFirst (s : State) : Label → Prop
  | .register i => ∀ clientId, (s.conns i).phase = .control clientId .register →
      ∀ j phase, (s.conns j).phase = .control clientId phase →
        phase.registered = true → (s.conns j).shutdown = true
  | _ => True

/-- The session is inserted, not signalled and not ended. -/
def Conn.Active (c : Conn) (clientId : String) : Prop :=
  (∃ phase, c.phase = .control clientId phase ∧ phase.registered = true) ∧
    c.shutdown = false ∧ c.returned = false

theorem registered_takeover {phase : ControlPhase} (clientId : String) :
    (phase.takeover clientId).registered? =
      if phase.registered then some clientId else none := by
  cases phase <;> rfl

theorem entersAlone_of_disjoint {label : Label} {move : Takeover.Label String ℕ}
    (hcond : LoginsDisjoint s label)
    (hstep : s.step crates cfg label = some s')
    (hmove : registryMove crates s label = some move) :
    Takeover.EntersAlone s.registry move := by
  cases label with
  | kick i =>
      obtain ⟨clientId, hphase, -⟩ := kick_cases hstep
      simp only [registryMove, hphase, Option.some.injEq] at hmove
      subst hmove
      intro j old hentering
      obtain ⟨p, hp, hentering⟩ := control_of_takeover_entering hentering
      rw [hcond clientId hphase j p hp] at hentering
      cases hentering
  | unregister i =>
      obtain ⟨clientId, hphase, -⟩ := unregister_cases hstep
      cases hmove
      intro key hleaving j hslot
      have hkey : key = clientId := by
        simpa [State.registry, hphase, Phase.takeover, ControlPhase.takeover,
          eq_comm] using hleaving
      subst hkey
      exact hcond key hphase j hslot
  | conn i action =>
      simp only [registryMove] at hmove
      split at hmove
      case h_1 => cases hmove; trivial
      case h_2 => split at hmove <;> cases hmove; trivial
      case h_3 => cases hmove
  | signal i => cases hmove; trivial
  | register i => cases hmove; trivial
  | _ => cases hmove

theorem allSignalled_step {label : Label} (hinv : Takeover.AllSignalled s.registry)
    (hcond : LoginsDisjoint s label)
    (hstep : s.step crates cfg label = some s') :
    Takeover.AllSignalled s'.registry :=
  (registry_follows hstep).preserves hinv fun _ hmove habstract =>
    hinv.step (entersAlone_of_disjoint hcond hstep hmove) habstract

/-- In a run whose logins of one client do not overlap, a session is inserted
only after all earlier ones were signalled, and at most one is active. -/
theorem one_active {history : List (State × Label)}
    (hrun : (relay crates cfg).Run history s)
    (hcond : System.Always LoginsDisjoint history) :
    System.Always SignalsFirst history ∧
      ∀ i j clientId, (s.conns i).Active clientId → (s.conns j).Active clientId →
        i = j := by
  have hinit : Takeover.AllSignalled (relay crates cfg).init.registry :=
    Takeover.allSignalled_empty
  have hregistered : ∀ {s : State} {i clientId phase},
      (s.conns i).phase = .control clientId phase → phase.registered = true →
        (s.registry.phase i).registered? = some clientId := by
    intro s i clientId phase hphase hreg
    simp only [State.registry, hphase, Phase.takeover, registered_takeover, hreg,
      if_true]
  refine ⟨hrun.forall_of_always hcond hinit
    (fun _ _ _ _ hinv hcond hstep => allSignalled_step hinv hcond hstep) ?_, ?_⟩
  · intro s label hinv _
    cases label with
    | register i =>
        intro clientId hphase j phase hj hreg
        have hentering : s.registry.phase i = .entering clientId none := by
          simp [State.registry, hphase, Phase.takeover, ControlPhase.takeover]
        exact hinv.signalled_of_entering hentering (hregistered hj hreg)
    | _ => trivial
  · rintro i j clientId ⟨⟨phase, hphase, hreg⟩, hsignal, -⟩
      ⟨⟨phase', hphase', hreg'⟩, hsignal', -⟩
    have hinv := hrun.invariant_of_always hcond hinit
      fun _ _ _ _ hinv hcond hstep => allSignalled_step hinv hcond hstep
    exact hinv.unique (hregistered hphase hreg) hsignal (hregistered hphase' hreg')
      hsignal'

/-- Two logins that overlap leave two active sessions. -/
theorem two_active : ∃ history s, (relay sampleCrates sampleConfig).Run history s ∧
    ¬(System.Always SignalsFirst history ∧
      ∀ i j clientId, (s.conns i).Active clientId → (s.conns j).Active clientId →
        i = j) := by
  obtain ⟨s, ⟨history, hrun⟩, hcheck⟩ := twinLogins_reachable.exists_of_exec
    [.kick 0, .kick 1, .register 0, .register 1]
    (fun s : State => decide ((s.conns 0).phase = .control "mac" .select ∧
      (s.conns 0).shutdown = false ∧ (s.conns 1).phase = .control "mac" .select ∧
      (s.conns 1).shutdown = false)) (by decide +kernel)
  obtain ⟨hphase, hsignal, hphase', hsignal'⟩ := of_decide_eq_true hcheck
  refine ⟨history, s, hrun, fun hclaim => ?_⟩
  have := hclaim.2 0 1 "mac"
    ⟨⟨_, hphase, rfl⟩, hsignal, by simp [Conn.returned, hphase]⟩
    ⟨⟨_, hphase', rfl⟩, hsignal', by simp [Conn.returned, hphase']⟩
  cases this

/-- The session that took over is the only active one: the other had been signalled
when it was inserted. -/
theorem one_active_sample : ∃ history s,
    (relay sampleCrates sampleConfig).Run history s ∧
    System.Always LoginsDisjoint history ∧
    (∃ earlier, (earlier, .register 1) ∈ history ∧ SignalsFirst earlier (.register 1)) ∧
    (s.conns 1).Active "mac" ∧ ¬(s.conns 0).Active "mac" := by
  obtain ⟨history, s, hrun, hturn, -, ⟨earlier, hinserted⟩, hphase, hsignal⟩ :=
    takeover_run
  have hcond : System.Always LoginsDisjoint history := by
    refine hrun.forall_of_always hturn twins_init
      (fun _ _ _ _ hs hcond hstep => twins_step hs hcond hstep) ?_
    intro s label hs hcond
    cases label with
    | kick i =>
        simp only [twinsInTurn, Bool.and_eq_true, Bool.not_eq_true'] at hcond
        exact fun _ _ j phase hj => hs.none_among hcond.1.1 hcond.1.2 hj
    | unregister i =>
        intro clientId hphase j hslot
        simpa [twinsInTurn, State.entryOf, hphase, hslot] using hcond
    | _ => trivial
  have hactive : (s.conns 1).Active "mac" :=
    ⟨⟨.select, hphase, rfl⟩, hsignal, by simp [Conn.returned, hphase]⟩
  obtain ⟨hfirst, hone⟩ := one_active hrun hcond
  refine ⟨history, s, hrun, hcond, ⟨earlier, hinserted, hfirst _ hinserted⟩, hactive,
    fun hother => ?_⟩
  cases hone 0 1 "mac" hother hactive

end Yunpan.Relay
