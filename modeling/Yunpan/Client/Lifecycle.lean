import Yunpan.Client.Run
import Yunpan.Core.Transition
import Yunpan.Protocol.Sha256

/-!
# The life of a tunnel

`spawn` starts `run` on a task of its own and returns a handle.  The handle can stop
the loop; a session can end it with `Fatal`; and although the handle says that
dropping it does not stop the loop, a closed channel wakes the same selects as a
signal.
-/

namespace Yunpan.Client

open Yunpan.Protocol Yunpan.Transition

/-- `run` and its clock, in milliseconds. -/
structure Tunnel where
  now : ℕ
  runner : Runner

inductive TunnelLabel where
  | elapse (ms : ℕ)
  | act (label : RunLabel)

def Tunnel.step (hmac : Hmac) (cfg : ClientConfig) (t : Tunnel) :
    TunnelLabel → Option Tunnel
  | .elapse ms => some { t with now := t.now + ms }
  | .act label =>
      (t.runner.step hmac cfg t.now label).map fun runner => { t with runner }

/-- A tunnel that was just spawned and everything that may happen to it. -/
def spawned (hmac : Hmac) (cfg : ClientConfig) : System Tunnel TunnelLabel where
  init := ⟨0, Runner.init⟩
  step := Tunnel.step hmac cfg

/-- The loop has ended. -/
def Runner.Over (r : Runner) : Prop := r.phase = .stopped ∨ r.phase = .fatal

instance (r : Runner) : Decidable r.Over :=
  inferInstanceAs (Decidable (r.phase = .stopped ∨ r.phase = .fatal))

/-- The handle is not dropped under a loop that was not told to stop. -/
def KeepsHandle (t : Tunnel) (label : TunnelLabel) : Prop :=
  label = .act .drop → t.runner.shutdown = true ∨ t.runner.Over

def StopCalled (history : List (Tunnel × TunnelLabel)) : Prop :=
  ∃ entry ∈ history, entry.2 = .act .stop

/-- A session of the run returned `Fatal`. -/
def ReturnedFatal (reason : String) (history : List (Tunnel × TunnelLabel)) : Prop :=
  ∃ entry ∈ history, entry.2 = .act .finish ∧
    entry.1.runner.phase = .session (.ended (some (.fatal reason)))

/-- The life cycle that the handle promises, at one moment of a run. -/
structure Orderly (hmac : Hmac) (cfg : ClientConfig)
    (history : List (Tunnel × TunnelLabel)) (t : Tunnel) : Prop where
  /-- The loop ends after `stop`, and then with `Idle` ... -/
  stopped : t.runner.phase = .stopped →
    StopCalled history ∧ t.runner.published.head? = some .idle
  /-- ... or after a session that returned `Fatal`, and then with its reason. -/
  fatal : t.runner.phase = .fatal → ∃ reason, ReturnedFatal reason history ∧
    t.runner.published.head? = some (.fatal reason)
  /-- Nothing is published over `Fatal`. -/
  kept : ∀ reason, .fatal reason ∈ t.runner.published →
    t.runner.phase = .fatal ∧ t.runner.published.head? = some (.fatal reason)
  /-- After `stop` no session begins ... -/
  noneBegun : StopCalled history → ∀ label t', t.step hmac cfg label = some t' →
    t'.runner.phase = .session .connecting → t.runner.phase = .session .connecting
  /-- ... and the next thing that `run` looks at ends the loop. -/
  seen : StopCalled history → t.runner.Over ∨
    ∃ label ∈ [RunLabel.begin, .interrupted, .finish], ∃ t',
      t.step hmac cfg (.act label) = some t' ∧ t'.runner.phase = .stopped

section Steps

variable {hmac : Hmac} {cfg : ClientConfig} {t t' : Tunnel} {label : TunnelLabel}

/-- Time passes, or the loop takes one of its branches. -/
theorem Tunnel.step_cases (h : t.step hmac cfg label = some t') :
    (∃ ms, label = .elapse ms ∧ t' = { t with now := t.now + ms }) ∨
      ∃ l r', label = .act l ∧ t.runner.Moves hmac cfg t.now l r' ∧
        t' = { t with runner := r' } := by
  cases label with
  | elapse ms =>
      cases h
      exact Or.inl ⟨ms, rfl, rfl⟩
  | act l =>
      obtain ⟨r', hrunner, rfl⟩ := Option.map_eq_some_iff.mp h
      exact Or.inr ⟨l, r', rfl, Runner.step_moves hrunner, rfl⟩

/-! ## The flag that `stop` sets -/

def Tunnel.Told (t : Tunnel) : Prop := t.runner.shutdown = true

theorem Tunnel.Told.step (ht : t.Told) (h : t.step hmac cfg label = some t') :
    t'.Told := by
  obtain ⟨ms, -, rfl⟩ | ⟨l, r', -, hmove, rfl⟩ := Tunnel.step_cases h
  · exact ht
  · cases hmove with
    | stop => rfl
    | _ => exact ht

theorem Tunnel.told_cause (h : t.step hmac cfg label = some t') (ht : ¬t.Told)
    (ht' : t'.Told) : label = .act .stop := by
  obtain ⟨ms, -, rfl⟩ | ⟨l, r', rfl, hmove, rfl⟩ := Tunnel.step_cases h
  · exact absurd ht' ht
  · cases hmove with
    | stop => rfl
    | _ => exact absurd ht' ht

theorem stopCalled_iff {history : List (Tunnel × TunnelLabel)}
    (h : (spawned hmac cfg).Run history t) : StopCalled history ↔ t.Told := by
  constructor
  · rintro ⟨entry, hentry, hlabel⟩
    apply h.lasts (fun _ _ _ hstep ht => ht.step hstep) hentry
    intro t' hstep
    rw [hlabel] at hstep
    cases hstep
    rfl
  · intro htold
    have hinit : ¬(spawned hmac cfg).init.Told := by
      simp [spawned, Runner.init, Tunnel.Told]
    obtain ⟨entry, hentry, t', hstep, hbefore, hafter⟩ := h.exists_cause hinit htold
    exact ⟨entry, hentry, Tunnel.told_cause hstep hbefore hafter⟩

/-- A loop that was told to stop begins no session. -/
theorem Tunnel.Told.noneBegun (ht : t.Told) (h : t.step hmac cfg label = some t')
    (hphase : t'.runner.phase = .session .connecting) :
    t.runner.phase = .session .connecting := by
  obtain ⟨ms, -, rfl⟩ | ⟨l, r', rfl, hmove, rfl⟩ := Tunnel.step_cases h
  · exact hphase
  · cases hmove with
    | begun _ hrunning => exact absurd (ht.symm.trans hrunning) (by decide)
    | session _ hmove => exact absurd (RunPhase.session.inj hphase) hmove.ne_connecting
    | notBegun | interrupted | left => cases hphase
    | again | fatal | retry | woken => cases hphase
    | stop => exact hphase
    | drop => exact hphase

/-- Wherever the loop stands, the next branch that looks at the flag leaves it. -/
theorem Tunnel.Told.seen (ht : t.Told) : t.runner.Over ∨
    ∃ label ∈ [RunLabel.begin, .interrupted, .finish], ∃ t',
      t.step hmac cfg (.act label) = some t' ∧ t'.runner.phase = .stopped := by
  have hshutdown : t.runner.shutdown = true := ht
  have hchanged : t.runner.changed = true := by simp [Runner.changed, hshutdown]
  cases hphase : t.runner.phase with
  | top =>
      refine Or.inr ⟨.begin, by simp, { t with runner := t.runner.leave }, ?_, rfl⟩
      simp [Tunnel.step, Runner.step, Runner.begin, hphase, hshutdown]
  | session stage =>
      by_cases hended : ∃ result, stage = .ended result
      · obtain ⟨result, rfl⟩ := hended
        refine Or.inr ⟨.finish, by simp, { t with runner := t.runner.leave }, ?_, rfl⟩
        simp [Tunnel.step, Runner.step, Runner.finish, hphase, hshutdown]
      · refine Or.inr ⟨.interrupted, by simp, { t with runner := t.runner.leave },
          ?_, rfl⟩
        cases stage with
        | ended result => exact absurd ⟨result, rfl⟩ hended
        | _ => simp [Tunnel.step, Runner.step, hphase, hchanged]
  | sleeping deadline =>
      refine Or.inr ⟨.interrupted, by simp, { t with runner := t.runner.leave },
        ?_, rfl⟩
      simp [Tunnel.step, Runner.step, hphase, hchanged]
  | stopped => exact Or.inl (Or.inl hphase)
  | fatal => exact Or.inl (Or.inr hphase)

/-! ## The last status -/

/-- What was published last fits the way in which the loop ended. -/
structure Tunnel.Closed (t : Tunnel) : Prop where
  idle : t.runner.phase = .stopped → t.runner.published.head? = some .idle
  fatal : t.runner.phase = .fatal → ∃ reason,
    t.runner.published.head? = some (.fatal reason)
  kept : ∀ reason, .fatal reason ∈ t.runner.published →
    t.runner.phase = .fatal ∧ t.runner.published.head? = some (.fatal reason)

/-- No `Fatal` was published by a loop that goes on. -/
theorem Tunnel.Closed.none_published (ht : t.Closed) (hphase : t.runner.phase ≠ .fatal)
    (reason : String) : .fatal reason ∉ t.runner.published :=
  fun hmem => hphase (ht.kept reason hmem).1

/-- A step that publishes nothing more and does not end the loop. -/
theorem Tunnel.Closed.quiet (ht : t.Closed) (hphase : t.runner.phase ≠ .fatal)
    (hnext : ∀ reason, .fatal reason ∈ t'.runner.published →
      .fatal reason ∈ t.runner.published)
    (hphase' : ¬t'.runner.Over) : t'.Closed where
  idle h := absurd (Or.inl h) hphase'
  fatal h := absurd (Or.inr h) hphase'
  kept reason hmem := absurd (hnext reason hmem) (ht.none_published hphase reason)

theorem Tunnel.Closed.leave (ht : t.Closed) (hphase : t.runner.phase ≠ .fatal) :
    Tunnel.Closed { t with runner := t.runner.leave } where
  idle _ := rfl
  fatal h := by cases h
  kept reason hmem := by
    obtain hnew | hold := List.mem_cons.mp hmem
    · cases hnew
    · exact absurd hold (ht.none_published hphase reason)

theorem Tunnel.Closed.step (ht : t.Closed) (h : t.step hmac cfg label = some t') :
    t'.Closed := by
  obtain ⟨ms, -, rfl⟩ | ⟨l, r', rfl, hmove, rfl⟩ := Tunnel.step_cases h
  · exact ⟨ht.idle, ht.fatal, ht.kept⟩
  · cases hmove with
    | begun hphase =>
        apply ht.quiet (by simp [hphase]) ?_ (by simp [Runner.Over, Runner.publish])
        intro reason hmem
        simpa [Runner.publish] using hmem
    | notBegun hphase => exact ht.leave (by simp [hphase])
    | session hphase hmove =>
        apply ht.quiet (by simp [hphase]) ?_ (by simp [Runner.Over, Runner.enter])
        intro reason hmem
        obtain hnew | hold := List.mem_append.mp hmem
        · exact absurd (by simpa using hnew) (hmove.status reason)
        · exact hold
    | interrupted hawaits =>
        apply ht.leave
        obtain ⟨stage, hphase, -⟩ | ⟨deadline, hphase⟩ := hawaits <;> simp [hphase]
    | left hphase => exact ht.leave (by simp [hphase])
    | again hphase =>
      exact ht.quiet (by simp [hphase]) (fun _ => id) (by simp [Runner.Over])
    | @fatal reason hphase =>
        have hnone := ht.none_published (by simp [hphase])
        refine ⟨fun hidle => (by cases hidle), fun _ => ⟨reason, rfl⟩,
          fun reason' hmem => ?_⟩
        obtain hnew | hold := List.mem_cons.mp hmem
        · exact ⟨rfl, by rw [hnew]; rfl⟩
        · exact absurd hold (hnone reason')
    | retry hphase =>
        apply ht.quiet (by simp [hphase]) ?_ (by simp [Runner.Over, Runner.retry])
        intro reason hmem
        simpa [Runner.retry] using hmem
    | woken hphase =>
      exact ht.quiet (by simp [hphase]) (fun _ => id) (by simp [Runner.Over])
    | stop => exact ⟨ht.idle, ht.fatal, ht.kept⟩
    | drop => exact ⟨ht.idle, ht.fatal, ht.kept⟩

theorem closed_of_reachable (h : (spawned hmac cfg).Reachable t) : t.Closed := by
  apply h.invariant
  · constructor <;> simp [spawned, Runner.init]
  · intro s label s' _ hs hstep
    exact hs.step hstep

/-! ## How the loop comes to an end -/

/-- A loop that stopped was told to, as long as its channel is not closed before. -/
structure Tunnel.Answerable (t : Tunnel) : Prop where
  stopped : t.runner.phase = .stopped → t.Told
  dropped : t.runner.dropped = true → t.Told ∨ t.runner.Over

/-- A step of a loop that goes on leaves the flags as they are. -/
theorem Tunnel.Answerable.goesOn (ht : t.Answerable) {r : Runner}
    (hover : ¬t.runner.Over) (hphase : r.phase ≠ .stopped)
    (hshutdown : r.shutdown = t.runner.shutdown)
    (hdropped : r.dropped = t.runner.dropped) :
    Tunnel.Answerable { t with runner := r } where
  stopped h := absurd h hphase
  dropped h := by
    have htold : t.Told := (ht.dropped (hdropped ▸ h)).resolve_right hover
    exact Or.inl (hshutdown.trans htold)

theorem Tunnel.Answerable.step (ht : t.Answerable) (hkeeps : KeepsHandle t label)
    (h : t.step hmac cfg label = some t') : t'.Answerable := by
  obtain ⟨ms, -, rfl⟩ | ⟨l, r', rfl, hmove, rfl⟩ := Tunnel.step_cases h
  · exact ⟨ht.stopped, ht.dropped⟩
  · cases hmove with
    | begun hphase =>
        exact ht.goesOn (by simp [Runner.Over, hphase])
          (by simp [Runner.publish]) rfl rfl
    | notBegun hphase htold => exact ⟨fun _ => htold, fun _ => Or.inl htold⟩
    | session hphase =>
        exact ht.goesOn (by simp [Runner.Over, hphase]) (by simp [Runner.enter]) rfl rfl
    | interrupted hawaits hchanged =>
        have hover : ¬t.runner.Over := by
          obtain ⟨stage, hphase, -⟩ | ⟨deadline, hphase⟩ := hawaits <;>
            simp [Runner.Over, hphase]
        have htold : t.Told := by
          obtain htold | hdropped := Bool.or_eq_true_iff.mp hchanged
          · exact htold
          · exact (ht.dropped hdropped).resolve_right hover
        exact ⟨fun _ => htold, fun _ => Or.inl htold⟩
    | left hphase htold => exact ⟨fun _ => htold, fun _ => Or.inl htold⟩
    | again hphase => exact ht.goesOn (by simp [Runner.Over, hphase]) (by simp) rfl rfl
    | fatal hphase =>
        exact ⟨fun hstopped => (by cases hstopped), fun _ => Or.inr (Or.inr rfl)⟩
    | retry hphase =>
        exact ht.goesOn (by simp [Runner.Over, hphase]) (by simp [Runner.retry]) rfl rfl
    | woken hphase => exact ht.goesOn (by simp [Runner.Over, hphase]) (by simp) rfl rfl
    | stop => exact ⟨fun _ => rfl, fun _ => Or.inl rfl⟩
    | drop => exact ⟨ht.stopped, fun _ => hkeeps rfl⟩

/-- A tunnel that ended in `Fatal` had a session that returned it. -/
theorem returnedFatal_of_run {history : List (Tunnel × TunnelLabel)} {reason : String}
    (h : (spawned hmac cfg).Run history t) (hphase : t.runner.phase = .fatal)
    (hhead : t.runner.published.head? = some (.fatal reason)) :
    ReturnedFatal reason history := by
  have hinit : ¬((spawned hmac cfg).init.runner.phase = .fatal ∧
      (spawned hmac cfg).init.runner.published.head? = some (.fatal reason)) := by
    simp [spawned, Runner.init]
  obtain ⟨⟨t, label⟩, hentry, t', hstep, hbefore, hafter, hhead'⟩ :=
    h.exists_cause (P := fun t => t.runner.phase = .fatal ∧
      t.runner.published.head? = some (.fatal reason)) hinit ⟨hphase, hhead⟩
  obtain ⟨ms, -, rfl⟩ | ⟨l, r', rfl, hmove, rfl⟩ := Tunnel.step_cases hstep
  · exact absurd ⟨hafter, hhead'⟩ hbefore
  · cases hmove with
    | fatal hended =>
        cases hhead'
        exact ⟨_, hentry, rfl, hended⟩
    | stop => exact absurd ⟨hafter, hhead'⟩ hbefore
    | drop => exact absurd ⟨hafter, hhead'⟩ hbefore
    | _ => cases hafter

end Steps

/-- The life cycle holds at every moment of every run in which the handle is kept
until the loop is told to stop or has ended. -/
theorem orderly_of_run (hmac : Hmac) (cfg : ClientConfig)
    (history : List (Tunnel × TunnelLabel)) (t : Tunnel)
    (hrun : (spawned hmac cfg).Run history t)
    (hkeeps : System.Always KeepsHandle history) : Orderly hmac cfg history t := by
  have hcalled := stopCalled_iff hrun
  have hclosed := closed_of_reachable hrun.reachable
  have hanswerable : t.Answerable := by
    apply hrun.invariant_of_always hkeeps
    · constructor <;> simp [spawned, Runner.init]
    · intro s label s' _ hs hcond hstep
      exact hs.step hcond hstep
  constructor
  · exact fun h => ⟨hcalled.mpr (hanswerable.stopped h), hclosed.idle h⟩
  · intro h
    obtain ⟨reason, hhead⟩ := hclosed.fatal h
    exact ⟨reason, returnedFatal_of_run hrun h hhead, hhead⟩
  · exact hclosed.kept
  · intro h label t' hstep hphase
    exact (hcalled.mp h).noneBegun hstep hphase
  · intro h
    exact (hcalled.mp h).seen

/-! ## Fixed runs -/

def homeClient : ClientConfig where
  relayHost := "relay.example.com"
  controlPort := 7100
  clientId := "mac"
  token := "mac-0123456789abcdef"
  name := "share"
  remotePort := 8080
  localPort := 5000
  tls := false

/-- The relay cannot be reached, and `stop` is called in the wait. -/
theorem orderly_of_run_sample : ∃ history t,
    (spawned Sha256.hmac homeClient).Run history t ∧ t.runner.phase = .stopped ∧
      Orderly Sha256.hmac homeClient history t := by
  have hexec :
      (spawned Sha256.hmac homeClient).exec (spawned Sha256.hmac homeClient).init
      [.act .begin, .act (.connected false), .act .finish, .elapse 200, .act .stop,
        .act .interrupted] =
      some ⟨200, ⟨.stopped, 2, 1, true, false,
        [.idle, .retrying .connect 1, .connecting, .connecting]⟩⟩ := rfl
  have hothers :
      ∀ label ∈ [TunnelLabel.act .begin, .act (.connected false), .act .finish,
      .elapse 200, .act .stop, .act .interrupted], ∀ t, KeepsHandle t label := by
    simp [KeepsHandle]
  obtain ⟨history, hrun, hkeeps⟩ :=
    System.Run.start.always_of_exec System.Always.nil hexec hothers
  exact ⟨history, _, hrun, rfl, orderly_of_run _ _ _ _ hrun hkeeps⟩

/-- A handle that is dropped ends the loop without a word from `stop`. -/
theorem drop_ends_the_loop : ∃ history t,
    (spawned Sha256.hmac homeClient).Run history t ∧
      history.map Prod.snd = [.act .interrupted, .act .drop, .act .begin] ∧
      t.runner.phase = .stopped ∧ ¬StopCalled history ∧
      ¬Orderly Sha256.hmac homeClient history t := by
  have hexec :
      (spawned Sha256.hmac homeClient).exec (spawned Sha256.hmac homeClient).init
      [.act .begin, .act .drop, .act .interrupted] =
      some ⟨0, ⟨.stopped, 1, 0, false, true, [.idle, .connecting, .connecting]⟩⟩ := rfl
  obtain ⟨history, hrun, hlabels⟩ := System.Run.start.of_exec hexec
  rw [List.append_nil] at hrun
  have hnot : ¬StopCalled history := by
    intro hcalled
    cases (stopCalled_iff hrun).mp hcalled
  exact ⟨history, _, hrun, hlabels, rfl, hnot, fun h => hnot (h.stopped rfl).1⟩

end Yunpan.Client
