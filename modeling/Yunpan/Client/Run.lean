import Yunpan.Client.Session

/-!
# The reconnect loop of the client

`run` starts one session after another.  A session that ends well is followed at
once by the next, a fatal one by none, any other after a wait that doubles up to
its limit.  Stopping the tunnel is seen at every await.
-/

namespace Yunpan.Client

open Yunpan.Protocol

/-- `BACKOFF_START_SECS`. -/
def backoffStartSecs : ℕ := 1

/-- `BACKOFF_MAX_SECS`. -/
def backoffMaxSecs : ℕ := 30

/-- Where `run` stands: at the head of its loop, in a session, in the wait before
the next one, or over. -/
inductive RunPhase where
  | top
  | session (stage : SessionStage)
  | sleeping (deadline : ℕ)
  | stopped
  | fatal
  deriving DecidableEq

/-- The state of `run`.  `published` holds what went into the status channel, newest
first; `shutdown` is the value of the shutdown channel, `dropped` says that its
sender is gone.  Time is in milliseconds. -/
structure Runner where
  phase : RunPhase
  backoff : ℕ
  attempt : UInt32
  shutdown : Bool
  dropped : Bool
  published : List RelayStatus
  deriving DecidableEq

/-- The state that `spawn` makes. -/
def Runner.init : Runner where
  phase := .top
  backoff := backoffStartSecs
  attempt := 0
  shutdown := false
  dropped := false
  published := [.connecting]

inductive RunLabel where
  | begin
  | connected (ok : Bool)
  | written (ok : Bool)
  | read (msg : Option ServerMsg)
  | shutdownSeen
  | interrupted
  | finish
  | wake
  | stop
  | drop

/-- `shutdown_rx.changed()` returns. -/
def Runner.changed (r : Runner) : Bool := r.shutdown || r.dropped

def Runner.publish (r : Runner) (status : RelayStatus) : Runner :=
  { r with published := status :: r.published }

/-- The loop is left and `Idle` published. -/
def Runner.leave (r : Runner) : Runner := { r with phase := .stopped }.publish .idle

def Runner.begin (r : Runner) : Option Runner :=
  match r.phase with
  | .top =>
      if r.shutdown then some r.leave
      else some ({ r with phase := .session .connecting }.publish .connecting)
  | _ => none

/-- A step of the session. -/
def Runner.enter (r : Runner) (next : SessionStage × Option RelayStatus) : Runner :=
  { r with
    phase := .session next.1
    published := next.2.toList ++ r.published }

/-- The branches on the result of a session. -/
def Runner.finish (now : ℕ) (r : Runner) : Option Runner :=
  match r.phase with
  | .session (.ended result) =>
      if r.shutdown then some r.leave
      else
        match result with
        | none =>
            some { r with phase := .top, attempt := 0, backoff := backoffStartSecs }
        | some (.fatal reason) =>
            some ({ r with phase := .fatal }.publish (.fatal reason))
        | some error =>
            let r := { r with attempt := r.attempt + 1 }
            let r := r.publish (.retrying error r.attempt)
            some { r with
              phase := .sleeping (now + r.backoff * 1000)
              backoff := min (r.backoff * 2) backoffMaxSecs }
  | _ => none

def Runner.step (hmac : Hmac) (cfg : ClientConfig) (now : ℕ) (r : Runner) :
    RunLabel → Option Runner
  | .begin => r.begin
  | .connected ok =>
      match r.phase with
      | .session .connecting => some (r.enter (SessionStage.connected ok, none))
      | _ => none
  | .written ok =>
      match r.phase with
      | .session stage =>
          if (stage.frame cfg).isSome then some (r.enter (stage.written ok, none))
          else none
      | _ => none
  | .read msg =>
      match r.phase with
      | .session stage =>
          if stage.reads then some (r.enter (stage.read hmac cfg msg)) else none
      | _ => none
  | .shutdownSeen =>
      match r.phase with
      | .session .loop => if r.changed then some (r.enter (.sendBye, none)) else none
      | _ => none
  | .interrupted =>
      match r.phase with
      | .session (.ended _) => none
      | .session _ => if r.changed then some r.leave else none
      | .sleeping _ => if r.changed then some r.leave else none
      | _ => none
  | .finish => r.finish now
  | .wake =>
      match r.phase with
      | .sleeping deadline =>
          if deadline ≤ now then some { r with phase := .top } else none
      | _ => none
  | .stop => some { r with shutdown := true }
  | .drop => some { r with dropped := true }

/-- The frame that is being written. -/
def Runner.frame (cfg : ClientConfig) (r : Runner) : Option ClientMsg :=
  match r.phase with
  | .session stage => stage.frame cfg
  | _ => none

def Runner.asking (r : Runner) : ℕ :=
  match r.phase with
  | .session stage => stage.asking
  | _ => 0

/-! ## What a step can do -/

/-- A step of `run` that is a step of its session. -/
inductive SessionMove (hmac : Hmac) (cfg : ClientConfig) (stage : SessionStage) :
    RunLabel → SessionStage × Option RelayStatus → Prop
  | connected {ok : Bool} : stage = .connecting →
      SessionMove hmac cfg stage (.connected ok) (SessionStage.connected ok, none)
  | written {ok : Bool} : (stage.frame cfg).isSome = true →
      SessionMove hmac cfg stage (.written ok) (stage.written ok, none)
  | read {msg : Option ServerMsg} : stage.reads = true →
      SessionMove hmac cfg stage (.read msg) (stage.read hmac cfg msg)
  | shutdown : stage = .loop →
      SessionMove hmac cfg stage .shutdownSeen (.sendBye, none)

theorem SessionStage.ofHandshake_ne (stage : Handshake) :
    SessionStage.ofHandshake stage ≠ .connecting := by
  cases stage <;> exact nofun

/-- No session connects twice. -/
theorem SessionMove.ne_connecting {hmac : Hmac} {cfg : ClientConfig}
    {stage : SessionStage} {label : RunLabel} {next : SessionStage × Option RelayStatus}
    (h : SessionMove hmac cfg stage label next) : next.1 ≠ .connecting := by
  cases h with
  | @connected ok => cases ok <;> exact nofun
  | @written ok hframe =>
      cases stage with
      | handshake stage => exact SessionStage.ofHandshake_ne _
      | connecting => cases hframe
      | _ => cases ok <;> exact nofun
  | @read msg hreads =>
      cases stage with
      | handshake stage => exact SessionStage.ofHandshake_ne _
      | loop =>
          cases msg with
          | none => exact nofun
          | some msg => cases msg <;> exact nofun
      | _ => cases hreads
  | shutdown => exact nofun

/-- Another session is due after a wait. -/
def Runner.retry (now : ℕ) (error : SessionError) (r : Runner) : Runner where
  phase := .sleeping (now + r.backoff * 1000)
  backoff := min (r.backoff * 2) backoffMaxSecs
  attempt := r.attempt + 1
  shutdown := r.shutdown
  dropped := r.dropped
  published := .retrying error (r.attempt + 1) :: r.published

/-- `run` waits in one of its selects. -/
def Runner.Awaits (r : Runner) : Prop :=
  (∃ stage, r.phase = .session stage ∧ ∀ result, stage ≠ .ended result) ∨
    ∃ deadline, r.phase = .sleeping deadline

/-- What a step of `run` does, branch by branch. -/
inductive Runner.Moves (hmac : Hmac) (cfg : ClientConfig) (now : ℕ) (r : Runner) :
    RunLabel → Runner → Prop
  | begun : r.phase = .top → r.shutdown = false →
      Moves hmac cfg now r .begin
        ({ r with phase := .session .connecting }.publish .connecting)
  | notBegun : r.phase = .top → r.shutdown = true → Moves hmac cfg now r .begin r.leave
  | session {stage : SessionStage} {label : RunLabel}
      {next : SessionStage × Option RelayStatus} : r.phase = .session stage →
      SessionMove hmac cfg stage label next → Moves hmac cfg now r label (r.enter next)
  | interrupted : r.Awaits → r.changed = true →
      Moves hmac cfg now r .interrupted r.leave
  | left {result : Option SessionError} : r.phase = .session (.ended result) →
      r.shutdown = true → Moves hmac cfg now r .finish r.leave
  | again : r.phase = .session (.ended none) → r.shutdown = false →
      Moves hmac cfg now r .finish
        { r with phase := .top, attempt := 0, backoff := backoffStartSecs }
  | fatal {reason : String} : r.phase = .session (.ended (some (.fatal reason))) →
      r.shutdown = false →
      Moves hmac cfg now r .finish ({ r with phase := .fatal }.publish (.fatal reason))
  | retry {error : SessionError} : r.phase = .session (.ended (some error)) →
      error.isFatal = false → r.shutdown = false →
      Moves hmac cfg now r .finish (r.retry now error)
  | woken {deadline : ℕ} : r.phase = .sleeping deadline → deadline ≤ now →
      Moves hmac cfg now r .wake { r with phase := .top }
  | stop : Moves hmac cfg now r .stop { r with shutdown := true }
  | drop : Moves hmac cfg now r .drop { r with dropped := true }

theorem Runner.finish_moves {hmac : Hmac} {cfg : ClientConfig} {now : ℕ} {r r' : Runner}
    (h : r.finish now = some r') : r.Moves hmac cfg now .finish r' := by
  unfold Runner.finish at h
  split at h
  case h_1 result hphase =>
    split at h
    case isTrue hshutdown => cases h; exact .left hphase hshutdown
    case isFalse hshutdown =>
      have hrunning : r.shutdown = false := Bool.eq_false_iff.mpr hshutdown
      split at h
      case h_1 => cases h; exact .again hphase hrunning
      case h_2 => cases h; exact .fatal hphase hrunning
      case h_3 error hfatal =>
        cases h
        apply Runner.Moves.retry hphase ?_ hrunning
        cases error with
        | fatal reason => exact absurd rfl (hfatal reason)
        | _ => rfl
  case h_2 => cases h

theorem Runner.step_moves {hmac : Hmac} {cfg : ClientConfig} {now : ℕ} {r r' : Runner}
    {label : RunLabel} (h : r.step hmac cfg now label = some r') :
    r.Moves hmac cfg now label r' := by
  cases label <;> simp only [Runner.step, Runner.begin] at h
  case begin =>
    split at h
    case h_1 hphase =>
      split at h
      case isTrue hshutdown => cases h; exact .notBegun hphase hshutdown
      case isFalse hshutdown =>
        cases h
        exact .begun hphase (Bool.eq_false_iff.mpr hshutdown)
    case h_2 => cases h
  case connected ok =>
    split at h
    case h_1 hphase => cases h; exact .session hphase (.connected rfl)
    case h_2 => cases h
  case written ok =>
    split at h
    case h_1 stage hphase =>
      obtain ⟨hframe, rfl⟩ := by simpa only [Option.ite_none_right_eq_some,
        Option.some.injEq] using h
      exact .session hphase (.written hframe)
    case h_2 => cases h
  case read msg =>
    split at h
    case h_1 stage hphase =>
      obtain ⟨hreads, rfl⟩ := by simpa only [Option.ite_none_right_eq_some,
        Option.some.injEq] using h
      exact .session hphase (.read hreads)
    case h_2 => cases h
  case shutdownSeen =>
    split at h
    case h_1 hphase =>
      obtain ⟨-, rfl⟩ := by simpa using h
      exact .session hphase (.shutdown rfl)
    case h_2 => cases h
  case interrupted =>
    split at h
    case h_1 => cases h
    case h_2 stage hnot hphase =>
      obtain ⟨hchanged, rfl⟩ := by simpa using h
      exact .interrupted (Or.inl ⟨stage, hphase, hnot⟩) hchanged
    case h_3 deadline hphase =>
      obtain ⟨hchanged, rfl⟩ := by simpa using h
      exact .interrupted (Or.inr ⟨deadline, hphase⟩) hchanged
    case h_4 => cases h
  case finish => exact Runner.finish_moves h
  case wake =>
    split at h
    case h_1 deadline hphase =>
      obtain ⟨hdue, rfl⟩ := by simpa using h
      exact .woken hphase hdue
    case h_2 => cases h
  case stop => cases h; exact .stop
  case drop => cases h; exact .drop

/-- What a step that leaves the sessions publishes: at most one status, and `Fatal`
only after a session that ended so. -/
def Runner.Publishes (r r' : Runner) : Prop :=
  r'.published = r.published ∨ ∃ status, r'.published = status :: r.published ∧
    ∀ reason, status = .fatal reason →
      r.phase = .session (.ended (some (.fatal reason)))

/-- A step of `run`: its session moves, a session begins, none is left, or only the
handle was used. -/
inductive RunMove (hmac : Hmac) (cfg : ClientConfig) (r : Runner) :
    RunLabel → Runner → Prop
  | session {stage : SessionStage} {label : RunLabel}
      {next : SessionStage × Option RelayStatus} : r.phase = .session stage →
      SessionMove hmac cfg stage label next → RunMove hmac cfg r label (r.enter next)
  | begun {r' : Runner} : r'.phase = .session .connecting →
      r'.published = .connecting :: r.published → RunMove hmac cfg r .begin r'
  | outside {label : RunLabel} {r' : Runner} : (∀ stage, r'.phase ≠ .session stage) →
      r.Publishes r' → (∀ ok, label ≠ .written ok) → RunMove hmac cfg r label r'
  | handle {label : RunLabel} {r' : Runner} : label = .stop ∨ label = .drop →
      r'.phase = r.phase → r'.published = r.published → RunMove hmac cfg r label r'

theorem RunMove.leave {hmac : Hmac} {cfg : ClientConfig} {r : Runner} {label : RunLabel}
    (hlabel : ∀ ok, label ≠ .written ok) : RunMove hmac cfg r label r.leave :=
  .outside (by simp [Runner.leave, Runner.publish])
    (Or.inr ⟨.idle, rfl, by simp⟩) hlabel

theorem Runner.step_cases {hmac : Hmac} {cfg : ClientConfig} {now : ℕ} {r r' : Runner}
    {label : RunLabel} (h : r.step hmac cfg now label = some r') :
    RunMove hmac cfg r label r' := by
  cases Runner.step_moves h with
  | begun => exact .begun rfl rfl
  | notBegun | interrupted | left => exact .leave (by simp)
  | session hphase hmove => exact .session hphase hmove
  | again => exact .outside (by simp) (Or.inl rfl) (by simp)
  | @fatal reason hphase =>
      refine .outside (by simp [Runner.publish]) (Or.inr ⟨_, rfl, ?_⟩) (by simp)
      rintro _ ⟨⟩
      exact hphase
  | retry =>
    exact .outside (by simp [Runner.retry]) (Or.inr ⟨_, rfl, by simp⟩) (by simp)
  | woken => exact .outside (by simp) (Or.inl rfl) (by simp)
  | stop => exact .handle (Or.inl rfl) rfl rfl
  | drop => exact .handle (Or.inr rfl) rfl rfl

/-! ## A run that is not fatal -/

/-- `Fatal` was never published and is not about to be. -/
structure Runner.Safe (r : Runner) : Prop where
  published : ∀ reason, .fatal reason ∉ r.published
  session : ∀ stage, r.phase = .session stage → ¬stage.IsFatal

theorem Runner.safe_init : Runner.init.Safe := by
  constructor <;> simp [Runner.init]

theorem SessionMove.isFatal {hmac : Hmac} {cfg : ClientConfig} {stage : SessionStage}
    {label : RunLabel} {next : SessionStage × Option RelayStatus}
    (h : SessionMove hmac cfg stage label next) (hfatal : next.1.IsFatal) :
    stage.IsFatal ∨ ∃ msg, label = .read (some msg) ∧ msg.refuses = true := by
  cases h with
  | @connected ok => cases ok <;> cases hfatal
  | written => exact Or.inl (SessionStage.written_isFatal hfatal)
  | read =>
      obtain hold | ⟨msg, rfl, hrefuses⟩ := SessionStage.read_isFatal hfatal
      · exact Or.inl hold
      · exact Or.inr ⟨msg, rfl, hrefuses⟩
  | shutdown => cases hfatal

theorem SessionMove.status {hmac : Hmac} {cfg : ClientConfig} {stage : SessionStage}
    {label : RunLabel} {next : SessionStage × Option RelayStatus}
    (h : SessionMove hmac cfg stage label next) (reason : String) :
    next.2 ≠ some (.fatal reason) := by
  cases h with
  | read => exact SessionStage.read_status
  | _ => simp

/-- A run that reads no refusal does not become fatal. -/
theorem Runner.Safe.step {hmac : Hmac} {cfg : ClientConfig} {now : ℕ} {r r' : Runner}
    {label : RunLabel} (h : r.Safe) (hstep : r.step hmac cfg now label = some r')
    (hread : ∀ msg, label = .read (some msg) → msg.refuses = false) : r'.Safe := by
  cases Runner.step_cases hstep with
  | @session stage _ next hphase hmove =>
      refine ⟨fun reason hmem => ?_, ?_⟩
      · rcases List.mem_append.mp hmem with hnew | hold
        · exact hmove.status reason (by simpa using hnew)
        · exact h.published reason hold
      · rintro _ ⟨⟩ hfatal
        obtain hold | ⟨msg, rfl, hrefuses⟩ := hmove.isFatal hfatal
        · exact h.session stage hphase hold
        · rw [hread msg rfl] at hrefuses
          cases hrefuses
  | begun hphase hpublished =>
      refine ⟨fun reason hmem => ?_, fun stage hstage => ?_⟩
      · rw [hpublished] at hmem
        exact h.published reason (by simpa using hmem)
      · rw [hphase] at hstage
        cases hstage
        exact id
  | outside hnot hpublishes =>
      refine ⟨fun reason hmem => ?_, fun stage hstage => absurd hstage (hnot stage)⟩
      obtain hsame | ⟨status, hnew, hfatal⟩ := hpublishes
      · exact h.published reason (hsame ▸ hmem)
      · rw [hnew, List.mem_cons] at hmem
        rcases hmem with heq | hold
        · exact h.session _ (hfatal reason heq.symm) rfl
        · exact h.published reason hold
  | handle _ hphase hpublished =>
      exact ⟨fun reason hmem => h.published reason (hpublished ▸ hmem),
        fun stage hstage => h.session stage (hphase ▸ hstage)⟩

end Yunpan.Client
