import Yunpan.Core.Transition

/-!
# A running file server and its end

A running server is an accept loop for every address and a task for every
connection that a loop has accepted.  A request can hand work over to the runtime,
which goes on by itself.  Each loop and each connection has its own receiver of the
stop signal; stopping sends the signal and waits for the loops.
-/

namespace Yunpan.Dufs

open Yunpan.Transition

/-! ## The server's tasks -/

inductive LoopPhase where
  | selecting
  | handshaking
  | ended
  deriving DecidableEq

/-- An accept loop and the version of the signal that its receiver has seen.  The
loop owns its listener, which is closed when the loop ends. -/
structure AcceptLoop where
  phase : LoopPhase
  seen : ℕ
  deriving DecidableEq

inductive Shutdown where
  | none
  | joining (next : ℕ)
  | returned
  deriving DecidableEq

/-- `streams` are the `handle_stream` tasks that were spawned: the version that the
receiver of a running one has seen, or `none` when it has ended.  `jobs` counts what
requests have left to the runtime: file operations, searches, archives. -/
structure RunningServer where
  loops : List AcceptLoop
  running : Bool
  version : ℕ
  streams : List (Option ℕ)
  jobs : ℕ
  shutdown : Shutdown
  deriving DecidableEq

inductive ServeLabel where
  | accept (loop : ℕ) (ok : Bool)
  | handshake (loop : ℕ) (ok : Bool)
  | leave (loop : ℕ)
  | act (stream : ℕ)
  | submit (stream : ℕ)
  | finish (stream : ℕ)
  | cut (stream : ℕ)
  | jobActs
  | jobEnds
  | shutdown
  | join
  | returns
  deriving DecidableEq

namespace RunningServer

/-- A server that has just been started, with a loop for every address. -/
def start (addrs : ℕ) : RunningServer where
  loops := List.replicate addrs ⟨.selecting, 0⟩
  running := true
  version := 0
  streams := []
  jobs := 0
  shutdown := .none

variable (s : RunningServer)

def setPhase (i : ℕ) (phase : LoopPhase) : RunningServer :=
  { s with loops := s.loops.modify i fun l => { l with phase } }

/-- A connection's task gets a copy of the receiver of its loop. -/
def spawn (seen : ℕ) : RunningServer := { s with streams := s.streams ++ [some seen] }

def endStream (stream : ℕ) : RunningServer :=
  { s with streams := s.streams.set stream none }

/-- With TLS the loop itself does the handshake before it spawns the task. -/
def accept (tls : Bool) (i : ℕ) (ok : Bool) : Option RunningServer :=
  match s.loops[i]? with
  | some ⟨.selecting, seen⟩ =>
      if ok then some (if tls then s.setPhase i .handshaking else s.spawn seen)
      else some s
  | _ => none

def handshake (i : ℕ) (ok : Bool) : Option RunningServer :=
  match s.loops[i]? with
  | some ⟨.handshaking, seen⟩ =>
      let s := s.setPhase i .selecting
      some (if ok then s.spawn seen else s)
  | _ => none

def leave (i : ℕ) : Option RunningServer :=
  match s.loops[i]? with
  | some ⟨.selecting, seen⟩ =>
      if seen < s.version then some (s.setPhase i .ended) else none
  | _ => none

/-- What a running `handle_stream` task does. -/
def streamStep (stream : ℕ) (next : ℕ → Option RunningServer) : Option RunningServer :=
  match s.streams[stream]? with
  | some (some seen) => next seen
  | _ => none

def jobStep (next : RunningServer) : Option RunningServer :=
  if s.jobs = 0 then none else some next

/-- `RunningServer::shutdown` up to its first await. -/
def beginShutdown : Option RunningServer :=
  if s.shutdown = .none then
    some { s with running := false, version := s.version + 1, shutdown := .joining 0 }
  else none

/-- The next handle has ended. -/
def join : Option RunningServer :=
  match s.shutdown with
  | .joining k =>
      if (s.loops[k]?.map AcceptLoop.phase) = some .ended then
        some { s with shutdown := .joining (k + 1) }
      else none
  | _ => none

def returns : Option RunningServer :=
  if s.shutdown = .joining s.loops.length then some { s with shutdown := .returned }
  else none

def step (tls : Bool) : ServeLabel → Option RunningServer
  | .accept i ok => s.accept tls i ok
  | .handshake i ok => s.handshake i ok
  | .leave i => s.leave i
  | .act stream => s.streamStep stream fun _ => some s
  | .submit stream => s.streamStep stream fun _ => some { s with jobs := s.jobs + 1 }
  | .finish stream => s.streamStep stream fun _ => some (s.endStream stream)
  | .cut stream =>
      s.streamStep stream fun seen =>
        if seen < s.version then some (s.endStream stream) else none
  | .jobActs => s.jobStep s
  | .jobEnds => s.jobStep { s with jobs := s.jobs - 1 }
  | .shutdown => s.beginShutdown
  | .join => s.join
  | .returns => s.returns

/-- Every accept loop has ended, and with it its listener. -/
def Over : Prop := ∀ l ∈ s.loops, l.phase = .ended

instance : Decidable s.Over := inferInstanceAs (Decidable (∀ l ∈ s.loops, _))

/-- No connection is served, and no work is left from one. -/
def Quiet : Prop := (∀ stream ∈ s.streams, stream = none) ∧ s.jobs = 0

instance : Decidable s.Quiet := inferInstanceAs (Decidable (_ ∧ _))

end RunningServer

def server (tls : Bool) (addrs : ℕ) : System RunningServer ServeLabel where
  init := .start addrs
  step s label := s.step tls label

/-- A step in which a request touches the shared folder. -/
def ServeLabel.acts : ServeLabel → Bool
  | .act _ => true
  | .jobActs => true
  | _ => false

/-- The last accept loop leaves only when no connection is served and no work is
left. -/
def LeavesQuiet (s : RunningServer) : ServeLabel → Prop
  | .leave i => (s.setPhase i .ended).Over → s.Quiet
  | _ => True

instance (s : RunningServer) (label : ServeLabel) :
    Decidable (LeavesQuiet s label) := by
  cases label <;> unfold LeavesQuiet <;> infer_instance

/-! ## What a step does -/

namespace RunningServer

variable {s s' : RunningServer} {tls : Bool} {label : ServeLabel}

/-- Loop `i` has ended. -/
def Ended (s : RunningServer) (i : ℕ) : Prop :=
  s.loops[i]?.map AcceptLoop.phase = some .ended

theorem setPhase_same {i : ℕ} {l : AcceptLoop} (h : s.loops[i]? = some l) :
    (s.setPhase i l.phase).loops = s.loops := by
  apply List.ext_getElem?
  intro j
  by_cases hj : j = i
  · subst hj
    simp [setPhase, h]
  · simp [setPhase, Ne.symm hj]

theorem ended_setPhase_iff {i j : ℕ} {phase : LoopPhase} :
    (s.setPhase i phase).Ended j ↔
      if j = i then j < s.loops.length ∧ phase = .ended else s.Ended j := by
  by_cases hj : j = i
  · subst hj
    by_cases hlt : j < s.loops.length <;> simp [Ended, setPhase, hlt]
  · simp [Ended, setPhase, hj, Ne.symm hj]

theorem over_iff : s.Over ↔ ∀ i < s.loops.length, s.Ended i := by
  rw [Over, List.forall_mem_iff_forall_getElem]
  constructor
  · intro h i hi
    simp [Ended, hi, h i hi]
  · intro h i hi
    simpa [Ended, hi] using h i hi

/-- A stream that is accepted is served at once or, with TLS, after a handshake. -/
theorem accept_cases {i : ℕ} {ok : Bool} (h : s.accept tls i ok = some s') :
    ∃ seen, s.loops[i]? = some ⟨.selecting, seen⟩ ∧
      (s' = s ∨ s' = s.setPhase i .handshaking ∨ s' = s.spawn seen) := by
  unfold accept at h
  split at h
  case h_1 seen hloop =>
    refine ⟨seen, hloop, ?_⟩
    cases ok <;> cases tls <;> cases h <;> simp
  case h_2 => cases h

theorem handshake_cases {i : ℕ} {ok : Bool} (h : s.handshake i ok = some s') :
    ∃ seen, s.loops[i]? = some ⟨.handshaking, seen⟩ ∧
      (s' = s.setPhase i .selecting ∨ s' = (s.setPhase i .selecting).spawn seen) := by
  unfold handshake at h
  split at h
  case h_1 seen hloop =>
    refine ⟨seen, hloop, ?_⟩
    cases ok <;> cases h <;> simp
  case h_2 => cases h

/-- A loop leaves only when it has been signalled since it last looked. -/
theorem leave_cases {i : ℕ} (h : s.leave i = some s') :
    ∃ seen, s.loops[i]? = some ⟨.selecting, seen⟩ ∧ seen < s.version ∧
      s' = s.setPhase i .ended := by
  unfold leave at h
  split at h
  case h_1 seen hloop =>
    split at h
    case isTrue hseen =>
      cases h
      exact ⟨seen, hloop, hseen, rfl⟩
    case isFalse => cases h
  case h_2 => cases h

/-- Only a running task does anything. -/
theorem streamStep_cases {stream : ℕ} {next : ℕ → Option RunningServer}
    (h : s.streamStep stream next = some s') :
    ∃ seen, s.streams[stream]? = some (some seen) ∧ next seen = some s' := by
  unfold streamStep at h
  split at h
  case h_1 seen hstream => exact ⟨seen, hstream, h⟩
  case h_2 => cases h

theorem jobStep_cases {next : RunningServer} (h : s.jobStep next = some s') :
    s.jobs ≠ 0 ∧ s' = next := by
  unfold jobStep at h
  split at h
  case isTrue => cases h
  case isFalse hjobs =>
    cases h
    exact ⟨hjobs, rfl⟩

theorem beginShutdown_cases (h : s.beginShutdown = some s') :
    s.shutdown = .none ∧ s' = { s with
      running := false
      version := s.version + 1
      shutdown := .joining 0 } := by
  unfold beginShutdown at h
  split at h
  case isTrue hnone =>
    cases h
    exact ⟨hnone, rfl⟩
  case isFalse => cases h

theorem join_cases (h : s.join = some s') :
    ∃ k, s.shutdown = .joining k ∧ s.Ended k ∧
      s' = { s with shutdown := .joining (k + 1) } := by
  unfold join at h
  split at h
  case h_1 k hk =>
    split at h
    case isTrue hended =>
      cases h
      exact ⟨k, hk, hended, rfl⟩
    case isFalse => cases h
  case h_2 => cases h

theorem returns_cases (h : s.returns = some s') :
    s.shutdown = .joining s.loops.length ∧ s' = { s with shutdown := .returned } := by
  unfold returns at h
  split at h
  case isTrue hall =>
    cases h
    exact ⟨hall, rfl⟩
  case isFalse => cases h

theorem Quiet.no_stream (h : s.Quiet) {stream seen : ℕ} :
    s.streams[stream]? ≠ some (some seen) := by
  intro hstream
  cases h.1 _ (List.mem_of_getElem? hstream)

/-- The ways in which a server moves: a loop that stays open, a loop that leaves, the
work of the connections, and the three stages of stopping. -/
inductive Move (s : RunningServer) (label : ServeLabel) (s' : RunningServer) : Prop
  | loops {i : ℕ} {l : AcceptLoop} {phase : LoopPhase} : s.loops[i]? = some l →
      l.phase ≠ .ended → phase ≠ .ended → s'.loops = (s.setPhase i phase).loops →
      s'.version = s.version → s'.shutdown = s.shutdown → Move s label s'
  | leaves {i : ℕ} : label = .leave i → ¬s.Ended i → i < s.loops.length →
      s' = s.setPhase i .ended → Move s label s'
  | works : s'.loops = s.loops → s'.version = s.version → s'.shutdown = s.shutdown →
      (s.Quiet → s'.Quiet) → Move s label s'
  | signals : s.shutdown = .none → s' = { s with
      running := false
      version := s.version + 1
      shutdown := .joining 0 } → Move s label s'
  | joins {k : ℕ} : s.shutdown = .joining k → s.Ended k →
      s' = { s with shutdown := .joining (k + 1) } → Move s label s'
  | returns : s.shutdown = .joining s.loops.length →
      s' = { s with shutdown := .returned } → Move s label s'

/-- The work of a connection leaves the loops alone. -/
theorem move_of_stream {stream : ℕ} {next : ℕ → Option RunningServer}
    (h : s.streamStep stream next = some s')
    (hsame : ∀ seen, next seen = some s' → s'.loops = s.loops ∧
      s'.version = s.version ∧ s'.shutdown = s.shutdown) : Move s label s' := by
  obtain ⟨seen, hstream, hnext⟩ := streamStep_cases h
  obtain ⟨hloops, hversion, hshutdown⟩ := hsame seen hnext
  exact .works hloops hversion hshutdown fun hquiet => absurd hstream hquiet.no_stream

theorem step_cases (h : s.step tls label = some s') : Move s label s' := by
  cases label with
  | accept i ok =>
      obtain ⟨seen, hloop, rfl | rfl | rfl⟩ := accept_cases h
      · exact .loops hloop (by simp) (by simp) (setPhase_same hloop).symm rfl rfl
      · exact .loops hloop (by simp) (by simp) rfl rfl rfl
      · exact .loops hloop (by simp) (by simp) (setPhase_same hloop).symm rfl rfl
  | handshake i ok =>
      obtain ⟨seen, hloop, rfl | rfl⟩ := handshake_cases h
      · exact .loops hloop (by simp) (by simp) rfl rfl rfl
      · exact .loops hloop (by simp) (by simp) rfl rfl rfl
  | leave i =>
      obtain ⟨seen, hloop, -, heq⟩ := leave_cases h
      obtain ⟨hlt, -⟩ := List.getElem?_eq_some_iff.mp hloop
      exact .leaves rfl (by simp [Ended, hloop]) hlt heq
  | act stream =>
      apply move_of_stream h
      rintro seen ⟨⟩
      exact ⟨rfl, rfl, rfl⟩
  | submit stream =>
      apply move_of_stream h
      rintro seen ⟨⟩
      exact ⟨rfl, rfl, rfl⟩
  | finish stream =>
      apply move_of_stream h
      rintro seen ⟨⟩
      exact ⟨rfl, rfl, rfl⟩
  | cut stream =>
      apply move_of_stream h
      intro seen hnext
      split at hnext <;> cases hnext
      exact ⟨rfl, rfl, rfl⟩
  | jobActs =>
      obtain ⟨-, rfl⟩ := jobStep_cases h
      exact .works rfl rfl rfl id
  | jobEnds =>
      obtain ⟨hjobs, rfl⟩ := jobStep_cases h
      exact .works rfl rfl rfl fun hquiet => absurd hquiet.2 hjobs
  | shutdown =>
      obtain ⟨hnone, heq⟩ := beginShutdown_cases h
      exact .signals hnone heq
  | join =>
      obtain ⟨k, hk, hended, heq⟩ := join_cases h
      exact .joins hk hended heq
  | returns =>
      obtain ⟨hall, heq⟩ := returns_cases h
      exact .returns hall heq

/-! ## What stopping waits for -/

/-- How many handles have been waited for. -/
def joined (s : RunningServer) : ℕ :=
  match s.shutdown with
  | .none => 0
  | .joining next => next
  | .returned => s.loops.length

/-- The signal is sent by stopping only, and what was waited for has ended. -/
structure Awaited (s : RunningServer) : Prop where
  signalled : s.version = 0 ↔ s.shutdown = .none
  ended : ∀ i < s.joined, s.Ended i

theorem ended_of_moved {i j : ℕ} {l : AcceptLoop} {phase : LoopPhase}
    (hloop : s.loops[i]? = some l) (hopen : l.phase ≠ .ended)
    (hloops : s'.loops = (s.setPhase i phase).loops) (h : s.Ended j) : s'.Ended j := by
  have hne : j ≠ i := by
    rintro rfl
    have hphase : l.phase = .ended := by simpa [Ended, hloop] using h
    exact hopen hphase
  have hmoved : (s.setPhase i phase).Ended j := by
    rw [ended_setPhase_iff, if_neg hne]
    exact h
  simpa [Ended, hloops] using hmoved

theorem awaited_start (addrs : ℕ) : (start addrs).Awaited where
  signalled := by simp [start]
  ended := by simp [joined, start]

/-- A handle is waited for only once its loop has ended, and no step starts a loop
again. -/
theorem Awaited.step (hs : s.Awaited) (h : s.step tls label = some s') :
    s'.Awaited := by
  cases step_cases h with
  | loops hloop hopen _ hloops hversion hshutdown =>
      have hlength : s'.loops.length = s.loops.length := by simp [hloops, setPhase]
      refine ⟨by rw [hversion, hshutdown, hs.signalled], fun j hj => ?_⟩
      apply ended_of_moved hloop hopen hloops
      apply hs.ended
      simpa [joined, hshutdown, hlength] using hj
  | @leaves i _ hopen _ heq =>
      subst heq
      refine ⟨hs.signalled, fun j hj => ?_⟩
      have hjoined : j < s.joined := by simpa [joined, setPhase] using hj
      have hended := hs.ended j hjoined
      have hne : j ≠ i := by
        rintro rfl
        exact hopen hended
      rw [ended_setPhase_iff, if_neg hne]
      exact hended
  | works hloops hversion hshutdown =>
      refine ⟨by rw [hversion, hshutdown, hs.signalled], fun j hj => ?_⟩
      have hjoined : j < s.joined := by simpa [joined, hshutdown, hloops] using hj
      simpa [Ended, hloops] using hs.ended j hjoined
  | signals _ heq =>
      subst heq
      refine ⟨by simp, fun j hj => ?_⟩
      simp [joined] at hj
  | @joins k hk hended heq =>
      subst heq
      have hsent : s.version ≠ 0 := fun hzero => by simp [hs.signalled.mp hzero] at hk
      refine ⟨by simpa using hsent, fun j hj => ?_⟩
      have hjoined : j < k ∨ j = k := by
        simp only [joined] at hj
        omega
      obtain hj | rfl := hjoined
      · have hbefore : j < s.joined := by simpa [joined, hk] using hj
        exact hs.ended j hbefore
      · exact hended
  | returns hall heq =>
      subst heq
      have hsent : s.version ≠ 0 := fun hzero => by simp [hs.signalled.mp hzero] at hall
      refine ⟨by simpa using hsent, fun j hj => ?_⟩
      have hjoined : j < s.joined := by simpa [joined, hall] using hj
      exact hs.ended j hjoined

theorem awaited_of_reachable {addrs : ℕ} (h : (server tls addrs).Reachable s) :
    s.Awaited :=
  h.invariant (awaited_start addrs) fun _ _ _ _ hs hstep => hs.step hstep

/-- Stopping returns when every accept loop has ended. -/
theorem Awaited.over (hs : s.Awaited) (h : s.shutdown = .returned) : s.Over := by
  rw [over_iff]
  intro i hi
  apply hs.ended
  simpa [joined, h] using hi

/-- An accept loop that has ended does not come back. -/
theorem Over.step (hs : s.Over) (h : s.step tls label = some s') : s'.Over := by
  rw [over_iff] at hs
  cases step_cases h with
  | @loops i l _ hloop hopen =>
      obtain ⟨hlt, -⟩ := List.getElem?_eq_some_iff.mp hloop
      have hended : l.phase = .ended := by simpa [Ended, hloop] using hs i hlt
      exact absurd hended hopen
  | leaves _ hopen hlt => exact absurd (hs _ hlt) hopen
  | works hloops =>
      rw [over_iff, hloops]
      simpa [Ended, hloops] using hs
  | signals _ heq => exact heq ▸ over_iff.mpr hs
  | joins _ _ heq => exact heq ▸ over_iff.mpr hs
  | returns _ heq => exact heq ▸ over_iff.mpr hs

/-! ## The signal -/

/-- No receiver has seen a signal that its task has not followed. -/
structure Unseen (s : RunningServer) : Prop where
  loops : ∀ l ∈ s.loops, l.seen = 0
  streams : ∀ seen, some seen ∈ s.streams → seen = 0

theorem Unseen.setPhase (hs : s.Unseen) (i : ℕ) (phase : LoopPhase) :
    (s.setPhase i phase).Unseen := by
  refine ⟨fun l hl => ?_, hs.streams⟩
  obtain ⟨j, hj⟩ := List.mem_iff_getElem?.mp hl
  rw [RunningServer.setPhase, List.getElem?_modify] at hj
  obtain ⟨old, hold, rfl⟩ := Option.map_eq_some_iff.mp hj
  have hseen := hs.loops old (List.mem_of_getElem? hold)
  split
  · exact hseen
  · exact hseen

/-- A copy of a receiver has seen what the receiver has seen. -/
theorem Unseen.spawn (hs : s.Unseen) {i seen : ℕ} {phase : LoopPhase}
    (hloop : s.loops[i]? = some ⟨phase, seen⟩) : (s.spawn seen).Unseen := by
  refine ⟨hs.loops, fun seen' hmem => ?_⟩
  obtain hold | hnew := List.mem_append.mp hmem
  · exact hs.streams seen' hold
  · obtain rfl : seen' = seen := by simpa using hnew
    exact hs.loops _ (List.mem_of_getElem? hloop)

theorem Unseen.endStream (hs : s.Unseen) (stream : ℕ) :
    (s.endStream stream).Unseen := by
  refine ⟨hs.loops, fun seen hmem => ?_⟩
  obtain hold | hnew := List.mem_or_eq_of_mem_set hmem
  · exact hs.streams seen hold
  · cases hnew

/-- A loop or a connection that sees the signal ends in the same step. -/
theorem Unseen.step (hs : s.Unseen) (h : s.step tls label = some s') : s'.Unseen := by
  cases label with
  | accept i ok =>
      obtain ⟨seen, hloop, rfl | rfl | rfl⟩ := accept_cases h
      · exact hs
      · exact hs.setPhase i _
      · exact hs.spawn hloop
  | handshake i ok =>
      obtain ⟨seen, hloop, rfl | rfl⟩ := handshake_cases h
      · exact hs.setPhase i _
      · have hmoved :
            (s.setPhase i .selecting).loops[i]? = some ⟨.selecting, seen⟩ := by
          simp [RunningServer.setPhase, hloop]
        exact (hs.setPhase i _).spawn hmoved
  | leave i =>
      obtain ⟨seen, -, -, rfl⟩ := leave_cases h
      exact hs.setPhase i _
  | act stream =>
      obtain ⟨seen, -, ⟨⟩⟩ := streamStep_cases h
      exact hs
  | submit stream =>
      obtain ⟨seen, -, ⟨⟩⟩ := streamStep_cases h
      exact ⟨hs.loops, hs.streams⟩
  | finish stream =>
      obtain ⟨seen, -, ⟨⟩⟩ := streamStep_cases h
      exact hs.endStream stream
  | cut stream =>
      obtain ⟨seen, -, hnext⟩ := streamStep_cases h
      split at hnext <;> cases hnext
      exact hs.endStream stream
  | jobActs =>
      obtain ⟨-, rfl⟩ := jobStep_cases h
      exact hs
  | jobEnds =>
      obtain ⟨-, rfl⟩ := jobStep_cases h
      exact ⟨hs.loops, hs.streams⟩
  | shutdown =>
      obtain ⟨-, rfl⟩ := beginShutdown_cases h
      exact ⟨hs.loops, hs.streams⟩
  | join =>
      obtain ⟨k, -, -, rfl⟩ := join_cases h
      exact ⟨hs.loops, hs.streams⟩
  | returns =>
      obtain ⟨-, rfl⟩ := returns_cases h
      exact ⟨hs.loops, hs.streams⟩

theorem unseen_of_reachable {addrs : ℕ} (h : (server tls addrs).Reachable s) :
    s.Unseen := by
  refine h.invariant ⟨?_, by simp [server, start]⟩ fun _ _ _ _ hs hstep => hs.step hstep
  intro l hl
  rw [List.eq_of_mem_replicate hl]

/-- No task misses the signal: once it was sent, every waiting loop can leave and
every connection can be cut. -/
theorem signal_reaches {addrs : ℕ} (h : (server tls addrs).Reachable s)
    (hsent : s.shutdown ≠ .none) :
    (∀ i seen, s.loops[i]? = some ⟨.selecting, seen⟩ → (s.step tls (.leave i)).isSome) ∧
      ∀ stream seen, s.streams[stream]? = some (some seen) →
        (s.step tls (.cut stream)).isSome := by
  have hunseen := unseen_of_reachable h
  have hversion : 0 < s.version :=
    Nat.pos_of_ne_zero fun hzero => hsent ((awaited_of_reachable h).signalled.mp hzero)
  constructor
  · intro i seen hloop
    have hseen : seen = 0 := hunseen.loops _ (List.mem_of_getElem? hloop)
    simp [step, leave, hloop, hseen, hversion]
  · intro stream seen hstream
    have hseen : seen = 0 := hunseen.streams _ (List.mem_of_getElem? hstream)
    simp [step, streamStep, hstream, hseen, hversion]

/-! ## Connections that stopping does not wait for -/

/-- Nothing is accepted any more, and no request can still act. -/
structure Stopped (s : RunningServer) : Prop where
  ended : s.Over
  quiet : s.Quiet

/-- Once its loops have ended, the server is quiet. -/
def QuietAtEnd (s : RunningServer) : Prop := s.Over → s.Quiet

/-- The condition is on the step by which the last loop leaves; nothing is accepted
after it. -/
theorem QuietAtEnd.step (hs : s.QuietAtEnd) (hcond : LeavesQuiet s label)
    (h : s.step tls label = some s') : s'.QuietAtEnd := by
  intro hover
  cases step_cases h with
  | @loops i l phase hloop hopen hphase hloops =>
      obtain ⟨hlt, -⟩ := List.getElem?_eq_some_iff.mp hloop
      have hended : s'.Ended i :=
        over_iff.mp hover i (by simpa [hloops, setPhase] using hlt)
      have hmoved : (s.setPhase i phase).Ended i := by
        simpa [Ended, hloops] using hended
      rw [ended_setPhase_iff, if_pos rfl] at hmoved
      exact absurd hmoved.2 hphase
  | leaves hlabel _ _ heq =>
      subst hlabel heq
      exact hcond hover
  | works hloops _ _ hquiet => exact hquiet (hs (by simpa [Over, hloops] using hover))
  | signals _ heq =>
      subst heq
      exact hs hover
  | joins _ _ heq =>
      subst heq
      exact hs hover
  | returns _ heq =>
      subst heq
      exact hs hover

theorem quietAtEnd_start (addrs : ℕ) : (start addrs).QuietAtEnd := by
  intro _
  exact ⟨by simp [start], rfl⟩

/-- A server that is quiet lets no request act. -/
theorem Quiet.no_act (hs : s.Quiet) (h : s.step tls label = some s') :
    label.acts = false := by
  cases label with
  | act stream =>
      obtain ⟨seen, hstream, -⟩ := streamStep_cases h
      exact absurd hstream hs.no_stream
  | jobActs =>
      obtain ⟨hjobs, -⟩ := jobStep_cases h
      exact absurd hs.2 hjobs
  | _ => rfl

/-- A server that is not quiet can let a request act. -/
theorem exists_act (h : ¬s.Quiet) :
    ∃ label s', s.step tls label = some s' ∧ label.acts = true := by
  by_cases hjobs : s.jobs = 0
  · obtain ⟨stream, hmem, hrunning⟩ : ∃ stream ∈ s.streams, stream ≠ none := by
      by_contra hnone
      push Not at hnone
      exact h ⟨hnone, hjobs⟩
    obtain ⟨seen, rfl⟩ := Option.ne_none_iff_exists'.mp hrunning
    obtain ⟨i, hi⟩ := List.mem_iff_getElem?.mp hmem
    exact ⟨.act i, s, by simp [step, streamStep, hi], rfl⟩
  · exact ⟨.jobActs, s, by simp [step, jobStep, hjobs], rfl⟩

/-- When all loops have ended, stopping can go on to its end with nothing else
happening. -/
theorem exec_join {addrs k : ℕ} (m : ℕ) (hover : s.Over) (hk : s.shutdown = .joining k)
    (hm : k + m = s.loops.length) :
    (server tls addrs).exec s (List.replicate m .join ++ [.returns]) =
      some { s with shutdown := .returned } := by
  induction m generalizing s k with
  | zero =>
      have hreturns : s.returns = some { s with shutdown := .returned } := by
        rw [returns, hk, if_pos (by simpa using hm)]
      simp [System.exec, server, step, hreturns]
  | succ m ih =>
      have hended : s.Ended k := over_iff.mp hover k (by omega)
      have hjoin : s.join = some { s with shutdown := .joining (k + 1) } := by
        unfold Ended at hended
        simp [join, hk, hended]
      have hrest :
          ({ s with shutdown := .joining (k + 1) } : RunningServer).Over := hover
      have hdone := ih hrest rfl (by simpa using by omega)
      simpa [List.replicate_succ, System.exec, server, step, hjoin] using hdone

/-- Stopping waits for the connections exactly when the last accept loop leaves none
behind: then a stopped server lets no request act, and else it can return while one
still does. -/
theorem shutdown_stops {addrs : ℕ} {history : List (RunningServer × ServeLabel)}
    (hrun : (server tls addrs).Run history s) :
    (System.Always LeavesQuiet history → s.shutdown = .returned →
      s.Stopped ∧ ∀ label s', s.step tls label = some s' → label.acts = false) ∧
    ∀ label s', s.step tls label = some s' → ¬LeavesQuiet s label →
      ∃ labels last, (server tls addrs).exec s' labels = some last ∧
        last.shutdown = .returned ∧ ¬last.Stopped ∧
        ∃ act last', last.step tls act = some last' ∧ act.acts = true := by
  have hawaited := awaited_of_reachable hrun.reachable
  constructor
  · intro halways hreturned
    have hatEnd : s.QuietAtEnd :=
      hrun.invariant_of_always halways (quietAtEnd_start addrs)
      fun _ _ _ _ hs hcond hstep => hs.step hcond hstep
    have hover := hawaited.over hreturned
    exact ⟨⟨hover, hatEnd hover⟩, fun label s' hstep => (hatEnd hover).no_act hstep⟩
  · intro label s' hstep hcond
    obtain ⟨i, rfl⟩ : ∃ i, label = .leave i := by
      cases label with
      | leave i => exact ⟨i, rfl⟩
      | _ => exact absurd trivial hcond
    obtain ⟨seen, hloop, hseen, rfl⟩ := leave_cases hstep
    have hopen : ¬s.Ended i := by simp [Ended, hloop]
    obtain ⟨hlt, -⟩ := List.getElem?_eq_some_iff.mp hloop
    simp only [LeavesQuiet, not_forall] at hcond
    obtain ⟨hover, hunquiet⟩ := hcond
    -- the signal was sent, and the loop that leaves is one that is still waited for
    obtain ⟨k, hk⟩ : ∃ k, s.shutdown = .joining k := by
      cases hshutdown : s.shutdown with
      | none =>
          have hunsent := hawaited.signalled.mpr hshutdown
          omega
      | joining k => exact ⟨k, rfl⟩
      | returned => exact absurd (over_iff.mp (hawaited.over hshutdown) i hlt) hopen
    have hki : k ≤ i := by
      by_contra hlt
      apply hopen
      apply hawaited.ended
      simp only [joined, hk]
      omega
    have hlength :
        (s.setPhase i .ended).loops.length = s.loops.length := by simp [setPhase]
    have hunquiet' : ¬({ s.setPhase i .ended with
        shutdown := .returned } : RunningServer).Quiet := hunquiet
    refine ⟨_, _, exec_join (s.loops.length - k) hover hk (by rw [hlength]; omega), rfl,
      fun hstopped => hunquiet' hstopped.quiet, exists_act hunquiet'⟩

/-! ## Runs on fixed inputs -/

/-- A server that was stopped after its one connection had ended. -/
def stoppedServer : RunningServer where
  loops := [⟨.ended, 0⟩]
  running := false
  version := 1
  streams := [none]
  jobs := 0
  shutdown := .returned

theorem shutdown_stops_sample :
    ∃ history, (server false 1).Run history stoppedServer ∧ stoppedServer.Stopped := by
  have hexec : ((server false 1).restrict LeavesQuiet).exec (start 1)
      [.accept 0 true, .act 0, .finish 0, .shutdown, .leave 0, .join, .returns] =
        some stoppedServer := by
    decide
  obtain ⟨steps, hrun, halways, -⟩ :=
    System.Run.start.exec_restrict System.Always.nil hexec
  exact ⟨_, hrun, ((shutdown_stops hrun).1 halways rfl).1⟩

/-- A server that was stopped during an upload. -/
def hastyServer : RunningServer := { stoppedServer with streams := [some 0] }

/-- An upload goes on after its server was stopped. -/
theorem upload_outlives_shutdown :
    (server false 1).Reachable hastyServer ∧ hastyServer.shutdown = .returned ∧
      ¬hastyServer.Stopped ∧ hastyServer.step false (.act 0) = some hastyServer := by
  have hexec : (server false 1).exec (start 1)
      [.accept 0 true, .act 0, .shutdown, .leave 0, .join, .returns] =
        some hastyServer := by
    decide
  refine ⟨System.Reachable.init.exec hexec, rfl, fun hstopped => ?_, rfl⟩
  cases hstopped.quiet.1 (some 0) List.mem_cons_self

end RunningServer

end Yunpan.Dufs
