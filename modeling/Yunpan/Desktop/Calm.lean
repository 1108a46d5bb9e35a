import Yunpan.Desktop.Window

/-!
# Calm runs of the window

When no request comes while an earlier one is worked on, and the share page is left only
when nothing that belongs to it is at work, at most one task is there at a time.  What is
known while that task stands where it does makes the window and the engine agree when it
has ended.
-/

namespace Yunpan.Desktop

open Yunpan.Transition Yunpan.Protocol Yunpan.Dufs Yunpan.Client

/-! ## Agreement -/

namespace Window

variable (w : Window)

/-- No `do_start` or `do_stop` is running. -/
def Idle : Prop := ∀ task ∈ w.tasks, task = none

instance : Decidable w.Idle := inferInstanceAs (Decidable (∀ task ∈ w.tasks, _))

/-- A status-forwarding task is alive and carries over what its tunnel reports: when
there is a status that it has not seen, its next step shows the latest one in the window
and goes on. -/
structure Carries (f : ℕ) (forwarder : Forwarder) : Prop where
  alive : w.forwarders[f]? = some (some forwarder)
  carries : ∀ {t}, w.tunnelSlot.resources[forwarder.tunnel]? = some t →
    forwarder.seen < t.runner.published.length → ∃ w', w.forward f = some w' ∧
      w'.relayState = latest t ∧ w'.forwarders[f]? =
        some (some { forwarder with seen := t.runner.published.length })

/-- A status-forwarding task of the tunnel is alive and carries its changes over. -/
def Forwarded (id : ℕ) : Prop :=
  ∃ (f : ℕ) (forwarder : Forwarder), w.Carries f forwarder ∧ forwarder.tunnel = id

/-- The window and the engine agree on the share, and on whether there is a tunnel. -/
structure Agrees : Prop where
  settled : w.share ≠ .starting
  running : w.share.isRunning = true ↔ w.shareSlot.slot.isSome = true
  untunnelled : w.share.isRunning = false → w.tunnelSlot.slot = none

/-- The statuses of a tunnel whose task is still there reach the window. -/
def Followed : Prop :=
  ∀ id t, w.tunnelSlot.slot = some id → w.tunnelSlot.resources[id]? = some t →
    t.over = false → w.Forwarded id

end Window

/-- Nobody asks for anything while an earlier request is worked on, a start is asked for
only when nothing is shared, and the share page is left only when nothing that was
started there is still at work: no task, and no forwarder of the present tunnel. -/
def Calm (w : Window) : WindowLabel → Prop
  | .pressStart => w.Idle ∧ w.share.isRunning = false
  | .pressStop => w.Idle
  | .tray => w.Idle
  | .autoStart => w.Idle
  | .switchTab tab => w.tab = .share → tab ≠ .share →
      (∀ entry ∈ w.tasks, ∀ task ∈ entry, task.scope = .app) ∧
        ∀ entry ∈ w.forwarders, ∀ forwarder ∈ entry,
          w.tunnelSlot.slot = some forwarder.tunnel → forwarder.scope = .app
  | _ => True

instance (w : Window) (label : WindowLabel) : Decidable (Calm w label) := by
  cases label <;> unfold Calm <;> infer_instance

/-! ## Calm runs -/

namespace Window

variable {inUse : InUse} {hmac : Hmac} {cfg : AppConfig} {w w' : Window}
    {label : WindowLabel}

/-- What is known while a task stands where it does. -/
inductive Fits (w : Window) : TaskPhase → Prop
  | start (hshare : w.shareSlot.Settled) (htunnel : w.tunnelSlot.Settled)
      (hagrees : w.Agrees)
      (hstopped : w.share.isRunning = false) : Fits w .start
  | startingShare {cfg : AppConfig} {op : ℕ} {doc : DufsYaml}
      (hshare : w.shareSlot.Only op (.start doc)) (htunnel : w.tunnelSlot.Settled)
      (hempty : w.tunnelSlot.slot = none) : Fits w (.startingShare cfg op)
  | startingTunnel {op : ℕ} {tunnelCfg : ClientConfig} (hshare : w.shareSlot.Settled)
      (hrunning : w.share.isRunning = true) (hslot : w.shareSlot.slot.isSome = true)
      (htunnel : w.tunnelSlot.Only op (.start tunnelCfg)) : Fits w (.startingTunnel op)
  | stop (hshare : w.shareSlot.Settled) (htunnel : w.tunnelSlot.Settled) : Fits w .stop
  | stoppingTunnel {op : ℕ} (hshare : w.shareSlot.Settled)
      (htunnel : w.tunnelSlot.Only op .stop) : Fits w (.stoppingTunnel op)
  | stoppingShare {op : ℕ} (hshare : w.shareSlot.Only op .stop)
      (htunnel : w.tunnelSlot.Settled)
      (hempty : w.tunnelSlot.slot = none) : Fits w (.stoppingShare op)

/-- Task `k` is the only one. -/
def Sole (w : Window) (k : ℕ) (task : Task) : Prop :=
  ∀ {k' : ℕ} {entry}, w.tasks[k']? = some entry →
    (k' = k ∧ entry = some task) ∨ (k' ≠ k ∧ entry = none)

/-- In a calm run either nothing is going on and the window agrees with the engine, or
one task is at work. -/
inductive Steady (w : Window) : Prop
  | resting (hidle : w.Idle) (hshare : w.shareSlot.Settled)
      (htunnel : w.tunnelSlot.Settled)
      (hagrees : w.Agrees) (hfollowed : w.Followed)
  | working {k : ℕ} {task : Task} (htask : w.tasks[k]? = some (some task))
      (hsole : w.Sole k task) (hfits : w.Fits task.phase)

theorem steady_init : (Window.init cfg).Steady := by
  apply Steady.resting
  · simp [Idle, init]
  · simp [Slot.State.Settled, init, Slot.State.empty]
  · simp [Slot.State.Settled, init, Slot.State.empty]
  · constructor <;> simp [init, Slot.State.empty, ShareStatus.isRunning]
  · intro id t hslot
    cases hslot

theorem Idle.not_sole (hidle : w.Idle) {k : ℕ} {task : Task} :
    w.tasks[k]? ≠ some (some task) := by
  intro htask
  cases hidle _ (List.mem_of_getElem? htask)

/-- While nothing is going on, the state is at rest. -/
theorem Steady.rest (hs : w.Steady) (hidle : w.Idle) :
    w.shareSlot.Settled ∧ w.tunnelSlot.Settled ∧ w.Agrees ∧ w.Followed := by
  cases hs with
  | resting _ hshare htunnel hagrees hfollowed =>
      exact ⟨hshare, htunnel, hagrees, hfollowed⟩
  | working htask _ _ => exact absurd htask hidle.not_sole

/-- A task that moves is the only one. -/
theorem Steady.work (hs : w.Steady) {k : ℕ} {task : Task}
    (htask : w.tasks[k]? = some (some task)) : w.Sole k task ∧ w.Fits task.phase := by
  cases hs with
  | resting hidle _ _ _ _ => exact absurd htask hidle.not_sole
  | @working k' task' htask' hsole hfits =>
      obtain ⟨rfl, heq⟩ | ⟨-, ⟨⟩⟩ := hsole htask
      cases heq
      exact ⟨hsole, hfits⟩

/-! ### Tasks -/

theorem sole_spawn (hidle : w.Idle) (scope : Scope) (phase : TaskPhase) :
    (w.spawnTask scope phase).tasks[w.tasks.length]? = some (some ⟨scope, phase⟩) ∧
      (w.spawnTask scope phase).Sole w.tasks.length ⟨scope, phase⟩ := by
  refine ⟨by simp [spawnTask], fun {k' entry} hentry => ?_⟩
  obtain hlt | heq | hgt := Nat.lt_trichotomy k' w.tasks.length
  · rw [spawnTask, List.getElem?_append_left hlt] at hentry
    exact Or.inr ⟨by omega, hidle _ (List.mem_of_getElem? hentry)⟩
  · subst heq
    left
    simpa [spawnTask, eq_comm] using hentry
  · have hlength : (w.spawnTask scope phase).tasks.length ≤ k' := by
      simp only [spawnTask, List.length_append, List.length_singleton]
      omega
    rw [List.getElem?_eq_none hlength] at hentry
    cases hentry

/-- The task goes on, and stays the only one. -/
theorem Sole.goesOn {k : ℕ} {task : Task} (hsole : w.Sole k task)
    (htask : w.tasks[k]? = some (some task)) {scope : Scope} {phase : TaskPhase}
    (htasks : w'.tasks = w.tasks.set k (some ⟨scope, phase⟩)) (hfits : w'.Fits phase) :
    w'.Steady := by
  obtain ⟨hlt, -⟩ := List.getElem?_eq_some_iff.mp htask
  have htask' : w'.tasks[k]? = some (some ⟨scope, phase⟩) := by simp [htasks, hlt]
  refine .working htask' (fun {k' entry} hentry => ?_) hfits
  rw [htasks] at hentry
  obtain ⟨rfl, rfl⟩ | ⟨hne, hold⟩ := set_cases hentry
  · exact Or.inl ⟨rfl, rfl⟩
  · obtain ⟨heq, -⟩ | ⟨-, hnone⟩ := hsole hold
    · exact absurd heq hne
    · exact Or.inr ⟨hne, hnone⟩

theorem Sole.endTask {k : ℕ} {task : Task} (hsole : w.Sole k task)
    (htasks : w'.tasks = w.tasks.set k none) : w'.Idle := by
  intro entry hmem
  obtain ⟨k', hentry⟩ := List.mem_iff_getElem?.mp hmem
  rw [htasks] at hentry
  obtain ⟨-, rfl⟩ | ⟨hne, hold⟩ := set_cases hentry
  · rfl
  · obtain ⟨heq, -⟩ | ⟨-, hnone⟩ := hsole hold
    · exact absurd heq hne
    · exact hnone

/-- The forwarding loop does what it is there for, as long as it is alive. -/
theorem carries_of_alive {f : ℕ} {forwarder : Forwarder}
    (h : w.forwarders[f]? = some (some forwarder)) : w.Carries f forwarder where
  alive := h
  carries := by
    intro t ht hnew
    obtain ⟨hlt, -⟩ := List.getElem?_eq_some_iff.mp h
    refine ⟨{ w with
      relayState := latest t
      forwarders := w.forwarders.set f
        (some { forwarder with seen := t.runner.published.length }) }, ?_, rfl, ?_⟩
    · simp only [Window.forward, h, Option.join_some, Option.bind_eq_bind,
        Option.bind_some, ht, if_pos hnew]
    · simp [hlt]

theorem Followed.congr (h : w.Followed) (hforwarders : w'.forwarders = w.forwarders)
    (hslot : w'.tunnelSlot = w.tunnelSlot) : w'.Followed := by
  intro id t hid ht hlive
  obtain ⟨f, forwarder, ⟨hf, -⟩, htunnel⟩ := h id t (hslot ▸ hid) (hslot ▸ ht) hlive
  exact ⟨f, forwarder, carries_of_alive (hforwarders ▸ hf), htunnel⟩

/-- Without a tunnel there is nothing to follow. -/
theorem followed_of_none (h : w.tunnelSlot.slot = none) : w.Followed := by
  intro id t hslot
  rw [h] at hslot
  cases hslot

theorem started_stored_iff {slot : ShareSlot} {outcome : Slot.Outcome String} :
    (∃ urls, slot.started outcome = .ok urls) ↔ ∃ id, outcome = .stored id := by
  cases outcome with
  | stored id =>
      unfold ShareSlot.started
      cases hres : slot.resources[id]? <;> simp [hres]
  | _ => simp [ShareSlot.started]

theorem Agrees.of_stopped (hrunning : w.share.isRunning = false)
    (hsettled : w.share ≠ .starting) (hshare : w.shareSlot.slot = none)
    (htunnel : w.tunnelSlot.slot = none) : w.Agrees where
  settled := hsettled
  running := by simp [hrunning, hshare]
  untunnelled _ := htunnel

theorem Agrees.of_running (hrunning : w.share.isRunning = true)
    (hshare : w.shareSlot.slot.isSome = true) : w.Agrees where
  settled hstarting := by simp [hstarting, ShareStatus.isRunning] at hrunning
  running := by simp [hrunning, hshare]
  untunnelled hstopped := by simp [hrunning] at hstopped

/-- While nothing is shared, both slots are empty. -/
theorem Agrees.empty (h : w.Agrees) (hstopped : w.share.isRunning = false) :
    w.shareSlot.slot = none ∧ w.tunnelSlot.slot = none := by
  refine ⟨?_, h.untunnelled hstopped⟩
  by_contra hslot
  have hrunning := h.running.mpr (Option.ne_none_iff_isSome.mp hslot)
  rw [hstopped] at hrunning
  cases hrunning

theorem Sole.beginStart {k : ℕ} {scope : Scope} {phase : TaskPhase}
    (hsole : w.Sole k ⟨scope, phase⟩) (htask : w.tasks[k]? = some (some ⟨scope, phase⟩))
    (hshare : w.shareSlot.Settled) (htunnel : w.tunnelSlot.Settled) (hagrees : w.Agrees)
    (hstopped : w.share.isRunning = false) : (w.beginStart k scope).Steady := by
  obtain ⟨hshareEmpty, htunnelEmpty⟩ := hagrees.empty hstopped
  unfold Window.beginStart
  split
  · exact .resting (hsole.endTask rfl) hshare htunnel
      (.of_stopped rfl (by simp [Window.endTask]) hshareEmpty htunnelEmpty)
      (followed_of_none htunnelEmpty)
  · exact hsole.goesOn htask rfl (.startingShare (hshare.call _) htunnel htunnelEmpty)

theorem Sole.shareStarted (hslots : w.Slots inUse hmac) {k : ℕ} {scope : Scope}
    {cfg : AppConfig} {op : ℕ} (hsole : w.Sole k ⟨scope, .startingShare cfg op⟩)
    (htask : w.tasks[k]? = some (some ⟨scope, .startingShare cfg op⟩))
    (hfits : w.Fits (.startingShare cfg op)) {outcome : Slot.Outcome String}
    (houtcome : w.shareSlot.outcome op = some outcome) :
    (w.shareStarted k scope cfg outcome).Steady := by
  cases hfits with
  | startingShare hshare htunnel hempty =>
      have hsettled : w.shareSlot.Settled := hshare.settled houtcome
      obtain ⟨-, hslot⟩ := hshare.slot_iff hslots.share houtcome
      unfold Window.shareStarted
      split
      case h_1 reason herror =>
        have hnone : w.shareSlot.slot = none := by
          by_contra hsome
          obtain ⟨id, hid⟩ := Option.ne_none_iff_exists'.mp hsome
          obtain ⟨urls, hurls⟩ := started_stored_iff.mpr ⟨id, (hslot id).mp hid⟩
          rw [herror] at hurls
          cases hurls
        exact .resting (hsole.endTask rfl) hsettled htunnel
          (.of_stopped rfl (by simp [Window.endTask]) hnone hempty)
          (followed_of_none hempty)
      case h_2 urls hok =>
        obtain ⟨id, hid⟩ := started_stored_iff.mp ⟨urls, hok⟩
        have hsome : w.shareSlot.slot.isSome = true := by simp [(hslot id).mpr hid]
        have hrest : ∀ {last : Window}, last.tasks = w.tasks.set k none →
            last.share = .running urls → last.shareSlot = w.shareSlot →
            last.tunnelSlot = w.tunnelSlot → last.Steady := by
          intro last htasks hrunning hlastShare hlastTunnel
          refine .resting (hsole.endTask htasks) (hlastShare ▸ hsettled)
            (hlastTunnel ▸ htunnel)
            (.of_running (by simp [hrunning, ShareStatus.isRunning])
              (hlastShare ▸ hsome))
            (followed_of_none (hlastTunnel ▸ hempty))
        split
        · split
          · exact hsole.goesOn htask rfl
              (.startingTunnel hsettled rfl hsome (htunnel.call _))
          · exact hrest rfl rfl rfl rfl
        · exact hrest rfl rfl rfl rfl

/-- An operation that stops leaves its slot empty. -/
theorem slot_none_of_stop {Arg Error : Type} {slot : Option ℕ}
    {outcome : Slot.Outcome Error}
    (hfits : outcome.Fits (.stop : Slot.Request Arg))
    (hslot : ∀ id, slot = some id ↔ outcome = .stored id) : slot = none := by
  by_contra hsome
  obtain ⟨id, hid⟩ := Option.ne_none_iff_exists'.mp hsome
  rw [(hslot id).mp hid] at hfits
  obtain ⟨arg, ⟨⟩⟩ := hfits

theorem Sole.tunnelStarted (hslots : w.Slots inUse hmac) {k : ℕ} {scope : Scope}
    {op : ℕ}
    (hsole : w.Sole k ⟨scope, .startingTunnel op⟩) (hfits : w.Fits (.startingTunnel op))
    {outcome : Slot.Outcome Empty} (houtcome : w.tunnelSlot.outcome op = some outcome) :
    (w.tunnelStarted k scope outcome).Steady := by
  cases hfits with
  | startingTunnel hshare hrunning hsome htunnel =>
      have hsettled : w.tunnelSlot.Settled := htunnel.settled houtcome
      obtain ⟨hfitsOutcome, hslot⟩ := htunnel.slot_iff hslots.tunnel houtcome
      cases outcome with
      | failed error => cases error
      | stopped => cases hfitsOutcome
      | blocked id =>
          rw [Slot.State.outcome_eq_some_iff] at houtcome
          exact absurd houtcome (hslots.tunnel.unblocked op id)
      | stored id =>
          have hid : w.tunnelSlot.slot = some id := (hslot id).mpr rfl
          obtain ⟨t, ht⟩ := hslots.tunnel.present hid
          simp only [Window.tunnelStarted, ht]
          refine .resting (hsole.endTask rfl) hshare hsettled
            (.of_running hrunning hsome) ?_
          intro id' t' hid' _ _
          obtain rfl : id = id' := Option.some.inj (hid.symm.trans hid')
          exact ⟨w.forwarders.length, ⟨scope, id, 1⟩,
            carries_of_alive (by simp [Window.endTask]), rfl⟩

theorem Sole.poll (hslots : w.Slots inUse hmac) {k : ℕ} {task : Task}
    (hsole : w.Sole k task) (htask : w.tasks[k]? = some (some task))
    (hfits : w.Fits task.phase)
    (h : w.poll k = some w') : w'.Steady := by
  obtain ⟨scope, phase⟩ := task
  unfold Window.poll at h
  rw [htask] at h
  cases phase with
  | start =>
      cases h
      cases hfits with
      | start hshare htunnel hagrees hstopped =>
          exact hsole.beginStart htask hshare htunnel hagrees hstopped
  | startingShare cfg op =>
      obtain ⟨outcome, houtcome, rfl⟩ := Option.map_eq_some_iff.mp h
      exact hsole.shareStarted hslots htask hfits houtcome
  | startingTunnel op =>
      obtain ⟨outcome, houtcome, rfl⟩ := Option.map_eq_some_iff.mp h
      exact hsole.tunnelStarted hslots hfits houtcome
  | stop =>
      cases h
      cases hfits with
      | stop hshare htunnel =>
          exact hsole.goesOn htask rfl (.stoppingTunnel hshare (htunnel.call _))
  | stoppingTunnel op =>
      obtain ⟨outcome, houtcome, rfl⟩ := Option.map_eq_some_iff.mp h
      cases hfits with
      | stoppingTunnel hshare htunnel =>
          have hsettled : w.tunnelSlot.Settled := htunnel.settled houtcome
          obtain ⟨hfitsOutcome, hslot⟩ := htunnel.slot_iff hslots.tunnel houtcome
          have hnone : w.tunnelSlot.slot = none :=
            slot_none_of_stop hfitsOutcome hslot
          exact hsole.goesOn htask rfl (.stoppingShare (hshare.call _) hsettled hnone)
  | stoppingShare op =>
      obtain ⟨outcome, houtcome, rfl⟩ := Option.map_eq_some_iff.mp h
      cases hfits with
      | stoppingShare hshare htunnel hempty =>
          have hsettled : w.shareSlot.Settled := hshare.settled houtcome
          obtain ⟨hfitsOutcome, hslot⟩ := hshare.slot_iff hslots.share houtcome
          have hnone : w.shareSlot.slot = none := slot_none_of_stop hfitsOutcome hslot
          exact .resting (hsole.endTask rfl) hsettled htunnel
            (.of_stopped rfl (by simp [shareStopped, Window.endTask]) hnone hempty)
            (followed_of_none hempty)

/-! ### Requests -/

theorem Agrees.congr (h : w.Agrees) (hshare : w'.share = w.share)
    (hshareSlot : w'.shareSlot.slot = w.shareSlot.slot)
    (htunnelSlot : w'.tunnelSlot.slot = w.tunnelSlot.slot) : w'.Agrees where
  settled := by rw [hshare]; exact h.settled
  running := by rw [hshare, hshareSlot]; exact h.running
  untunnelled := by rw [hshare, htunnelSlot]; exact h.untunnelled

theorem Fits.congr {phase : TaskPhase} (h : w.Fits phase) (hshare : w'.share = w.share)
    (hshareSlot : w'.shareSlot = w.shareSlot)
    (htunnelSlot : w'.tunnelSlot = w.tunnelSlot) :
    w'.Fits phase := by
  cases h with
  | start hs ht hagrees hstopped =>
      exact .start (hshareSlot ▸ hs) (htunnelSlot ▸ ht)
        (hagrees.congr hshare (by rw [hshareSlot]) (by rw [htunnelSlot]))
        (by rw [hshare, hstopped])
  | startingShare hs ht hempty =>
      exact .startingShare (hshareSlot ▸ hs) (htunnelSlot ▸ ht) (htunnelSlot ▸ hempty)
  | startingTunnel hs hrunning hslot ht =>
      exact .startingTunnel (hshareSlot ▸ hs) (hshare ▸ hrunning) (hshareSlot ▸ hslot)
        (htunnelSlot ▸ ht)
  | stop hs ht => exact .stop (hshareSlot ▸ hs) (htunnelSlot ▸ ht)
  | stoppingTunnel hs ht => exact .stoppingTunnel (hshareSlot ▸ hs) (htunnelSlot ▸ ht)
  | stoppingShare hs ht hempty =>
      exact .stoppingShare (hshareSlot ▸ hs) (htunnelSlot ▸ ht) (htunnelSlot ▸ hempty)

/-- Nothing changes but what the window shows beside the share, and the forwarders. -/
theorem Steady.congr (hs : w.Steady) (htasks : w'.tasks = w.tasks)
    (hshare : w'.share = w.share)
    (hshareSlot : w'.shareSlot = w.shareSlot)
    (htunnelSlot : w'.tunnelSlot = w.tunnelSlot)
    (hfollowed : w.Followed → w'.Followed) : w'.Steady := by
  cases hs with
  | resting hidle hshareSettled htunnelSettled hagrees hfollows =>
      have hidle' : w'.Idle := fun task hmem => hidle task (htasks ▸ hmem)
      exact .resting hidle' (hshareSlot ▸ hshareSettled) (htunnelSlot ▸ htunnelSettled)
        (hagrees.congr hshare (by rw [hshareSlot]) (by rw [htunnelSlot]))
        (hfollowed hfollows)
  | working htask hsole hfits =>
      exact .working (htasks ▸ htask) (fun hentry => hsole (htasks ▸ hentry))
        (hfits.congr hshare hshareSlot htunnelSlot)

theorem spawn_steady (hidle : w.Idle) {scope : Scope} {phase : TaskPhase}
    (hfits : w.Fits phase) : (w.spawnTask scope phase).Steady := by
  obtain ⟨htask, hsole⟩ := sole_spawn hidle scope phase
  exact .working htask hsole (hfits.congr rfl rfl rfl)

theorem Steady.spawnStart (hs : w.Steady) (hidle : w.Idle) (scope : Scope)
    (hstopped : w.share.isRunning = false) : (w.spawnTask scope .start).Steady := by
  obtain ⟨hshare, htunnel, hagrees, -⟩ := hs.rest hidle
  exact spawn_steady hidle (.start hshare htunnel hagrees hstopped)

theorem Steady.spawnStop (hs : w.Steady) (hidle : w.Idle) (scope : Scope) :
    (w.spawnTask scope .stop).Steady := by
  obtain ⟨hshare, htunnel, -, -⟩ := hs.rest hidle
  exact spawn_steady hidle (.stop hshare htunnel)

theorem Steady.tray (hs : w.Steady) (hidle : w.Idle) : w.tray.Steady := by
  unfold Window.tray
  split
  case h_1 hstopped =>
    exact hs.spawnStart hidle .app (by simp [hstopped, ShareStatus.isRunning])
  case h_2 reason hfailed =>
    exact hs.spawnStart hidle .app (by simp [hfailed, ShareStatus.isRunning])
  case h_3 => exact hs.spawnStop hidle .app

theorem Steady.autoStart (hs : w.Steady) (hidle : w.Idle) (h : w.autoStart = some w') :
    w'.Steady := by
  have hs' : ({ w with autoStarted := true } : Window).Steady :=
    hs.congr rfl rfl rfl rfl fun hfollowed => hfollowed.congr rfl rfl
  unfold Window.autoStart at h
  split at h
  case isTrue => cases h
  case isFalse =>
    dsimp only at h
    split at h
    case isTrue hwant =>
      cases h
      have hstopped : w.share = .stopped := hwant.2.2
      have hspawned :=
        hs'.spawnStart hidle .app (by simp [hstopped, ShareStatus.isRunning])
      obtain ⟨htask, -⟩ :=
        sole_spawn (w := { w with autoStarted := true }) hidle .app .start
      obtain ⟨hsole, hfits⟩ := hspawned.work htask
      cases hfits with
      | start hshare htunnel hagrees hstopped =>
          exact hsole.beginStart htask hshare htunnel hagrees hstopped
    case isFalse =>
      cases h
      exact hs'

/-! ### Leaving the page -/

theorem map_filter_eq_self {tasks : List (Option Task)}
    (h : ∀ entry ∈ tasks, ∀ task ∈ entry, task.scope = .app) :
    (tasks.map fun entry => entry.filter fun task => task.scope = .app) = tasks := by
  have hsame :
      ∀ entry ∈ tasks, entry.filter (fun task => task.scope = .app) = entry := by
    intro entry hentry
    cases entry with
    | none => rfl
    | some task => simp [h _ hentry task rfl]
  calc (tasks.map fun entry => entry.filter fun task => task.scope = .app)
      = tasks.map id := List.map_congr_left hsame
    _ = tasks := List.map_id tasks

theorem Steady.switchTab (hs : w.Steady) {tab : Tab} (hcalm : Calm w (.switchTab tab)) :
    (w.switchTab tab).Steady := by
  unfold Window.switchTab
  split
  case isTrue hleave =>
    obtain ⟨htasks, hforwarders⟩ := hcalm hleave.1 hleave.2
    refine hs.congr (map_filter_eq_self htasks) rfl rfl rfl fun hfollowed id t => ?_
    intro hslot ht hlive
    obtain ⟨f, forwarder, ⟨hf, -⟩, rfl⟩ := hfollowed _ _ hslot ht hlive
    have hscope := hforwarders _ (List.mem_of_getElem? hf) forwarder rfl hslot
    exact ⟨f, forwarder, carries_of_alive (by simp [hf, hscope]), rfl⟩
  case isFalse => exact hs.congr rfl rfl rfl rfl fun hfollowed => hfollowed.congr rfl rfl

/-! ### Forwarding -/

/-- A forwarder goes on with the same tunnel, or ends because that is gone. -/
theorem Steady.forward (hs : w.Steady) {f : ℕ} (h : w.forward f = some w') :
    w'.Steady := by
  obtain ⟨forwarder, hforwarder, h⟩ := Option.bind_eq_some_iff.mp h
  obtain ⟨t, ht, h⟩ := Option.bind_eq_some_iff.mp h
  have hf : w.forwarders[f]? = some (some forwarder) :=
    Option.join_eq_some_iff.mp hforwarder
  obtain ⟨hlt, -⟩ := List.getElem?_eq_some_iff.mp hf
  split at h
  case isTrue hnew =>
    cases h
    refine hs.congr rfl rfl rfl rfl fun hfollowed id t' hslot ht' hlive => ?_
    obtain ⟨g, forwarder', ⟨hg, -⟩, rfl⟩ := hfollowed _ _ hslot ht' hlive
    by_cases hsame : g = f
    · subst hsame
      rw [hf] at hg
      cases hg
      exact ⟨g, { forwarder with seen := t.runner.published.length },
        carries_of_alive (by simp [hlt]), rfl⟩
    · exact ⟨g, forwarder', carries_of_alive (by simpa [Ne.symm hsame] using hg), rfl⟩
  case isFalse =>
    split at h
    case isTrue hover =>
      cases h
      refine hs.congr rfl rfl rfl rfl fun hfollowed id t' hslot ht' hlive => ?_
      obtain ⟨g, forwarder', ⟨hg, -⟩, rfl⟩ := hfollowed _ _ hslot ht' hlive
      have hne : g ≠ f := by
        rintro rfl
        rw [hf] at hg
        cases hg
        rw [ht] at ht'
        cases ht'
        rw [hover] at hlive
        cases hlive
      exact ⟨g, forwarder', carries_of_alive (by simpa [Ne.symm hne] using hg), rfl⟩
    case isFalse => cases h

/-! ### The engine -/

/-- What is known of a waiting task survives the steps of the share's slot. -/
theorem Fits.share {phase : TaskPhase} (h : w.Fits phase) (hslots : w.Slots inUse hmac)
    {label : Slot.Label DufsYaml (List String) ServeLabel String}
    (hlabel : ∀ request, label ≠ .call request) {slot : ShareSlot}
    (hstep : w.shareSlot.step (shareKind inUse) label = some slot) :
    ({ w with shareSlot := slot } : Window).Fits phase := by
  have hsettled := fun h : w.shareSlot.Settled => h.step hslots.share hlabel hstep
  cases h with
  | start hshare htunnel hagrees hstopped =>
      exact .start (hsettled hshare).1 htunnel
        (hagrees.congr rfl (hsettled hshare).2 rfl) hstopped
  | startingShare hshare htunnel hempty =>
      exact .startingShare (hshare.step hslots.share hlabel hstep) htunnel hempty
  | startingTunnel hshare hrunning hslot htunnel =>
      exact .startingTunnel (hsettled hshare).1 hrunning
        ((hsettled hshare).2 ▸ hslot) htunnel
  | stop hshare htunnel => exact .stop (hsettled hshare).1 htunnel
  | stoppingTunnel hshare htunnel => exact .stoppingTunnel (hsettled hshare).1 htunnel
  | stoppingShare hshare htunnel hempty =>
      exact .stoppingShare (hshare.step hslots.share hlabel hstep) htunnel hempty

theorem Fits.tunnel {phase : TaskPhase} (h : w.Fits phase) (hslots : w.Slots inUse hmac)
    {label : Slot.Label ClientConfig Unit (ℕ × RunLabel) Empty}
    (hlabel : ∀ request, label ≠ .call request) {slot : TunnelSlot}
    (hstep : w.tunnelSlot.step (tunnelKind hmac) label = some slot) :
    ({ w with tunnelSlot := slot } : Window).Fits phase := by
  have hsettled := fun h : w.tunnelSlot.Settled => h.step hslots.tunnel hlabel hstep
  cases h with
  | start hshare htunnel hagrees hstopped =>
      exact .start hshare (hsettled htunnel).1
        (hagrees.congr rfl rfl (hsettled htunnel).2) hstopped
  | startingShare hshare htunnel hempty =>
      exact .startingShare hshare (hsettled htunnel).1
        ((hsettled htunnel).2.trans hempty)
  | startingTunnel hshare hrunning hslot htunnel =>
      exact .startingTunnel hshare hrunning hslot
        (htunnel.step hslots.tunnel hlabel hstep)
  | stop hshare htunnel => exact .stop hshare (hsettled htunnel).1
  | stoppingTunnel hshare htunnel =>
      exact .stoppingTunnel hshare (htunnel.step hslots.tunnel hlabel hstep)
  | stoppingShare hshare htunnel hempty =>
      exact .stoppingShare hshare (hsettled htunnel).1
        ((hsettled htunnel).2.trans hempty)

theorem Steady.share (hs : w.Steady) (hslots : w.Slots inUse hmac)
    {label : Slot.Label DufsYaml (List String) ServeLabel String}
    (h : w.step inUse hmac (.share label) = some w') : w'.Steady := by
  obtain ⟨hlabel, slot, hstep, rfl⟩ := share_cases h
  cases hs with
  | resting hidle hshare htunnel hagrees hfollowed =>
      obtain ⟨hsettled, hsame⟩ := hshare.step hslots.share hlabel hstep
      exact .resting hidle hsettled htunnel (hagrees.congr rfl hsame rfl)
        (hfollowed.congr rfl rfl)
  | working htask hsole hfits =>
      exact .working htask hsole (hfits.share hslots hlabel hstep)

/-- A tunnel whose task is still there was there before. -/
theorem Followed.tunnel (hfollowed : w.Followed) (hslots : w.Slots inUse hmac)
    (hsettled : w.tunnelSlot.Settled)
    {label : Slot.Label ClientConfig Unit (ℕ × RunLabel) Empty}
    (hlabel : ∀ request, label ≠ .call request) {slot : TunnelSlot}
    (hstep : w.tunnelSlot.step (tunnelKind hmac) label = some slot) :
    ({ w with tunnelSlot := slot } : Window).Followed := by
  obtain ⟨-, hsame⟩ := hsettled.step hslots.tunnel hlabel hstep
  intro id t hslot ht hlive
  have hslot : w.tunnelSlot.slot = some id := hsame.symm.trans hslot
  have hlive' : (tunnelKind hmac).live t = true := by simp [tunnelKind, hlive]
  obtain ⟨old, hold, hwas⟩ :=
    hsettled.live_of_step (tunnelKind_lawful hmac) hslots.tunnel
    hlabel hstep ht hlive'
  obtain ⟨f, forwarder, ⟨hf, -⟩, htunnel⟩ :=
    hfollowed _ _ hslot hold (by simpa [tunnelKind] using hwas)
  exact ⟨f, forwarder, carries_of_alive hf, htunnel⟩

theorem Steady.tunnel (hs : w.Steady) (hslots : w.Slots inUse hmac)
    {label : Slot.Label ClientConfig Unit (ℕ × RunLabel) Empty}
    (h : w.step inUse hmac (.tunnel label) = some w') : w'.Steady := by
  obtain ⟨hlabel, slot, hstep, rfl⟩ := tunnel_cases h
  cases hs with
  | resting hidle hshare htunnel hagrees hfollowed =>
      obtain ⟨hsettled, hsame⟩ := htunnel.step hslots.tunnel hlabel hstep
      exact .resting hidle hshare hsettled (hagrees.congr rfl rfl hsame)
        (hfollowed.tunnel hslots htunnel hlabel hstep)
  | working htask hsole hfits =>
      exact .working htask hsole (hfits.tunnel hslots hlabel hstep)

theorem Steady.step (hs : w.Steady) (hslots : w.Slots inUse hmac) (hcalm : Calm w label)
    (h : w.step inUse hmac label = some w') : w'.Steady := by
  cases label with
  | configure cfg =>
      cases h
      exact hs.congr rfl rfl rfl rfl fun hfollowed => hfollowed.congr rfl rfl
  | switchTab tab =>
      cases h
      exact hs.switchTab hcalm
  | pressStart =>
      change (if w.tab = .share then some (w.spawnTask .shareView .start)
        else none) = _ at h
      split at h <;> cases h
      exact hs.spawnStart hcalm.1 .shareView hcalm.2
  | pressStop =>
      change (if w.tab = .share then some (w.spawnTask .shareView .stop)
        else none) = _ at h
      split at h <;> cases h
      exact hs.spawnStop hcalm .shareView
  | tray =>
      cases h
      exact hs.tray hcalm
  | autoStart => exact hs.autoStart hcalm h
  | poll k =>
      have hpoll : w.poll k = some w' := h
      obtain ⟨task, htask⟩ : ∃ task, w.tasks[k]? = some (some task) := by
        unfold Window.poll at hpoll
        split at hpoll
        case h_1 scope phase htask => exact ⟨_, htask⟩
        case h_2 => cases hpoll
      obtain ⟨hsole, hfits⟩ := hs.work htask
      exact hsole.poll hslots htask hfits hpoll
  | forward f => exact hs.forward h
  | share label => exact hs.share hslots h
  | tunnel label => exact hs.tunnel hslots h

end Window

end Yunpan.Desktop
