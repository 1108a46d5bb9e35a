import Yunpan.Desktop.Engine

/-!
# The window and the engine

Starting and stopping are tasks of the window.  Each is cut into pieces by the
operations of the engine that it waits for, and belongs to the page it was started
from: leaving the page cancels the task where it stands, while the operation goes on.
What a tunnel reports is carried into the window by a task of its own.
-/

namespace Yunpan.Desktop

open Yunpan.Transition Yunpan.Protocol Yunpan.Dufs Yunpan.Client

/-! ## The window's state -/

inductive ShareStatus where
  | stopped
  | starting
  | running (urls : List String)
  | failed (reason : String)
  deriving DecidableEq

def ShareStatus.isRunning : ShareStatus → Bool
  | running _ => true
  | _ => false

inductive Tab where
  | share
  | relay
  | logs
  deriving DecidableEq

/-- The component that a task belongs to: the window itself, or the share page, which
is there only while its tab is chosen. -/
inductive Scope where
  | app
  | shareView
  deriving DecidableEq

/-- Where a task of `do_start` or `do_stop` stands: at its beginning, or waiting for
an operation of the engine. -/
inductive TaskPhase where
  | start
  | startingShare (cfg : AppConfig) (op : ℕ)
  | startingTunnel (op : ℕ)
  | stop
  | stoppingTunnel (op : ℕ)
  | stoppingShare (op : ℕ)

structure Task where
  scope : Scope
  phase : TaskPhase

/-- The loop that carries the statuses of a tunnel over; `seen` counts those that its
receiver has seen. -/
structure Forwarder where
  scope : Scope
  tunnel : ℕ
  seen : ℕ
  deriving DecidableEq

/-- The signals of the window, its tasks, and the two slots of the engine.  A task
that has ended or was cancelled is `none`. -/
structure Window where
  cfg : AppConfig
  share : ShareStatus
  relayState : RelayStatus
  startedWith : Option AppConfig
  tab : Tab
  autoStarted : Bool
  tasks : List (Option Task)
  forwarders : List (Option Forwarder)
  shareSlot : ShareSlot
  tunnelSlot : TunnelSlot

/-- What the user does, what a task does, and what happens in the engine.  The page
may lag behind the state, so its button can ask for either at any time. -/
inductive WindowLabel where
  | configure (cfg : AppConfig)
  | switchTab (tab : Tab)
  | pressStart
  | pressStop
  | tray
  | autoStart
  | poll (task : ℕ)
  | forward (forwarder : ℕ)
  | share (label : Slot.Label DufsYaml (List String) ServeLabel String)
  | tunnel (label : Slot.Label ClientConfig Unit (ℕ × RunLabel) Empty)

namespace Window

def init (cfg : AppConfig) : Window where
  cfg
  share := .stopped
  relayState := .idle
  startedWith := none
  tab := .share
  autoStarted := false
  tasks := []
  forwarders := []
  shareSlot := .empty
  tunnelSlot := .empty

variable (w : Window)

def spawnTask (scope : Scope) (phase : TaskPhase) : Window :=
  { w with tasks := w.tasks ++ [some ⟨scope, phase⟩] }

def setTask (k : ℕ) (scope : Scope) (phase : TaskPhase) : Window :=
  { w with tasks := w.tasks.set k (some ⟨scope, phase⟩) }

def endTask (k : ℕ) : Window := { w with tasks := w.tasks.set k none }

/-! ## `do_start` -/

def beginStart (k : ℕ) (scope : Scope) : Window :=
  if w.cfg.servePath = "" then
    { w with share := .failed "尚未选择要共享的文件夹" }.endTask k
  else
    { w with
      share := .starting
      shareSlot := w.shareSlot.call (.start w.cfg.toDufsYaml) }.setTask k scope
        (.startingShare w.cfg w.shareSlot.ops.length)

def shareStarted (k : ℕ) (scope : Scope) (cfg : AppConfig)
    (outcome : Slot.Outcome String) :
    Window :=
  match w.shareSlot.started outcome with
  | .error reason => { w with share := .failed reason }.endTask k
  | .ok urls =>
      let w := { w with share := .running urls, startedWith := some cfg }
      if cfg.relay.enabled then
        match cfg.tunnelConfig with
        | some tunnelCfg =>
            { w with
              tunnelSlot := w.tunnelSlot.call (.start tunnelCfg) }.setTask k scope
              (.startingTunnel w.tunnelSlot.ops.length)
        | none =>
            { w with
              relayState := .fatal "中继参数没配全（地址 / 客户端 ID / 令牌）" }.endTask k
      else { w with relayState := .idle }.endTask k

/-- `rx.borrow()`: the latest status. -/
def latest (t : Tunnel) : RelayStatus := t.runner.published.headD .connecting

/-- The receiver has seen the status that the channel was made with. -/
def tunnelStarted (k : ℕ) (scope : Scope) (outcome : Slot.Outcome Empty) : Window :=
  match outcome with
  | .stored id =>
      match w.tunnelSlot.resources[id]? with
      | some t =>
          let forwarder : Forwarder := ⟨scope, id, 1⟩
          { w with
            relayState := latest t
            forwarders := w.forwarders ++ [some forwarder] }.endTask k
      | none => w.endTask k
  | _ => w.endTask k

/-! ## `do_stop` -/

def beginStop (k : ℕ) (scope : Scope) : Window :=
  { w with tunnelSlot := w.tunnelSlot.call .stop }.setTask k scope
    (.stoppingTunnel w.tunnelSlot.ops.length)

def tunnelStopped (k : ℕ) (scope : Scope) : Window :=
  { w with shareSlot := w.shareSlot.call .stop }.setTask k scope
    (.stoppingShare w.shareSlot.ops.length)

def shareStopped (k : ℕ) : Window :=
  { w with relayState := .idle, share := .stopped, startedWith := none }.endTask k

/-! ## Steps -/

/-- A task runs up to its next await; one that waits for an operation runs when that
has ended. -/
def poll (k : ℕ) : Option Window :=
  match w.tasks[k]? with
  | some (some ⟨scope, phase⟩) =>
      match phase with
      | .start => some (w.beginStart k scope)
      | .startingShare cfg op =>
          (w.shareSlot.outcome op).map (w.shareStarted k scope cfg)
      | .startingTunnel op => (w.tunnelSlot.outcome op).map (w.tunnelStarted k scope)
      | .stop => some (w.beginStop k scope)
      | .stoppingTunnel op =>
          (w.tunnelSlot.outcome op).map fun _ => w.tunnelStopped k scope
      | .stoppingShare op => (w.shareSlot.outcome op).map fun _ => w.shareStopped k
  | _ => none

/-- The loop takes the latest status, or ends when the tunnel's task is gone and every
status was seen. -/
def forward (f : ℕ) : Option Window := do
  let forwarder ← (w.forwarders[f]?).join
  let t ← w.tunnelSlot.resources[forwarder.tunnel]?
  if forwarder.seen < t.runner.published.length then
    some { w with
      relayState := latest t
      forwarders := w.forwarders.set f
        (some { forwarder with seen := t.runner.published.length }) }
  else if t.over then some { w with forwarders := w.forwarders.set f none }
  else none

/-- Leaving the share page cancels what belongs to it. -/
def switchTab (tab : Tab) : Window :=
  if w.tab = .share ∧ tab ≠ .share then
    { w with
      tab
      tasks := w.tasks.map fun task => task.filter fun task => task.scope = .app
      forwarders := w.forwarders.map fun f => f.filter fun f => f.scope = .app }
  else { w with tab }

/-- The tray's menu item starts what is not running and stops what is. -/
def tray : Window :=
  match w.share with
  | .stopped => w.spawnTask .app .start
  | .failed _ => w.spawnTask .app .start
  | _ => w.spawnTask .app .stop

/-- Once, when the window comes up. -/
def autoStart : Option Window :=
  if w.autoStarted then none
  else
    let w := { w with autoStarted := true }
    if w.cfg.autoStartShare ∧ w.cfg.servePath ≠ "" ∧ w.share = .stopped then
      some ((w.spawnTask .app .start).beginStart w.tasks.length .app)
    else some w

def step (inUse : InUse) (hmac : Hmac) : WindowLabel → Option Window
  | .configure cfg => some { w with cfg }
  | .switchTab tab => some (w.switchTab tab)
  | .pressStart => if w.tab = .share then some (w.spawnTask .shareView .start) else none
  | .pressStop => if w.tab = .share then some (w.spawnTask .shareView .stop) else none
  | .tray => some w.tray
  | .autoStart => w.autoStart
  | .poll k => w.poll k
  | .forward f => w.forward f
  | .share (.call _) => none
  | .share label =>
      (w.shareSlot.step (shareKind inUse) label).map fun slot =>
        { w with shareSlot := slot }
  | .tunnel (.call _) => none
  | .tunnel label =>
      (w.tunnelSlot.step (tunnelKind hmac) label).map fun slot =>
        { w with tunnelSlot := slot }

end Window

def window (inUse : InUse) (hmac : Hmac) (cfg : AppConfig) :
    System Window WindowLabel where
  init := .init cfg
  step w label := w.step inUse hmac label

/-! ## The slots of a reachable state -/

namespace Window

variable {inUse : InUse} {hmac : Hmac} {cfg : AppConfig} {w w' : Window}
    {label : WindowLabel}

/-- The slots are what their kinds guarantee. -/
structure Slots (inUse : InUse) (hmac : Hmac) (w : Window) : Prop where
  share : w.shareSlot.Sound (shareKind inUse) Share.Good
  tunnel : w.tunnelSlot.Sound (tunnelKind hmac) fun _ => True

/-- The engine's slots take no calls but those of the window's tasks. -/
theorem share_cases {label : Slot.Label DufsYaml (List String) ServeLabel String}
    (h : w.step inUse hmac (.share label) = some w') :
    (∀ request, label ≠ .call request) ∧ ∃ slot,
      w.shareSlot.step (shareKind inUse) label = some slot ∧
        w' = { w with shareSlot := slot } := by
  cases label with
  | call request => cases h
  | _ =>
      obtain ⟨slot, hslot, rfl⟩ := Option.map_eq_some_iff.mp h
      exact ⟨by simp, slot, hslot, rfl⟩

theorem tunnel_cases {label : Slot.Label ClientConfig Unit (ℕ × RunLabel) Empty}
    (h : w.step inUse hmac (.tunnel label) = some w') :
    (∀ request, label ≠ .call request) ∧ ∃ slot,
      w.tunnelSlot.step (tunnelKind hmac) label = some slot ∧
        w' = { w with tunnelSlot := slot } := by
  cases label with
  | call request => cases h
  | _ =>
      obtain ⟨slot, hslot, rfl⟩ := Option.map_eq_some_iff.mp h
      exact ⟨by simp, slot, hslot, rfl⟩

/-- The window's own tasks touch the slots by calls only. -/
structure Calls (w w' : Window) : Prop where
  share : w'.shareSlot = w.shareSlot ∨
    ∃ request, w'.shareSlot = w.shareSlot.call request
  tunnel : w'.tunnelSlot = w.tunnelSlot ∨
    ∃ request, w'.tunnelSlot = w.tunnelSlot.call request

theorem calls_beginStart (k : ℕ) (scope : Scope) : w.Calls (w.beginStart k scope) := by
  unfold Window.beginStart
  split
  · exact ⟨Or.inl rfl, Or.inl rfl⟩
  · exact ⟨Or.inr ⟨_, rfl⟩, Or.inl rfl⟩

theorem calls_shareStarted (k : ℕ) (scope : Scope) (cfg : AppConfig)
    (outcome : Slot.Outcome String) : w.Calls (w.shareStarted k scope cfg outcome) := by
  unfold Window.shareStarted
  split
  · exact ⟨Or.inl rfl, Or.inl rfl⟩
  · split
    · split
      · exact ⟨Or.inl rfl, Or.inr ⟨_, rfl⟩⟩
      · exact ⟨Or.inl rfl, Or.inl rfl⟩
    · exact ⟨Or.inl rfl, Or.inl rfl⟩

theorem calls_tunnelStarted (k : ℕ) (scope : Scope) (outcome : Slot.Outcome Empty) :
    w.Calls (w.tunnelStarted k scope outcome) := by
  unfold Window.tunnelStarted
  split
  · split
    · exact ⟨Or.inl rfl, Or.inl rfl⟩
    · exact ⟨Or.inl rfl, Or.inl rfl⟩
  · exact ⟨Or.inl rfl, Or.inl rfl⟩

theorem calls_poll {k : ℕ} (h : w.poll k = some w') : w.Calls w' := by
  unfold Window.poll at h
  split at h
  case h_1 scope phase htask =>
    cases phase with
    | start =>
        cases h
        exact calls_beginStart k scope
    | startingShare cfg op =>
        obtain ⟨outcome, -, rfl⟩ := Option.map_eq_some_iff.mp h
        exact calls_shareStarted k scope cfg outcome
    | startingTunnel op =>
        obtain ⟨outcome, -, rfl⟩ := Option.map_eq_some_iff.mp h
        exact calls_tunnelStarted k scope outcome
    | stop =>
        cases h
        exact ⟨Or.inl rfl, Or.inr ⟨_, rfl⟩⟩
    | stoppingTunnel op =>
        obtain ⟨outcome, -, rfl⟩ := Option.map_eq_some_iff.mp h
        exact ⟨Or.inr ⟨_, rfl⟩, Or.inl rfl⟩
    | stoppingShare op =>
        obtain ⟨outcome, -, rfl⟩ := Option.map_eq_some_iff.mp h
        exact ⟨Or.inl rfl, Or.inl rfl⟩
  case h_2 => cases h

theorem calls_autoStart (h : w.autoStart = some w') : w.Calls w' := by
  unfold Window.autoStart at h
  split at h
  case isTrue => cases h
  case isFalse =>
    dsimp only at h
    split at h
    case isTrue =>
      cases h
      obtain ⟨hshare, htunnel⟩ :=
        calls_beginStart (w := ({ w with autoStarted := true } :
        Window).spawnTask .app .start) w.tasks.length .app
      exact ⟨hshare, htunnel⟩
    case isFalse =>
      cases h
      exact ⟨Or.inl rfl, Or.inl rfl⟩

theorem calls_forward {f : ℕ} (h : w.forward f = some w') : w.Calls w' := by
  obtain ⟨forwarder, -, h⟩ := Option.bind_eq_some_iff.mp h
  obtain ⟨t, -, h⟩ := Option.bind_eq_some_iff.mp h
  split at h
  case isTrue =>
    cases h
    exact ⟨Or.inl rfl, Or.inl rfl⟩
  case isFalse =>
    split at h <;> cases h
    exact ⟨Or.inl rfl, Or.inl rfl⟩

/-- A step calls the slots' operations, or is a step of one of the slots. -/
theorem calls_or_moves (h : w.step inUse hmac label = some w') :
    w.Calls w' ∨
      (∃ label slot, w.shareSlot.step (shareKind inUse) label = some slot ∧
        w' = { w with shareSlot := slot }) ∨
      ∃ slotLabel slot, label = .tunnel slotLabel ∧
        w.tunnelSlot.step (tunnelKind hmac) slotLabel = some slot ∧
          w' = { w with tunnelSlot := slot } := by
  cases label with
  | configure cfg =>
      cases h
      exact Or.inl ⟨Or.inl rfl, Or.inl rfl⟩
  | switchTab tab =>
      cases h
      left
      unfold Window.switchTab
      split <;> exact ⟨Or.inl rfl, Or.inl rfl⟩
  | pressStart =>
      change (if w.tab = .share then some (w.spawnTask .shareView .start)
        else none) = _ at h
      split at h <;> cases h
      exact Or.inl ⟨Or.inl rfl, Or.inl rfl⟩
  | pressStop =>
      change (if w.tab = .share then some (w.spawnTask .shareView .stop)
        else none) = _ at h
      split at h <;> cases h
      exact Or.inl ⟨Or.inl rfl, Or.inl rfl⟩
  | tray =>
      cases h
      left
      unfold Window.tray
      split <;> exact ⟨Or.inl rfl, Or.inl rfl⟩
  | autoStart => exact Or.inl (calls_autoStart h)
  | poll k => exact Or.inl (calls_poll h)
  | forward f => exact Or.inl (calls_forward h)
  | share label =>
      obtain ⟨-, slot, hslot, rfl⟩ := share_cases h
      exact Or.inr (Or.inl ⟨label, slot, hslot, rfl⟩)
  | tunnel label =>
      obtain ⟨-, slot, hslot, rfl⟩ := tunnel_cases h
      exact Or.inr (Or.inr ⟨label, slot, rfl, hslot, rfl⟩)

/-- What the window does to a slot of the engine, the engine's own callers could do. -/
theorem shareSlot_reachable (h : (window inUse hmac cfg).Reachable w) :
    (Desktop.share inUse).Reachable w.shareSlot := by
  apply h.component Window.shareSlot rfl
  intro w label w' hslot hstep
  obtain hcalls | ⟨label, slot, hmove, rfl⟩ | ⟨_, slot, -, -, rfl⟩ :=
    calls_or_moves hstep
  · obtain hsame | ⟨request, hcall⟩ := hcalls.share
    · rw [hsame]
      exact hslot
    · have hstep : (Desktop.share inUse).step w.shareSlot (.call request) =
          some w'.shareSlot := congrArg some hcall.symm
      exact hslot.step hstep
  · exact hslot.step hmove
  · exact hslot

theorem tunnelSlot_reachable (h : (window inUse hmac cfg).Reachable w) :
    (Desktop.tunnel hmac).Reachable w.tunnelSlot := by
  apply h.component Window.tunnelSlot rfl
  intro w label w' hslot hstep
  obtain hcalls | ⟨_, slot, -, rfl⟩ | ⟨label, slot, -, hmove, rfl⟩ :=
    calls_or_moves hstep
  · obtain hsame | ⟨request, hcall⟩ := hcalls.tunnel
    · rw [hsame]
      exact hslot
    · have hstep : (Desktop.tunnel hmac).step w.tunnelSlot (.call request) =
          some w'.tunnelSlot := congrArg some hcall.symm
      exact hslot.step hstep
  · exact hslot
  · exact hslot.step hmove

theorem slots_of_reachable (h : (window inUse hmac cfg).Reachable w) :
    w.Slots inUse hmac where
  share := Slot.sound_of_reachable (shareKind_lawful inUse) (shareSlot_reachable h)
  tunnel := Slot.sound_of_reachable (tunnelKind_lawful hmac) (tunnelSlot_reachable h)

end Window

end Yunpan.Desktop
