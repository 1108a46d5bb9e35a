import Yunpan.Client.Run
import Yunpan.Core.Slot
import Yunpan.Desktop.Config
import Yunpan.Dufs.Serve

/-!
# The engine

The file server and the tunnel live in slots of the engine's own runtime.  Starting
one takes the old one out of its slot and waits for its end first.  What runs on the
engine's runtime runs to its end, whether or not the window still waits for it.
-/

namespace Yunpan.Desktop

open Yunpan.Transition Yunpan.Protocol Yunpan.Dufs Yunpan.Client

/-! ## The share -/

/-- A file server that the engine has started, and where it listens.  Its document
names one address, so it has one accept loop. -/
structure Share where
  bind : String
  port : UInt16
  urls : List String
  server : RunningServer
  deriving DecidableEq

/-- `inUse` says when a listener keeps a socket from being bound elsewhere.  Sockets
are bound with `SO_REUSEADDR`: connections that were accepted hold no address. -/
abbrev InUse := String × UInt16 → String × UInt16 → Bool

def Share.move (share : Share) (label : ServeLabel) : Option Share :=
  (share.server.step false label).map fun server => { share with server }

/-- Some accept loop is still there. -/
def Share.live (share : Share) : Bool := !decide share.server.Over

def shareKind (inUse : InUse) : Slot.Kind DufsYaml (List String) Share ServeLabel where
  fresh doc urls := ⟨doc.bind, doc.port, urls, .start 1⟩
  step share label := if label = .shutdown then none else share.move label
  retire share := share.move .shutdown
  retired share := share.server.shutdown = .returned
  live := Share.live
  blocks doc share := share.live && inUse (share.bind, share.port) (doc.bind, doc.port)

/-- The slot `SHARE`.  The error of a start is a text: of parsing, of binding, or of a
task that panicked. -/
abbrev ShareSlot := Slot.State DufsYaml Share String

def share (inUse : InUse) :
    System ShareSlot (Slot.Label DufsYaml (List String) ServeLabel String) :=
  Slot.slot (shareKind inUse) String

def contains (part text : String) : Bool := decide (part.toList <:+: text.toList)

/-- `url_worth_showing`. -/
def urlWorthShowing (url : String) : Bool :=
  !(contains "//198.18." url || contains "//198.19." url || contains "//169.254." url)

/-- What `start_share` returns once its operation has ended. -/
def ShareSlot.started (s : ShareSlot) (outcome : Slot.Outcome String) :
    Except String (List String) :=
  match outcome with
  | .stored id =>
      match s.resources[id]? with
      | some share => .ok (share.urls.filter urlWorthShowing)
      | none => .ok []
  | .failed error => .error error
  | .blocked _ => .error "Address already in use"
  | .stopped => .error "engine task was cancelled"

/-! ## The tunnel -/

def AppConfig.tunnelConfig (cfg : AppConfig) : Option ClientConfig :=
  let r := cfg.relay
  if r.enabled = false ∨ Text.trim r.host = "" ∨ Text.trim r.clientId = "" ∨
      Text.trim r.token = "" then none
  else some {
    relayHost := Text.trim r.host
    controlPort := r.controlPort
    clientId := Text.trim r.clientId
    token := Text.trim r.token
    name := "dufs"
    remotePort := r.remotePort
    localPort := cfg.port
    tls := r.tls }

structure Tunnel where
  cfg : ClientConfig
  runner : Runner
  deriving DecidableEq

/-- The tunnel's task has returned. -/
def Tunnel.over (t : Tunnel) : Bool :=
  match t.runner.phase with
  | .stopped => true
  | .fatal => true
  | _ => false

def Tunnel.move (hmac : Hmac) (now : ℕ) (label : RunLabel) (t : Tunnel) :
    Option Tunnel :=
  (t.runner.step hmac t.cfg now label).map fun runner => { t with runner }

/-- Moves of a tunnel carry the time. -/
def tunnelKind (hmac : Hmac) : Slot.Kind ClientConfig Unit Tunnel (ℕ × RunLabel) where
  fresh cfg _ := ⟨cfg, .init⟩
  step t move :=
    match move.2 with
    | .stop => none
    | .drop => none
    | label => t.move hmac move.1 label
  retire t := t.move hmac 0 .stop
  retired := Tunnel.over
  live t := !t.over
  blocks _ _ := false

/-- The slot `TUNNEL`. -/
abbrev TunnelSlot := Slot.State ClientConfig Tunnel Empty

def tunnel (hmac : Hmac) :
    System TunnelSlot (Slot.Label ClientConfig Unit (ℕ × RunLabel) Empty) :=
  Slot.slot (tunnelKind hmac) Empty

/-! ## Never two servers -/

theorem live_eq_false_iff (share : Share) : share.live = false ↔ share.server.Over := by
  simp [Share.live]

/-- The server of a share is in a state that it could reach alone. -/
def Share.Good (share : Share) : Prop := (Dufs.server false 1).Reachable share.server

theorem move_cases {share share' : Share} {label : ServeLabel}
    (h : share.move label = some share') :
    (Dufs.server false 1).step share.server label = some share'.server := by
  obtain ⟨server, hstep, rfl⟩ := Option.map_eq_some_iff.mp h
  exact hstep

theorem shareKind_lawful (inUse : InUse) : (shareKind inUse).Lawful Share.Good where
  fresh _ _ := System.Reachable.init
  step := by
    intro share label share' hgood h
    simp only [shareKind] at h
    split at h
    case isTrue => cases h
    case isFalse => exact hgood.step (move_cases h)
  retire hgood h := hgood.step (move_cases h)
  retired := by
    intro share hgood hretired
    have hreturned : share.server.shutdown = .returned := by
      simpa [shareKind] using hretired
    exact (live_eq_false_iff share).mpr
      ((RunningServer.awaited_of_reachable hgood).over hreturned)
  dead := by
    intro share label share' _ hdead h
    simp only [shareKind] at h
    split at h
    case isTrue => cases h
    case isFalse =>
      rw [shareKind, live_eq_false_iff] at hdead ⊢
      exact hdead.step (move_cases h)
  blocks := by
    intro doc share hblocks
    exact (Bool.and_eq_true_iff.mp hblocks).1

/-- At every moment at most one file server has an accept loop; while no operation is
in the middle of its work, the slot holds a server exactly when the last operation was
a start that succeeded, and otherwise it is empty; and no start finds its address taken
by a share of this process. -/
theorem never_two_servers (inUse : InUse) {s : ShareSlot}
    (h : (share inUse).Reachable s) :
    (∀ (i j : ℕ) (first second : Share),
      s.resources[i]? = some first → first.live = true →
      s.resources[j]? = some second → second.live = true → i = j) ∧
    ((∀ holder, s.holder = some holder → holder.stage = .locked) →
      ∀ id, s.slot = some id ↔ ∃ op, s.last = some (op, .stored id)) ∧
    (∀ holder, s.holder = some holder → holder.stage ≠ .locked → s.slot = none) ∧
    ∀ op id : ℕ, s.ops[op]? ≠ some (.ended (.blocked id)) := by
  have hs := Slot.sound_of_reachable (shareKind_lawful inUse) h
  refine ⟨fun i j first second => ?_, hs.stored, fun holder => hs.emptied, hs.unblocked⟩
  exact hs.live_unique

/-- Started, stopped and started again, on a machine where any listener is in the way
of any other: the second share is the one in the slot. -/
theorem never_two_servers_sample :
    ∃ s, (share fun _ _ => true).Reachable s ∧ s.slot = some 1 ∧
      ∃ op, s.last = some (op, .stored 1) := by
  have hexec : (((share fun _ _ => true).exec (share fun _ _ => true).init
      [.call (.start AppConfig.default.toDufsYaml), .acquire 0, .take,
        .make (.ok ["http://192.168.1.5:5000"]),
        .call (.start AppConfig.default.toDufsYaml),
        .acquire 1, .take,
        .resource 0 (.leave 0), .resource 0 .join, .resource 0 .returns,
        .retired, .make (.ok ["http://192.168.1.5:5000"])]).any
      fun s => s.holder.isNone && s.slot = some 1) = true := by
    decide
  obtain ⟨s, hreach, hcheck⟩ := System.Reachable.init.exists_of_exec _ _ hexec
  obtain ⟨hfree, hslot⟩ := Bool.and_eq_true_iff.mp hcheck
  have hslot : s.slot = some 1 := of_decide_eq_true hslot
  have hidle : ∀ holder, s.holder = some holder → holder.stage = .locked := by
    intro holder hholder
    rw [hholder] at hfree
    cases hfree
  exact ⟨s, hreach, hslot, ((never_two_servers _ hreach).2.1 hidle 1).mp hslot⟩

/-! ## The tunnel's slot -/

/-- A task that has returned does nothing more. -/
theorem step_over {hmac : Hmac} {now : ℕ} {label : RunLabel} {t : Tunnel}
    (hover : t.over = true) (hlabel : label ≠ .stop ∧ label ≠ .drop) :
    t.move hmac now label = none := by
  have hphase : t.runner.phase = .stopped ∨ t.runner.phase = .fatal := by
    unfold Tunnel.over at hover
    split at hover
    case h_1 hstopped => exact Or.inl hstopped
    case h_2 hfatal => exact Or.inr hfatal
    case h_3 => cases hover
  unfold Tunnel.move
  obtain hphase | hphase := hphase <;> cases label <;>
    simp_all [Runner.step, Runner.begin, Runner.finish]

theorem tunnelKind_lawful (hmac : Hmac) : (tunnelKind hmac).Lawful fun _ => True where
  fresh _ _ := trivial
  step _ _ := trivial
  retire _ _ := trivial
  retired := by
    intro t _ hretired
    simpa [tunnelKind] using hretired
  dead := by
    intro t move t' _ hdead h
    have hover : t.over = true := by simpa [tunnelKind] using hdead
    simp only [tunnelKind] at h
    split at h
    case h_1 => cases h
    case h_2 => cases h
    case h_3 hstop hdrop =>
      rw [step_over hover ⟨hstop, hdrop⟩] at h
      cases h
  blocks := by
    intro cfg t hblocks
    cases hblocks

end Yunpan.Desktop
