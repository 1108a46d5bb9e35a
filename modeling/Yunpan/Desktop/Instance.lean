import Yunpan.Core.Transition
import Yunpan.Core.Update

/-!
# A single instance

A launched process knocks at a port of this machine.  If another one answers, it
asks that one to show its window and ends; if nobody is there, it takes the port and
answers from then on; and whatever fails, it carries on as the main instance.  Time
limits do not run out, and no other program uses the port.
-/

namespace Yunpan.Desktop

open Yunpan.Transition

/-- How far a process has come in `acquire_single_instance`, and what it was told. -/
inductive Launch where
  | probing
  | connected (main : ℕ)
  | greeted (main : ℕ)
  | acknowledged
  | refused
  | bound
  | told (main : Bool)
  | exited
  deriving DecidableEq

/-- The processes that were launched, and the one that listens at the port. -/
structure Machine where
  launches : List Launch
  port : Option ℕ
  deriving DecidableEq

inductive LaunchLabel where
  | launch
  | probe (p : ℕ)
  | hello (p : ℕ)
  | answer (p : ℕ)
  | acked (p : ℕ)
  | hangUp (p : ℕ)
  | bind (p : ℕ)
  | spawn (p : ℕ)
  | exit (p : ℕ)
  deriving DecidableEq

namespace Machine

variable (m : Machine)

def setLaunch (p : ℕ) (launch : Launch) : Machine :=
  { m with launches := m.launches.set p launch }

/-- A connection is made with whoever listens, whether or not it answers yet. -/
def probe (p : ℕ) : Option Machine :=
  match m.launches[p]?, m.port with
  | some .probing, some main => some (m.setLaunch p (.connected main))
  | some .probing, none => some (m.setLaunch p .refused)
  | _, _ => none

def hello (p : ℕ) : Option Machine :=
  match m.launches[p]? with
  | some (.connected main) => some (m.setLaunch p (.greeted main))
  | _ => none

/-- The thread of the main instance answers. -/
def answer (p : ℕ) : Option Machine :=
  match m.launches[p]? with
  | some (.greeted main) =>
      if m.port = some main ∧ m.launches[main]? = some (.told true) then
        some (m.setLaunch p .acknowledged)
      else none
  | _ => none

def acked (p : ℕ) : Option Machine :=
  match m.launches[p]? with
  | some .acknowledged => some (m.setLaunch p (.told false))
  | _ => none

/-- The other end is gone: nothing can be read, and the process carries on. -/
def hangUp (p : ℕ) : Option Machine :=
  let lost (main : ℕ) :=
    if m.launches[main]? = some .exited then some (m.setLaunch p (.told true)) else none
  match m.launches[p]? with
  | some (.connected main) => lost main
  | some (.greeted main) => lost main
  | _ => none

/-- A port that somebody else has taken meanwhile is done without. -/
def bind (p : ℕ) : Option Machine :=
  match m.launches[p]?, m.port with
  | some .refused, none => some { m.setLaunch p .bound with port := some p }
  | some .refused, some _ => some (m.setLaunch p (.told true))
  | _, _ => none

def spawn (p : ℕ) : Option Machine :=
  match m.launches[p]? with
  | some .bound => some (m.setLaunch p (.told true))
  | _ => none

/-- A process can end anywhere, and its listener with it. -/
def exit (p : ℕ) : Option Machine :=
  match m.launches[p]? with
  | none => none
  | some .exited => none
  | some _ =>
      some { m.setLaunch p .exited with
        port := if m.port = some p then none else m.port }

def step : LaunchLabel → Option Machine
  | .launch => some { m with launches := m.launches ++ [.probing] }
  | .probe p => m.probe p
  | .hello p => m.hello p
  | .answer p => m.answer p
  | .acked p => m.acked p
  | .hangUp p => m.hangUp p
  | .bind p => m.bind p
  | .spawn p => m.spawn p
  | .exit p => m.exit p

/-- Process `p` is alive and was told that it is the main instance. -/
def IsMain (p : ℕ) : Prop := m.launches[p]? = some (.told true)

end Machine

def machine : System Machine LaunchLabel where
  init := ⟨[], none⟩
  step m label := m.step label

/-- A process binds the port only while nobody has it, and the one that has it ends
only while nobody waits for its answer. -/
def InTurn (m : Machine) : LaunchLabel → Prop
  | .bind _ => m.port = none
  | .exit q => m.port = some q →
      ∀ launch ∈ m.launches, launch ≠ .connected q ∧ launch ≠ .greeted q
  | _ => True

instance (m : Machine) (label : LaunchLabel) : Decidable (InTurn m label) := by
  cases label <;> unfold InTurn <;> infer_instance

/-! ## What a step does -/

namespace Machine

variable {m m' : Machine} {label : LaunchLabel}

/-- One process moves on, from one place to another; and it may take or leave the
port. -/
inductive Moves (m : Machine) : LaunchLabel → Machine → Prop
  | launch : Moves m .launch { m with launches := m.launches ++ [.probing] }
  | connect {p main : ℕ} (hp : m.launches[p]? = some .probing)
      (hport : m.port = some main) :
      Moves m (.probe p) (m.setLaunch p (.connected main))
  | refuse {p : ℕ} (hp : m.launches[p]? = some .probing) (hport : m.port = none) :
      Moves m (.probe p) (m.setLaunch p .refused)
  | hello {p main : ℕ} (hp : m.launches[p]? = some (.connected main)) :
      Moves m (.hello p) (m.setLaunch p (.greeted main))
  | answer {p main : ℕ} (hp : m.launches[p]? = some (.greeted main)) :
      Moves m (.answer p) (m.setLaunch p .acknowledged)
  | acked {p : ℕ} (hp : m.launches[p]? = some .acknowledged) :
      Moves m (.acked p) (m.setLaunch p (.told false))
  | hangUp {p main : ℕ} (hmain : m.launches[main]? = some .exited)
      (hp : m.launches[p]? = some (.connected main) ∨
        m.launches[p]? = some (.greeted main)) :
      Moves m (.hangUp p) (m.setLaunch p (.told true))
  | take {p : ℕ} (hp : m.launches[p]? = some .refused) (hport : m.port = none) :
      Moves m (.bind p) { m.setLaunch p .bound with port := some p }
  | doWithout {p other : ℕ} (hp : m.launches[p]? = some .refused)
      (hport : m.port = some other) : Moves m (.bind p) (m.setLaunch p (.told true))
  | spawn {p : ℕ} (hp : m.launches[p]? = some .bound) :
      Moves m (.spawn p) (m.setLaunch p (.told true))
  | exit {p : ℕ} {launch : Launch} (hp : m.launches[p]? = some launch)
      (halive : launch ≠ .exited) :
      Moves m (.exit p) { m.setLaunch p .exited with
        port := if m.port = some p then none else m.port }

theorem moves_of_step (h : m.step label = some m') : Moves m label m' := by
  cases label with
  | launch =>
      cases h
      exact .launch
  | probe p =>
      change m.probe p = some m' at h
      unfold probe at h
      split at h
      case h_1 main hp hport =>
        cases h
        exact .connect hp hport
      case h_2 hp hport =>
        cases h
        exact .refuse hp hport
      case h_3 => cases h
  | hello p =>
      change m.hello p = some m' at h
      unfold hello at h
      split at h
      case h_1 main hp =>
        cases h
        exact .hello hp
      case h_2 => cases h
  | answer p =>
      change m.answer p = some m' at h
      unfold answer at h
      split at h
      case h_1 main hp =>
        split at h <;> cases h
        exact .answer hp
      case h_2 => cases h
  | acked p =>
      change m.acked p = some m' at h
      unfold acked at h
      split at h
      case h_1 hp =>
        cases h
        exact .acked hp
      case h_2 => cases h
  | hangUp p =>
      change m.hangUp p = some m' at h
      unfold hangUp at h
      dsimp only at h
      split at h
      case h_1 main hp =>
        split at h
        case isTrue hmain =>
          cases h
          exact .hangUp hmain (Or.inl hp)
        case isFalse => cases h
      case h_2 main hp =>
        split at h
        case isTrue hmain =>
          cases h
          exact .hangUp hmain (Or.inr hp)
        case isFalse => cases h
      case h_3 => cases h
  | bind p =>
      change m.bind p = some m' at h
      unfold bind at h
      split at h
      case h_1 hp hport =>
        cases h
        exact .take hp hport
      case h_2 other hp hport =>
        cases h
        exact .doWithout hp hport
      case h_3 => cases h
  | spawn p =>
      change m.spawn p = some m' at h
      unfold spawn at h
      split at h
      case h_1 hp =>
        cases h
        exact .spawn hp
      case h_2 => cases h
  | exit p =>
      change m.exit p = some m' at h
      unfold exit at h
      split at h
      case h_1 => cases h
      case h_2 => cases h
      case h_3 launch hne hp =>
        cases h
        exact .exit hp hne

/-! ## The port -/

/-- The port's owner is alive, and has bound it. -/
def Held (m : Machine) : Prop :=
  ∀ q, m.port = some q → m.launches[q]? = some .bound ∨ m.IsMain q

/-- Whoever does not own the port may move on. -/
theorem Held.setLaunch (hs : m.Held) {p : ℕ} (hp : m.port ≠ some p) (launch : Launch) :
    (m.setLaunch p launch).Held := by
  intro q hq
  have hne : p ≠ q := by
    rintro rfl
    exact hp hq
  have hheld := hs q hq
  simpa [IsMain, Machine.setLaunch, hne] using hheld

theorem Held.port_ne (hs : m.Held) {p : ℕ} {launch : Launch}
    (hp : m.launches[p]? = some launch) (hbound : launch ≠ .bound)
    (hmain : launch ≠ .told true) : m.port ≠ some p := by
  intro hport
  obtain hheld | hheld := hs p hport
  · rw [hp] at hheld
    exact hbound (Option.some.inj hheld)
  · rw [IsMain, hp] at hheld
    exact hmain (Option.some.inj hheld)

theorem Held.step (hs : m.Held) (h : m.step label = some m') : m'.Held := by
  cases moves_of_step h with
  | launch =>
      intro q hq
      have hold : ∀ {launch}, m.launches[q]? = some launch →
          (m.launches ++ [.probing])[q]? = some launch := by
        intro launch hlaunch
        obtain ⟨hlt, -⟩ := List.getElem?_eq_some_iff.mp hlaunch
        rw [List.getElem?_append_left hlt]
        exact hlaunch
      exact (hs q hq).imp hold hold
  | connect hp _ => exact hs.setLaunch (hs.port_ne hp (by simp) (by simp)) _
  | refuse hp _ => exact hs.setLaunch (hs.port_ne hp (by simp) (by simp)) _
  | hello hp => exact hs.setLaunch (hs.port_ne hp (by simp) (by simp)) _
  | answer hp => exact hs.setLaunch (hs.port_ne hp (by simp) (by simp)) _
  | acked hp => exact hs.setLaunch (hs.port_ne hp (by simp) (by simp)) _
  | hangUp _ hp =>
      obtain hp | hp := hp <;> exact hs.setLaunch (hs.port_ne hp (by simp) (by simp)) _
  | @take p hp hport =>
      rintro q ⟨⟩
      obtain ⟨hlt, -⟩ := List.getElem?_eq_some_iff.mp hp
      left
      simp [Machine.setLaunch, hlt]
  | doWithout hp _ => exact hs.setLaunch (hs.port_ne hp (by simp) (by simp)) _
  | @spawn p hp =>
      intro q hq
      obtain ⟨hlt, -⟩ := List.getElem?_eq_some_iff.mp hp
      by_cases hsame : q = p
      · subst hsame
        right
        simp [IsMain, Machine.setLaunch, hlt]
      · have hheld := hs q hq
        simpa [IsMain, Machine.setLaunch, Ne.symm hsame] using hheld
  | @exit p launch hp halive =>
      intro q hq
      dsimp only at hq
      split at hq
      case isTrue => cases hq
      case isFalse hport => exact hs.setLaunch hport _ q hq

theorem held_of_reachable (h : machine.Reachable m) : m.Held := by
  refine h.invariant ?_ fun _ _ _ _ hs hstep => hs.step hstep
  rintro q ⟨⟩

/-! ## In turn -/

/-- Every main instance, and everybody who is about to be one, owns the port, and those
who wait for an answer wait for the port's owner. -/
structure Orderly (m : Machine) : Prop where
  main : ∀ {p}, m.IsMain p → m.port = some p
  bound : ∀ {p : ℕ}, m.launches[p]? = some .bound → m.port = some p
  waits : ∀ {p q : ℕ}, m.launches[p]? = some (.connected q) ∨
    m.launches[p]? = some (.greeted q) → m.port = some q

/-- A process moves on to a place where it owns nothing, and the port stays. -/
theorem Orderly.setLaunch (hs : m.Orderly) {p : ℕ} {launch : Launch}
    (hbound : launch ≠ .bound) (hmain : launch ≠ .told true)
    (hwaits : ∀ q, launch = .connected q ∨ launch = .greeted q → m.port = some q) :
    (m.setLaunch p launch).Orderly where
  main := by
    intro q hq
    obtain ⟨-, heq⟩ | ⟨-, hold⟩ := set_cases hq
    · exact absurd heq.symm hmain
    · exact hs.main hold
  bound := by
    intro q hq
    obtain ⟨-, heq⟩ | ⟨-, hold⟩ := set_cases hq
    · exact absurd heq.symm hbound
    · exact hs.bound hold
  waits := by
    intro q r hq
    obtain hq | hq := hq
    · obtain ⟨-, heq⟩ | ⟨-, hold⟩ := set_cases hq
      · exact hwaits r (Or.inl heq.symm)
      · exact hs.waits (Or.inl hold)
    · obtain ⟨-, heq⟩ | ⟨-, hold⟩ := set_cases hq
      · exact hwaits r (Or.inr heq.symm)
      · exact hs.waits (Or.inr hold)

theorem Orderly.step (hs : m.Orderly) (hheld : m.Held) (hcond : InTurn m label)
    (h : m.step label = some m') : m'.Orderly := by
  cases moves_of_step h with
  | launch =>
      refine ⟨fun {p} hp => ?_, fun {p} hp => ?_, fun {p q} hp => ?_⟩
      · obtain hold | ⟨⟨⟩⟩ := append_cases hp
        exact hs.main hold
      · obtain hold | ⟨⟨⟩⟩ := append_cases hp
        exact hs.bound hold
      · obtain hp | hp := hp
        · obtain hold | ⟨⟨⟩⟩ := append_cases hp
          exact hs.waits (Or.inl hold)
        · obtain hold | ⟨⟨⟩⟩ := append_cases hp
          exact hs.waits (Or.inr hold)
  | @connect p main hp hport =>
      refine hs.setLaunch (by simp) (by simp) fun q hq => ?_
      obtain ⟨⟨⟩⟩ | ⟨⟨⟩⟩ := hq
      exact hport
  | refuse hp hport => exact hs.setLaunch (by simp) (by simp) (by simp)
  | @hello p main hp =>
      refine hs.setLaunch (by simp) (by simp) fun q hq => ?_
      obtain ⟨⟨⟩⟩ | ⟨⟨⟩⟩ := hq
      exact hs.waits (Or.inl hp)
  | answer hp => exact hs.setLaunch (by simp) (by simp) (by simp)
  | acked hp => exact hs.setLaunch (by simp) (by simp) (by simp)
  | @hangUp p main hmain hp =>
      -- whom one waits for owns the port, and so is alive
      have hport := hs.waits hp
      obtain hheld | hheld := hheld main hport
      · rw [hmain] at hheld
        cases hheld
      · rw [IsMain, hmain] at hheld
        cases hheld
  | @take p hp hport =>
      -- the port was free, so nobody else is or waits for the main instance
      have hnone : ∀ q, m.port ≠ some q := by simp [hport]
      refine ⟨fun {q} hq => ?_, fun {q} hq => ?_, fun {q r} hq => ?_⟩
      · obtain ⟨-, ⟨⟩⟩ | ⟨-, hold⟩ := set_cases hq
        exact absurd (hs.main hold) (hnone q)
      · obtain ⟨rfl, -⟩ | ⟨-, hold⟩ := set_cases hq
        · rfl
        · exact absurd (hs.bound hold) (hnone q)
      · obtain hq | hq := hq
        · obtain ⟨-, ⟨⟩⟩ | ⟨-, hold⟩ := set_cases hq
          exact absurd (hs.waits (Or.inl hold)) (hnone r)
        · obtain ⟨-, ⟨⟩⟩ | ⟨-, hold⟩ := set_cases hq
          exact absurd (hs.waits (Or.inr hold)) (hnone r)
  | doWithout hp hport =>
      have hfree : m.port = none := hcond
      rw [hfree] at hport
      cases hport
  | @spawn p hp =>
      have hport := hs.bound hp
      refine ⟨fun {q} hq => ?_, fun {q} hq => ?_, fun {q r} hq => ?_⟩
      · obtain ⟨rfl, -⟩ | ⟨-, hold⟩ := set_cases hq
        · exact hport
        · exact hs.main hold
      · obtain ⟨-, ⟨⟩⟩ | ⟨-, hold⟩ := set_cases hq
        exact hs.bound hold
      · obtain hq | hq := hq
        · obtain ⟨-, ⟨⟩⟩ | ⟨-, hold⟩ := set_cases hq
          exact hs.waits (Or.inl hold)
        · obtain ⟨-, ⟨⟩⟩ | ⟨-, hold⟩ := set_cases hq
          exact hs.waits (Or.inr hold)
  | @exit p launch hp halive =>
      have hstays : ∀ {q}, q ≠ p → m.port = some q →
          (if m.port = some p then none else m.port) = some q := by
        intro q hne hq
        rw [hq, if_neg fun heq => hne (Option.some.inj heq)]
      have hawaited : ∀ {q r : ℕ}, m.launches[q]? = some (.connected r) ∨
          m.launches[q]? = some (.greeted r) → r ≠ p := by
        rintro q r hq rfl
        have hport := hs.waits hq
        obtain hq | hq := hq
        · exact (hcond hport _ (List.mem_of_getElem? hq)).1 rfl
        · exact (hcond hport _ (List.mem_of_getElem? hq)).2 rfl
      refine ⟨fun {q} hq => ?_, fun {q} hq => ?_, fun {q r} hq => ?_⟩
      · obtain ⟨-, ⟨⟩⟩ | ⟨hne, hold⟩ := set_cases hq
        exact hstays hne (hs.main hold)
      · obtain ⟨-, ⟨⟩⟩ | ⟨hne, hold⟩ := set_cases hq
        exact hstays hne (hs.bound hold)
      · obtain hq | hq := hq
        · obtain ⟨-, ⟨⟩⟩ | ⟨-, hold⟩ := set_cases hq
          exact hstays (hawaited (Or.inl hold)) (hs.waits (Or.inl hold))
        · obtain ⟨-, ⟨⟩⟩ | ⟨-, hold⟩ := set_cases hq
          exact hstays (hawaited (Or.inr hold)) (hs.waits (Or.inr hold))

/-- At most one process is alive that was told it is the main instance. -/
def Single (m : Machine) : Prop := ∀ p q, m.IsMain p → m.IsMain q → p = q

/-- While nobody has the port, a new process becomes the main instance. -/
theorem exec_newcomer (hport : m.port = none) :
    machine.exec m [.launch, .probe m.launches.length, .bind m.launches.length,
      .spawn m.launches.length] =
      some ⟨m.launches ++ [.told true], some m.launches.length⟩ := by
  simp [System.exec, machine, step, probe, bind, spawn, Machine.setLaunch, hport]

/-- A process that does without the port is a second main instance. -/
theorem second_of_bind (hs : m.Held) {p q : ℕ} (hp : m.launches[p]? = some .refused)
    (hport : m.port = some q) :
    ∃ labels last, machine.exec (m.setLaunch p (.told true)) labels = some last ∧
      ¬last.Single := by
  have hne : p ≠ q := by
    rintro rfl
    exact hs.port_ne hp (by simp) (by simp) hport
  obtain ⟨hlt, -⟩ := List.getElem?_eq_some_iff.mp hp
  have hmain : (m.setLaunch p (.told true)).IsMain p := by
    simp [IsMain, Machine.setLaunch, hlt]
  obtain hq | hq := hs q hport
  · -- the owner of the port is about to be told
    have hq' : (m.setLaunch p (.told true)).launches[q]? = some .bound := by
      simpa [Machine.setLaunch, hne] using hq
    obtain ⟨hltq, -⟩ := List.getElem?_eq_some_iff.mp hq
    refine ⟨[.spawn q], (m.setLaunch p (.told true)).setLaunch q (.told true), ?_, ?_⟩
    · simp [System.exec, machine, step, spawn, hq']
    · intro hsingle
      apply hne
      apply hsingle
      · simpa [IsMain, Machine.setLaunch, Ne.symm hne] using hmain
      · simp [IsMain, Machine.setLaunch, hltq]
  · refine ⟨[], _, rfl, fun hsingle => hne (hsingle p q hmain ?_)⟩
    simpa [IsMain, Machine.setLaunch, hne] using hq

theorem hangUp_eq {p q : ℕ} (hq : m.launches[q]? = some .exited)
    (hp : m.launches[p]? = some (.connected q) ∨ m.launches[p]? = some (.greeted q)) :
    m.hangUp p = some (m.setLaunch p (.told true)) := by
  obtain hp | hp := hp <;> simp [hangUp, hp, hq]

/-- A process that waits in vain is a main instance without the port, and leaves it to
the next. -/
theorem second_of_exit (hs : m.Held) {p q : ℕ} (hport : m.port = some q)
    (hp : m.launches[p]? = some (.connected q) ∨ m.launches[p]? = some (.greeted q)) :
    ∃ labels last, machine.exec ⟨m.launches.set q .exited, none⟩ labels = some last ∧
      ¬last.Single := by
  have hne : p ≠ q := by
    rintro rfl
    obtain hp | hp := hp <;> exact hs.port_ne hp (by simp) (by simp) hport
  obtain ⟨hlt, hltq⟩ : p < m.launches.length ∧ q < m.launches.length := by
    constructor
    · obtain hp | hp := hp <;> exact (List.getElem?_eq_some_iff.mp hp).1
    · obtain hq | hq := hs q hport <;> exact (List.getElem?_eq_some_iff.mp hq).1
  have hgone : (m.launches.set q .exited)[q]? = some .exited := by simp [hltq]
  have hwaits : (m.launches.set q .exited)[p]? = m.launches[p]? := by simp [Ne.symm hne]
  have hp' : (m.launches.set q .exited)[p]? = some (.connected q) ∨
      (m.launches.set q .exited)[p]? = some (.greeted q) := by
    rw [hwaits]
    exact hp
  have hhang : machine.step ⟨m.launches.set q .exited, none⟩ (.hangUp p) =
      some (Machine.setLaunch ⟨m.launches.set q .exited, none⟩ p (.told true)) :=
    hangUp_eq hgone hp'
  have hport' : (Machine.setLaunch ⟨m.launches.set q .exited, none⟩ p
      (.told true)).port = none := rfl
  refine ⟨_, _, System.exec_cons hhang (exec_newcomer hport'), ?_⟩
  intro hsingle
  have hsame := hsingle p m.launches.length
    (by simp [IsMain, Machine.setLaunch, hlt, List.getElem?_append_left])
    (by simp [IsMain, Machine.setLaunch])
  omega

/-- Processes that bind and end in turn leave one main instance; after a step out of
turn two processes can be told that they are it. -/
theorem single_instance {history : List (Machine × LaunchLabel)}
    (hrun : machine.Run history m) :
    (System.Always InTurn history → m.Single) ∧
      ∀ label m', m.step label = some m' → ¬InTurn m label →
        ∃ labels last, machine.exec m' labels = some last ∧ ¬last.Single := by
  have hheld := held_of_reachable hrun.reachable
  constructor
  · intro halways
    have horderly : m.Orderly := hrun.invariant_of_always halways
      (by constructor <;> simp [machine, IsMain])
      fun _ _ _ hreach hs hcond hstep => hs.step (held_of_reachable hreach) hcond hstep
    intro p q hp hq
    exact Option.some.inj ((horderly.main hp).symm.trans (horderly.main hq))
  · intro label m' hstep hcond
    cases moves_of_step hstep with
    | take hp hport => exact absurd hport hcond
    | doWithout hp hport => exact second_of_bind hheld hp hport
    | @exit q launch hq halive =>
        simp only [InTurn, not_forall] at hcond
        obtain ⟨hport, launch', hmem, hwaits⟩ := hcond
        obtain ⟨p, hp⟩ := List.mem_iff_getElem?.mp hmem
        have hwaiting : m.launches[p]? = some (.connected q) ∨
            m.launches[p]? = some (.greeted q) := by
          rw [hp]
          by_contra hnone
          simp only [Option.some.injEq, not_or] at hnone
          exact hwaits hnone
        rw [if_pos hport]
        exact second_of_exit hheld hport hwaiting
    | _ => exact absurd trivial hcond

/-! ## Runs on fixed inputs -/

/-- A second launch while the first is there: the one answers the other. -/
def answered : Machine := ⟨[.told true, .told false], some 0⟩

theorem single_instance_sample :
    ∃ history, machine.Run history answered ∧ answered.Single := by
  have hexec : (machine.restrict InTurn).exec machine.init
      [.launch, .probe 0, .bind 0, .spawn 0, .launch, .probe 1, .hello 1, .answer 1,
        .acked 1] = some answered := by
    decide
  obtain ⟨steps, hrun, halways, -⟩ :=
    System.Run.start.exec_restrict System.Always.nil hexec
  exact ⟨_, hrun, (single_instance hrun).1 halways⟩

/-- Two processes that were launched at once: each finds nobody at the port, and each
is told that it is the main instance. -/
def both : Machine := ⟨[.told true, .told true], some 0⟩

theorem both_are_main : machine.Reachable both ∧ ¬both.Single := by
  have hexec : machine.exec machine.init
      [.launch, .launch, .probe 0, .probe 1, .bind 0, .spawn 0, .bind 1] =
        some both := by
    decide
  refine ⟨System.Reachable.init.exec hexec, fun hsingle => ?_⟩
  cases hsingle 0 1 rfl rfl

end Machine

end Yunpan.Desktop
