import Mathlib.Data.List.Basic
import Mathlib.Data.Option.Basic
import Mathlib.Logic.Relation

/-!
# Labelled transition systems with an executable step

A concurrent program is a state and a partial step function: a label names
which task moves next and what the outside world does to it, and `none` says
that this move is not possible now.  A run keeps the steps it took, so that a
condition on steps, a property of every step and a property of every state
reached can all be stated about the same run.
-/

namespace Yunpan.Transition

/-- A system that moves by labels. -/
structure System (State Label : Type*) where
  init : State
  step : State → Label → Option State

namespace System

variable {State Label : Type*} (sys : System State Label)

/-- `Run history s`: the steps of `history`, newest first and each with the
state it was taken in, lead from the initial state to `s`. -/
inductive Run : List (State × Label) → State → Prop
  | start : Run [] sys.init
  | snoc {history : List (State × Label)} {s s' : State} {label : Label} :
      Run history s → sys.step s label = some s' → Run ((s, label) :: history) s'

def Reachable (s : State) : Prop := ∃ history, sys.Run history s

/-- Every step of the history meets the condition. -/
def Always (condition : State → Label → Prop)
    (history : List (State × Label)) : Prop :=
  ∀ entry ∈ history, condition entry.1 entry.2

/-- Perform the labels in order, from a given state. -/
def exec (s : State) : List Label → Option State
  | [] => some s
  | label :: labels => (sys.step s label).bind fun s' => exec s' labels

variable {sys}

theorem Always.nil {condition : State → Label → Prop} :
    Always condition ([] : List (State × Label)) := by
  intro entry hentry
  cases hentry

theorem always_cons {condition : State → Label → Prop} {s : State}
    {label : Label} {history : List (State × Label)} :
    Always condition ((s, label) :: history) ↔
      condition s label ∧ Always condition history := by
  simp [Always]

theorem Always.mono {condition condition' : State → Label → Prop}
    {history : List (State × Label)} (h : Always condition history)
    (himp : ∀ s label, condition s label → condition' s label) :
    Always condition' history :=
  fun entry hentry => himp _ _ (h entry hentry)

theorem Run.reachable {history : List (State × Label)} {s : State}
    (h : sys.Run history s) : sys.Reachable s := ⟨history, h⟩

theorem Reachable.init : sys.Reachable sys.init := ⟨[], .start⟩

theorem Reachable.step {s s' : State} {label : Label}
    (h : sys.Reachable s) (hstep : sys.step s label = some s') :
    sys.Reachable s' := by
  obtain ⟨history, hrun⟩ := h
  exact ⟨_, hrun.snoc hstep⟩

/-- What holds at the start and is kept by every step that meets the condition
holds at the end of every run whose steps all meet it. -/
theorem Run.invariant_of_always {condition : State → Label → Prop}
    {Inv : State → Prop} {history : List (State × Label)} {s : State}
    (h : sys.Run history s) (halways : Always condition history)
    (hinit : Inv sys.init)
    (hstep : ∀ s label s', sys.Reachable s → Inv s → condition s label →
      sys.step s label = some s' → Inv s') : Inv s := by
  induction h with
  | start => exact hinit
  | snoc hrun hs ih =>
      obtain ⟨hcond, hrest⟩ := always_cons.mp halways
      exact hstep _ _ _ hrun.reachable (ih hrest) hcond hs

/-- A property of steps that an invariant guarantees in the state they start
from. -/
theorem Run.forall_of_always {condition P : State → Label → Prop}
    {Inv : State → Prop} {history : List (State × Label)} {s : State}
    (h : sys.Run history s) (halways : Always condition history)
    (hinit : Inv sys.init)
    (hstep : ∀ s label s', sys.Reachable s → Inv s → condition s label →
      sys.step s label = some s' → Inv s')
    (hP : ∀ s label, Inv s → condition s label → P s label) : Always P history := by
  induction h with
  | start => exact Always.nil
  | snoc hrun hs ih =>
      obtain ⟨hcond, hrest⟩ := always_cons.mp halways
      have hinv := hrun.invariant_of_always hrest hinit hstep
      exact always_cons.mpr ⟨hP _ _ hinv hcond, ih hrest⟩

theorem Reachable.invariant {Inv : State → Prop} {s : State}
    (h : sys.Reachable s) (hinit : Inv sys.init)
    (hstep : ∀ s label s', sys.Reachable s → Inv s →
      sys.step s label = some s' → Inv s') : Inv s := by
  obtain ⟨history, hrun⟩ := h
  have halways : Always (fun _ _ => True) history := fun _ _ => trivial
  exact hrun.invariant_of_always halways hinit
    fun s label s' hs hinv _ => hstep s label s' hs hinv

/-- A component of a system is always in a state that it could reach alone. -/
theorem Reachable.component {Part PartLabel : Type*} {part : System Part PartLabel}
    (view : State → Part) {s : State} (h : sys.Reachable s)
    (hinit : view sys.init = part.init)
    (hstep : ∀ s label s', part.Reachable (view s) → sys.step s label = some s' →
      part.Reachable (view s')) : part.Reachable (view s) := by
  have hstart : part.Reachable (view sys.init) := hinit ▸ Reachable.init
  obtain ⟨history, hrun⟩ := h
  induction hrun with
  | start => exact hstart
  | snoc _ hs ih => exact hstep _ _ _ ih hs

/-- A property of steps taken in reachable states holds of every step of every
run. -/
theorem Run.forall_steps {P : State → Label → Prop}
    {history : List (State × Label)} {s : State} (h : sys.Run history s)
    (hP : ∀ s label s', sys.Reachable s → sys.step s label = some s' →
      P s label) : Always P history := by
  induction h with
  | start => exact Always.nil
  | snoc hrun hs ih => exact always_cons.mpr ⟨hP _ _ _ hrun.reachable hs, ih⟩

/-- What never shrinks was at most its present value all along. -/
theorem Run.always_le {f : State → ℕ} {history : List (State × Label)} {s : State}
    (h : sys.Run history s)
    (hstep : ∀ s label s', sys.Reachable s → sys.step s label = some s' →
      f s ≤ f s') : Always (fun s' _ => f s' ≤ f s) history := by
  induction h with
  | start => exact Always.nil
  | snoc hrun hs ih =>
      have hle := hstep _ _ _ hrun.reachable hs
      exact always_cons.mpr ⟨hle, ih.mono fun _ _ hprev => Nat.le_trans hprev hle⟩

/-- A step that breaks the condition leads into a set of states that no step
leaves: every run keeps the condition or ends in that set. -/
theorem Run.always_or_absorbed {condition : State → Label → Prop}
    {Sink : State → Prop} {history : List (State × Label)} {s : State}
    (h : sys.Run history s)
    (hkept : ∀ s label s', sys.step s label = some s' → Sink s → Sink s')
    (henter : ∀ s label s', sys.step s label = some s' → ¬condition s label →
      Sink s') : Always condition history ∨ Sink s := by
  induction h with
  | start => exact Or.inl Always.nil
  | @snoc history s s' label hrun hs ih =>
      rcases ih with halways | hsink
      · by_cases hcond : condition s label
        · exact Or.inl (always_cons.mpr ⟨hcond, halways⟩)
        · exact Or.inr (henter _ _ _ hs hcond)
      · exact Or.inr (hkept _ _ _ hs hsink)

/-- What holds now and did not at the start was brought about by some step. -/
theorem Run.exists_cause {P : State → Prop} {history : List (State × Label)} {s : State}
    (h : sys.Run history s) (hinit : ¬P sys.init) (hs : P s) :
    ∃ entry ∈ history, ∃ s',
      sys.step entry.1 entry.2 = some s' ∧ ¬P entry.1 ∧ P s' := by
  induction h with
  | start => exact absurd hs hinit
  | @snoc history s s' label hrun hstep ih =>
      by_cases hbefore : P s
      · obtain ⟨entry, hentry, hcause⟩ := ih hbefore
        exact ⟨entry, List.mem_cons_of_mem _ hentry, hcause⟩
      · exact ⟨(s, label), List.mem_cons_self, s', hstep, hbefore, hs⟩

/-- What a step of the run brought about and no step undoes still holds. -/
theorem Run.lasts {P : State → Prop} {history : List (State × Label)} {s : State}
    (h : sys.Run history s)
    (hkept : ∀ s label s', sys.step s label = some s' → P s → P s')
    {entry : State × Label} (hentry : entry ∈ history)
    (hmade : ∀ s', sys.step entry.1 entry.2 = some s' → P s') : P s := by
  induction h with
  | start => cases hentry
  | snoc hrun hstep ih =>
      obtain rfl | hearlier := List.mem_cons.mp hentry
      · exact hmade _ hstep
      · exact hkept _ _ _ hstep (ih hearlier)

theorem Run.of_exec {history : List (State × Label)} {s s' : State}
    (h : sys.Run history s) {labels : List Label}
    (hexec : sys.exec s labels = some s') :
    ∃ steps, sys.Run (steps ++ history) s' ∧
      steps.map Prod.snd = labels.reverse := by
  induction labels generalizing history s with
  | nil =>
      obtain rfl : s = s' := by simpa [exec] using hexec
      exact ⟨[], h, rfl⟩
  | cons label labels ih =>
      rw [exec, Option.bind_eq_some_iff] at hexec
      obtain ⟨next, hnext, hrest⟩ := hexec
      obtain ⟨steps, hrun, hlabels⟩ := ih (h.snoc hnext) hrest
      exact ⟨steps ++ [(s, label)], by simpa using hrun, by simp [hlabels]⟩

/-- Executing labels that meet a condition in every state keeps the condition
on the whole run. -/
theorem Run.always_of_exec {condition : State → Label → Prop}
    {history : List (State × Label)} {s s' : State} (h : sys.Run history s)
    (halways : Always condition history) {labels : List Label}
    (hexec : sys.exec s labels = some s')
    (hlabels : ∀ label ∈ labels, ∀ s, condition s label) :
    ∃ history', sys.Run history' s' ∧ Always condition history' := by
  obtain ⟨steps, hrun, hsteps⟩ := h.of_exec hexec
  refine ⟨_, hrun, fun entry hentry => ?_⟩
  rcases List.mem_append.mp hentry with hnew | hold
  · have hmem : entry.2 ∈ labels.reverse := hsteps ▸ List.mem_map_of_mem hnew
    exact hlabels _ (List.mem_reverse.mp hmem) _
  · exact halways entry hold

theorem exec_cons {s next last : State} {label : Label} {labels : List Label}
    (hstep : sys.step s label = some next) (hexec : sys.exec next labels = some last) :
    sys.exec s (label :: labels) = some last := by
  rw [exec, hstep]
  exact hexec

theorem Reachable.exec {s s' : State} {labels : List Label} (h : sys.Reachable s)
    (hexec : sys.exec s labels = some s') : sys.Reachable s' := by
  obtain ⟨history, hrun⟩ := h
  obtain ⟨steps, hrun', -⟩ := hrun.of_exec hexec
  exact hrun'.reachable

/-- A state found by executing labels and tested by `check` is reached by a
run. -/
theorem Reachable.exists_of_exec {s : State} (h : sys.Reachable s)
    (labels : List Label) (check : State → Bool)
    (hexec : ((sys.exec s labels).any check) = true) :
    ∃ s', sys.Reachable s' ∧ check s' = true := by
  rw [Option.any_eq_true] at hexec
  obtain ⟨s', hs', hcheck⟩ := hexec
  exact ⟨s', h.exec hs', hcheck⟩

/-! ## A system that refuses some steps -/

section Restrict

variable (sys) (condition : State → Label → Prop)
  [∀ s label, Decidable (condition s label)]

/-- The system with the steps that meet the condition only. -/
def restrict : System State Label where
  init := sys.init
  step s label := if condition s label then sys.step s label else none

variable {sys condition}

/-- What the restricted system can execute extends a run that keeps the
condition. -/
theorem Run.exec_restrict {history : List (State × Label)} {s s' : State}
    (h : sys.Run history s) (halways : Always condition history) {labels : List Label}
    (hexec : (sys.restrict condition).exec s labels = some s') :
    ∃ steps, sys.Run (steps ++ history) s' ∧ Always condition (steps ++ history) ∧
      steps.map Prod.snd = labels.reverse := by
  induction labels generalizing history s with
  | nil =>
      obtain rfl : s = s' := by simpa [exec] using hexec
      exact ⟨[], h, halways, rfl⟩
  | cons label labels ih =>
      rw [exec, Option.bind_eq_some_iff] at hexec
      obtain ⟨next, hnext, hrest⟩ := hexec
      have hcond : condition s label := by
        by_contra hnot
        simp [restrict, hnot] at hnext
      have hstep : sys.step s label = some next := by
        simpa [restrict, hcond] using hnext
      obtain ⟨steps, hrun, hall, hlabels⟩ :=
        ih (h.snoc hstep) (always_cons.mpr ⟨hcond, halways⟩) hrest
      exact ⟨steps ++ [(s, label)], by simpa using hrun, by simpa using hall,
        by simp [hlabels]⟩

end Restrict

/-! ## Abstraction of one system by another -/

section Abstraction

variable {Abs AbsLabel : Type*} (abs : System Abs AbsLabel)
variable (view : State → Abs) (move : State → Label → Option AbsLabel)

/-- One step of the concrete system is the abstract step that `move` names, or
leaves the abstract state as it is. -/
def Follows (s : State) (label : Label) (s' : State) : Prop :=
  match move s label with
  | none => view s' = view s
  | some label' => abs.step (view s) label' = some (view s')

variable {abs view move} in
/-- A property of abstract states is kept by a concrete step when the abstract
step it stands for keeps it. -/
theorem Follows.preserves {Inv : Abs → Prop} {s s' : State} {label : Label}
    (h : Follows abs view move s label s') (hinv : Inv (view s))
    (hstep : ∀ label', move s label = some label' →
      abs.step (view s) label' = some (view s') → Inv (view s')) : Inv (view s') := by
  unfold Follows at h
  cases hmove : move s label with
  | none =>
      rw [hmove] at h
      rwa [show view s' = view s from h]
  | some label' =>
      rw [hmove] at h
      exact hstep label' hmove h

/-- The abstract history of a concrete one. -/
def abstractHistory (history : List (State × Label)) : List (Abs × AbsLabel) :=
  history.filterMap fun entry =>
    (move entry.1 entry.2).map fun label' => (view entry.1, label')

variable {abs view move}

theorem mem_abstractHistory {history : List (State × Label)} {t : Abs}
    {label' : AbsLabel} : (t, label') ∈ abstractHistory view move history ↔
      ∃ s label, (s, label) ∈ history ∧ move s label = some label' ∧ view s = t := by
  simp only [abstractHistory, List.mem_filterMap, Option.map_eq_some_iff, Prod.mk.injEq]
  constructor
  · rintro ⟨⟨s, label⟩, hentry, _, hmove, rfl, rfl⟩
    exact ⟨s, label, hentry, hmove, rfl⟩
  · rintro ⟨s, label, hentry, hmove, rfl⟩
    exact ⟨(s, label), hentry, label', hmove, rfl, rfl⟩

/-- A condition on the steps of a run that makes every abstract step meet one of its
own. -/
theorem Run.always_abstract {condition : State → Label → Prop}
    {condition' : Abs → AbsLabel → Prop} {history : List (State × Label)} {s : State}
    (h : sys.Run history s) (halways : Always condition history)
    (hcond : ∀ s label s' label', condition s label → sys.step s label = some s' →
      move s label = some label' → condition' (view s) label') :
    Always condition' (abstractHistory view move history) := by
  rintro ⟨t, label'⟩ habs
  obtain ⟨s, label, hentry, hmove, rfl⟩ := mem_abstractHistory.mp habs
  have hsteps : Always (fun s label => ∃ s', sys.step s label = some s') history :=
    h.forall_steps fun _ _ s' _ hstep => ⟨s', hstep⟩
  obtain ⟨s', hstep⟩ := hsteps _ hentry
  exact hcond s label s' label' (halways _ hentry) hstep hmove

/-- Step by step abstraction carries whole runs over. -/
theorem Run.abstract {history : List (State × Label)} {s : State}
    (h : sys.Run history s) (hinit : view sys.init = abs.init)
    (hstep : ∀ s label s', sys.Reachable s → sys.step s label = some s' →
      Follows abs view move s label s') :
    abs.Run (abstractHistory view move history) (view s) := by
  induction h with
  | start => rw [hinit]; exact Run.start
  | @snoc history s s' label hrun hs ih =>
      have hfollows := hstep _ _ _ hrun.reachable hs
      unfold Follows at hfollows
      cases hmove : move s label with
      | none =>
          rw [hmove] at hfollows
          simpa [abstractHistory, hmove, hfollows] using ih
      | some label' =>
          rw [hmove] at hfollows
          simpa [abstractHistory, hmove] using ih.snoc hfollows

end Abstraction

end System

end Yunpan.Transition
