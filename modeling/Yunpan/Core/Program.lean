import Yunpan.Core.Transition

/-!
# Programs that act by operations

A program is a tree: an operation is performed, and its answer decides how the
program goes on.  An operation that is refused has no answer.  What a program does
whatever it is answered can be read off the tree, and is the same whether the
program runs alone or step by step between others.
-/

namespace Yunpan

open Yunpan.Transition

/-- `fail` is an error that the program has not caught. -/
inductive Program (Op : Type) (Answer : Op → Type) (α : Type) where
  | done (value : α)
  | fail
  | step (op : Op) (next : Option (Answer op) → Program Op Answer α)

namespace Program

variable {Op : Type} {Answer : Op → Type} {α β : Type}

protected def bind : Program Op Answer α → (α → Program Op Answer β) →
    Program Op Answer β
  | done value, rest => rest value
  | fail, _ => fail
  | step op next, rest => step op fun answer => (next answer).bind rest

instance : Monad (Program Op Answer) where
  pure := done
  bind := Program.bind

/-- Perform an operation and see whether it was refused. -/
def attempt (op : Op) : Program Op Answer (Option (Answer op)) := step op done

/-- Perform an operation, and give up when it is refused. -/
def perform (op : Op) : Program Op Answer (Answer op) :=
  step op fun answer => match answer with
    | some answer => done answer
    | none => fail

@[simp]
theorem done_bind (value : α) (rest : α → Program Op Answer β) :
    done value >>= rest = rest value := rfl

@[simp]
theorem fail_bind (rest : α → Program Op Answer β) :
    (fail : Program Op Answer α) >>= rest = fail := rfl

theorem step_bind (op : Op) (next : Option (Answer op) → Program Op Answer α)
    (rest : α → Program Op Answer β) :
    step op next >>= rest = step op fun answer => next answer >>= rest := rfl

instance : LawfulMonad (Program Op Answer) := by
  refine LawfulMonad.mk' _ ?_ ?_ ?_
  · intro α program
    induction program with
    | done value => rfl
    | fail => rfl
    | step op next ih => exact congrArg (step op) (funext ih)
  · intro α β value rest
    rfl
  · intro α β γ program rest last
    induction program with
    | done value => rfl
    | fail => rfl
    | step op next ih => exact congrArg (step op) (funext ih)

/-! ## What a program may do -/

/-- Every operation that the program may come to, whatever it is answered, has the
property. -/
def All (P : Op → Prop) : Program Op Answer α → Prop
  | done _ => True
  | fail => True
  | step op next => P op ∧ ∀ answer, (next answer).All P

section All

variable {P : Op → Prop}

@[simp]
theorem all_done (value : α) : (done value : Program Op Answer α).All P := trivial

@[simp]
theorem all_pure (value : α) : (pure value : Program Op Answer α).All P := trivial

@[simp]
theorem all_fail : (fail : Program Op Answer α).All P := trivial

@[simp]
theorem all_attempt (op : Op) : (attempt op : Program Op Answer _).All P ↔ P op := by
  simp [attempt, All]

@[simp]
theorem all_perform (op : Op) : (perform op : Program Op Answer _).All P ↔ P op := by
  refine ⟨fun h => h.1, fun h => ⟨h, fun answer => ?_⟩⟩
  cases answer with
  | none => exact all_fail
  | some answer => exact all_done answer

@[simp]
theorem all_attempt_bind (op : Op)
    (rest : Option (Answer op) → Program Op Answer β) :
    (attempt op >>= rest).All P ↔ P op ∧ ∀ answer, (rest answer).All P := Iff.rfl

@[simp]
theorem all_perform_bind (op : Op) (rest : Answer op → Program Op Answer β) :
    (perform op >>= rest).All P ↔ P op ∧ ∀ answer, (rest answer).All P := by
  refine ⟨fun h => ⟨h.1, fun answer => h.2 (some answer)⟩, fun h => ⟨h.1, ?_⟩⟩
  intro answer
  cases answer with
  | none => exact all_fail
  | some answer => exact h.2 answer

theorem All.attempt_bind {op : Op} {rest : Option (Answer op) → Program Op Answer β}
    (hop : P op) (hrest : ∀ answer, (rest answer).All P) :
    (attempt op >>= rest).All P :=
  (all_attempt_bind op rest).mpr ⟨hop, hrest⟩

theorem All.bind {program : Program Op Answer α} {rest : α → Program Op Answer β}
    (h : program.All P) (hrest : ∀ value, (rest value).All P) :
    (program >>= rest).All P := by
  induction program with
  | done value => exact hrest value
  | fail => exact all_fail
  | step op next ih => exact ⟨h.1, fun answer => ih answer (h.2 answer)⟩

theorem All.mono {Q : Op → Prop} {program : Program Op Answer α} (h : program.All P)
    (himp : ∀ op, P op → Q op) : program.All Q := by
  induction program with
  | done value => exact all_done value
  | fail => exact all_fail
  | step op next ih => exact ⟨himp op h.1, fun answer => ih answer (h.2 answer)⟩

end All

/-! ## What a program may come to -/

/-- Every result that the program may have, as long as what it is answered is valid, has
the property. -/
def Yields (valid : (op : Op) → Answer op → Prop) (Q : α → Prop) :
    Program Op Answer α → Prop
  | done value => Q value
  | fail => True
  | step op next => ∀ answer : Option (Answer op), (∀ given ∈ answer, valid op given) →
      (next answer).Yields valid Q

section Yields

variable {valid : (op : Op) → Answer op → Prop} {Q : α → Prop}

theorem yields_pure {value : α} (h : Q value) :
    (pure value : Program Op Answer α).Yields valid Q := h

theorem yields_fail : (fail : Program Op Answer α).Yields valid Q := trivial

theorem yields_attempt (op : Op) {Q : Option (Answer op) → Prop}
    (h : ∀ answer, (∀ given ∈ answer, valid op given) → Q answer) :
    (attempt op : Program Op Answer _).Yields valid Q := h

theorem Yields.attempt_bind {op : Op} {rest : Option (Answer op) → Program Op Answer α}
    (h : ∀ answer, (∀ given ∈ answer, valid op given) → (rest answer).Yields valid Q) :
    (attempt op >>= rest).Yields valid Q := h

theorem yields_true (program : Program Op Answer α) :
    program.Yields valid fun _ => True := by
  induction program with
  | done value => trivial
  | fail => trivial
  | step op next ih => exact fun answer _ => ih answer

theorem Yields.mono {valid' : (op : Op) → Answer op → Prop} {Q' : α → Prop}
    {program : Program Op Answer α} (h : program.Yields valid Q)
    (hvalid : ∀ op given, valid' op given → valid op given)
    (himp : ∀ value, Q value → Q' value) : program.Yields valid' Q' := by
  induction program with
  | done value => exact himp value h
  | fail => trivial
  | step op next ih =>
      exact fun answer hanswer =>
        ih answer (h answer fun given hgiven => hvalid op given (hanswer given hgiven))

theorem Yields.bind {program : Program Op Answer α} {rest : α → Program Op Answer β}
    {R : β → Prop} (h : program.Yields valid Q)
    (hrest : ∀ value, Q value → (rest value).Yields valid R) :
    (program >>= rest).Yields valid R := by
  induction program with
  | done value => exact hrest value h
  | fail => exact yields_fail
  | step op next ih => exact fun answer hanswer => ih answer (h answer hanswer)

/-- What a program does after another one may depend on what that one may come to. -/
theorem All.bind_yields {P : Op → Prop} {program : Program Op Answer α}
    {rest : α → Program Op Answer β} (h : program.All P)
    (hyields : program.Yields (fun _ _ => True) Q)
    (hrest : ∀ value, Q value → (rest value).All P) : (program >>= rest).All P := by
  induction program with
  | done value => exact hrest value hyields
  | fail => exact all_fail
  | step op next ih =>
      exact ⟨h.1, fun answer => ih answer (h.2 answer) (hyields answer fun _ _ => trivial)⟩

attribute [irreducible] Yields

end Yields

/-! ## Programs side by side -/

/-- A shared state and the programs that are at work on it. -/
structure Pool (State : Type) (Op : Type) (Answer : Op → Type) (α : Type) where
  state : State
  tasks : List (Program Op Answer α)

/-- A program starts, performs its next operation, has it refused for a reason of
the outside world, or is dropped. -/
inductive PoolLabel (Op : Type) (Answer : Op → Type) (α : Type) where
  | start (program : Program Op Answer α)
  | act (task : ℕ)
  | refuse (task : ℕ)
  | drop (task : ℕ)

namespace Pool

variable {State : Type} (act : State → (op : Op) → State × Option (Answer op))

def step (pool : Pool State Op Answer α) :
    PoolLabel Op Answer α → Option (Pool State Op Answer α)
  | .start program => some { pool with tasks := pool.tasks ++ [program] }
  | .act task =>
      match pool.tasks[task]? with
      | some (.step op next) =>
          let (state, answer) := act pool.state op
          some { state, tasks := pool.tasks.set task (next answer) }
      | _ => none
  | .refuse task =>
      match pool.tasks[task]? with
      | some (.step _ next) => some { pool with tasks := pool.tasks.set task (next none) }
      | _ => none
  | .drop task => some { pool with tasks := pool.tasks.set task .fail }

def system (α : Type) (init : State) :
    System (Pool State Op Answer α) (PoolLabel Op Answer α) where
  init := { state := init, tasks := [] }
  step := step act

variable {act} {P : Op → Prop} {Inv : State → Prop}

/-- The programs that start in a run do permitted operations only. -/
def Starts (P : Op → Prop) (_ : Pool State Op Answer α) :
    PoolLabel Op Answer α → Prop
  | .start program => program.All P
  | _ => True

theorem step_invariant (hact : ∀ s op, P op → Inv s → Inv (act s op).1)
    {pool pool' : Pool State Op Answer α} {label : PoolLabel Op Answer α}
    (hstep : pool.step act label = some pool') (hstart : Starts P pool label)
    (hinv : Inv pool.state ∧ ∀ program ∈ pool.tasks, program.All P) :
    Inv pool'.state ∧ ∀ program ∈ pool'.tasks, program.All P := by
  obtain ⟨hstate, htasks⟩ := hinv
  have hset : ∀ (task : ℕ) (new : Program Op Answer α), new.All P →
      ∀ program ∈ pool.tasks.set task new, program.All P := by
    intro task new hnew program hprogram
    obtain hold | rfl := List.mem_or_eq_of_mem_set hprogram
    · exact htasks program hold
    · exact hnew
  cases label with
  | start program =>
      cases hstep
      refine ⟨hstate, fun other hother => ?_⟩
      obtain hold | hnew := List.mem_append.mp hother
      · exact htasks other hold
      · rw [List.mem_singleton.mp hnew]
        exact hstart
  | act task =>
      rw [step] at hstep
      split at hstep
      case h_1 op next htask =>
        cases hstep
        have hall := htasks _ (List.mem_of_getElem? htask)
        exact ⟨hact _ op hall.1 hstate, hset task _ (hall.2 _)⟩
      case h_2 => cases hstep
  | refuse task =>
      rw [step] at hstep
      split at hstep
      case h_1 op next htask =>
        cases hstep
        have hall := htasks _ (List.mem_of_getElem? htask)
        exact ⟨hstate, hset task _ (hall.2 none)⟩
      case h_2 => cases hstep
  | drop task =>
      cases hstep
      exact ⟨hstate, hset task _ all_fail⟩

/-- What every permitted operation keeps holds throughout every run of programs
that do permitted operations only, in whatever order they take turns. -/
theorem run_invariant (hact : ∀ s op, P op → Inv s → Inv (act s op).1) {init : State}
    (hinit : Inv init)
    {history : List (Pool State Op Answer α × PoolLabel Op Answer α)}
    {pool : Pool State Op Answer α} (hrun : (system act α init).Run history pool)
    (hstarts : System.Always (Starts P) history) : Inv pool.state := by
  let Both (pool : Pool State Op Answer α) : Prop :=
    Inv pool.state ∧ ∀ program ∈ pool.tasks, program.All P
  have hboth : Both pool := by
    apply hrun.invariant_of_always hstarts
    · exact ⟨hinit, by simp [system]⟩
    · exact fun pool label pool' _ hinv hstart hstep =>
        step_invariant hact hstep hstart hinv
  exact hboth.1

end Pool

end Program

end Yunpan
