import Mathlib.Data.List.Basic

/-!
# Computations that leave a trace

A program that can fail and acts on the outside world: what it did, oldest first,
and how it ended.  What the world answers is an argument of the program, so a
property of all its answers is a property of the function.
-/

namespace Yunpan

/-- The effects of a computation and its result. -/
structure Traced (Effect Error α : Type) where
  effects : List Effect
  result : Except Error α

namespace Traced

variable {Effect Error α β : Type}

/-- A failure ends the computation; what it did until then stays done. -/
protected def bind (first : Traced Effect Error α) (next : α → Traced Effect Error β) :
    Traced Effect Error β :=
  match first.result with
  | .error error => ⟨first.effects, .error error⟩
  | .ok value => ⟨first.effects ++ (next value).effects, (next value).result⟩

instance : Monad (Traced Effect Error) where
  pure value := ⟨[], .ok value⟩
  bind := Traced.bind

/-- Have the world do something, with its answer. -/
def perform (effect : Effect) (answer : Except Error α) : Traced Effect Error α :=
  ⟨[effect], answer⟩

/-- An answer that nothing has to be done for. -/
def ofExcept (answer : Except Error α) : Traced Effect Error α := ⟨[], answer⟩

def fail (error : Error) : Traced Effect Error α := ⟨[], .error error⟩

/-- An error with what was being done in front of it. -/
def context (task : Traced Effect String α) (text : String) : Traced Effect String α :=
  ⟨task.effects, task.result.mapError fun cause => text ++ ": " ++ cause⟩

/-- Carry on with the outcome, whatever it is. -/
def attempt (task : Traced Effect Error α) : Traced Effect Error (Except Error α) :=
  ⟨task.effects, .ok task.result⟩

@[simp]
theorem effects_perform (effect : Effect) (answer : Except Error α) :
    (perform effect answer).effects = [effect] := rfl

@[simp]
theorem result_perform (effect : Effect) (answer : Except Error α) :
    (perform effect answer).result = answer := rfl

@[simp]
theorem effects_ofExcept (answer : Except Error α) :
    (ofExcept answer : Traced Effect Error α).effects = [] := rfl

@[simp]
theorem result_ofExcept (answer : Except Error α) :
    (ofExcept answer : Traced Effect Error α).result = answer := rfl

@[simp]
theorem effects_context (task : Traced Effect String α) (text : String) :
    (task.context text).effects = task.effects := rfl

@[simp]
theorem result_context (task : Traced Effect String α) (text : String) :
    (task.context text).result =
      task.result.mapError fun cause => text ++ ": " ++ cause := rfl

/-- What the first part did is done, whatever comes after it. -/
theorem mem_effects_bind {first : Traced Effect Error α} {effect : Effect}
    (h : effect ∈ first.effects) (next : α → Traced Effect Error β) :
    effect ∈ (first >>= next).effects := by
  change effect ∈ (first.bind next).effects
  unfold Traced.bind
  split
  · exact h
  · exact List.mem_append_left _ h

/-- Nothing comes after a failure. -/
theorem bind_error {first : Traced Effect Error α} {error : Error}
    (h : first.result = .error error) (next : α → Traced Effect Error β) :
    first >>= next = ⟨first.effects, .error error⟩ := by
  change first.bind next = _
  rw [Traced.bind, h]

theorem bind_ok {first : Traced Effect Error α} {value : α}
    (h : first.result = .ok value) (next : α → Traced Effect Error β) :
    first >>= next = ⟨first.effects ++ (next value).effects, (next value).result⟩ := by
  change first.bind next = _
  rw [Traced.bind, h]

/-! ## What the effects act on -/

section

variable {State : Type} (act : State → Effect → State) (state : State)

/-- The state that the effects of a computation lead to. -/
def after (task : Traced Effect Error α) : State := task.effects.foldl act state

@[simp]
theorem after_pure (value : α) :
    (pure value : Traced Effect Error α).after act state = state := rfl

@[simp]
theorem after_ofExcept (answer : Except Error α) :
    (ofExcept answer : Traced Effect Error α).after act state = state := rfl

@[simp]
theorem after_perform (effect : Effect) (answer : Except Error α) :
    (perform effect answer).after act state = act state effect := rfl

@[simp]
theorem after_context (task : Traced Effect String α) (text : String) :
    (task.context text).after act state = task.after act state := rfl

variable {act state} {first : Traced Effect Error α}

theorem after_bind_error {error : Error} (h : first.result = .error error)
    (next : α → Traced Effect Error β) :
    (first >>= next).after act state = first.after act state := by
  rw [bind_error h]
  rfl

theorem after_bind_ok {value : α} (h : first.result = .ok value)
    (next : α → Traced Effect Error β) :
    (first >>= next).after act state =
      (next value).after act (first.after act state) := by
  rw [bind_ok h]
  exact List.foldl_append

theorem result_bind_error {error : Error} (h : first.result = .error error)
    (next : α → Traced Effect Error β) : (first >>= next).result = .error error := by
  rw [bind_error h]

theorem result_bind_ok {value : α} (h : first.result = .ok value)
    (next : α → Traced Effect Error β) :
    (first >>= next).result = (next value).result := by
  rw [bind_ok h]

end

instance : LawfulMonad (Traced Effect Error) := by
  refine LawfulMonad.mk' _ ?_ ?_ ?_
  · rintro α ⟨effects, result⟩
    cases result <;> simp [Functor.map, Traced.bind]
  · intro α β value next
    exact bind_ok rfl next
  · intro α β γ first next last
    cases hfirst : first.result with
    | error error =>
        rw [bind_error hfirst, bind_error hfirst]
        exact bind_error rfl last
    | ok value =>
        rw [bind_ok hfirst, bind_ok hfirst]
        cases hnext : (next value).result with
        | error error =>
            rw [bind_error hnext]
            exact bind_error rfl last
        | ok value' =>
            rw [bind_ok hnext, bind_ok rfl]
            simp

end Traced

end Yunpan
