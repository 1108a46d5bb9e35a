import Yunpan.Core.Program

/-!
# Programs that are refused something or broken off

A program can be broken off after any operation, and any operation can be refused for
a reason of the outside world.  A schedule says which; the weakest precondition of a
program speaks of all schedules at once, and asks for `post` of a result and for
`broken` of every state on the way.
-/

namespace Yunpan.Program

variable {State Op : Type} {Answer : Op → Type} {α β : Type}

section Definitions

variable (act : State → (op : Op) → State × Option (Answer op))

/-- Run by a schedule: whether the next operation is performed or refused.  At the end
of the schedule the program is broken off. -/
def replay : List Bool → State → Program Op Answer α → State × Option α
  | _, state, done value => (state, some value)
  | _, state, fail => (state, none)
  | [], state, step _ _ => (state, none)
  | performed :: schedule, state, step op next =>
      if performed then
        let (state, answer) := act state op
        replay schedule state (next answer)
      else replay schedule state (next none)

def wp (post : α → State → Prop) (broken : State → Prop) :
    Program Op Answer α → State → Prop
  | done value, state => broken state ∧ post value state
  | fail, state => broken state
  | step op next, state =>
      broken state ∧ wp post broken (next (act state op).2) (act state op).1 ∧
        wp post broken (next none) state

end Definitions

section Rules

variable {act : State → (op : Op) → State × Option (Answer op)}
  {post : α → State → Prop} {broken : State → Prop} {state : State}

theorem broken_of_wp {program : Program Op Answer α}
    (h : wp act post broken program state) : broken state := by
  cases program with
  | done value => exact h.1
  | fail => exact h
  | step op next => exact h.1

@[simp]
theorem wp_pure (value : α) :
    wp act post broken (pure value : Program Op Answer α) state ↔
      broken state ∧ post value state := Iff.rfl

@[simp]
theorem wp_fail : wp act post broken (fail : Program Op Answer α) state ↔ broken state :=
  Iff.rfl

theorem wp_bind {post : β → State → Prop} {program : Program Op Answer α}
    {rest : α → Program Op Answer β} :
    wp act post broken (program >>= rest) state ↔
      wp act (fun value => wp act post broken (rest value)) broken program state := by
  induction program generalizing state with
  | done value => exact ⟨fun h => ⟨broken_of_wp h, h⟩, fun h => h.2⟩
  | fail => exact Iff.rfl
  | step op next ih => exact and_congr_right fun _ => and_congr (ih _) (ih _)

theorem wp_attempt_bind (op : Op) (rest : Option (Answer op) → Program Op Answer α) :
    wp act post broken (attempt op >>= rest) state ↔
      broken state ∧ wp act post broken (rest (act state op).2) (act state op).1 ∧
        wp act post broken (rest none) state := Iff.rfl

/-- A refusal of what must be answered breaks the program off. -/
theorem wp_perform_bind (op : Op) (rest : Answer op → Program Op Answer α) :
    wp act post broken (perform op >>= rest) state ↔
      broken state ∧ broken (act state op).1 ∧
        ∀ answer, (act state op).2 = some answer →
          wp act post broken (rest answer) (act state op).1 := by
  rw [perform, step_bind, wp]
  cases hanswer : (act state op).2 with
  | none => exact ⟨fun h => ⟨h.1, h.2.1, by simp⟩, fun h => ⟨h.1, h.2.1, h.1⟩⟩
  | some answer =>
      constructor
      · rintro ⟨hbroken, hrest, -⟩
        refine ⟨hbroken, broken_of_wp hrest, fun other hother => ?_⟩
        cases hother
        exact hrest
      · exact fun h => ⟨h.1, h.2.2 answer rfl, h.1⟩

theorem wp_perform {op : Op} {post : Answer op → State → Prop} :
    wp act post broken (perform op) state ↔
      broken state ∧ broken (act state op).1 ∧
        ∀ answer, (act state op).2 = some answer → post answer (act state op).1 := by
  rw [← bind_pure (perform op : Program Op Answer _), wp_perform_bind]
  constructor
  · exact fun h => ⟨h.1, h.2.1, fun answer hanswer => (h.2.2 answer hanswer).2⟩
  · exact fun h => ⟨h.1, h.2.1, fun answer hanswer => ⟨h.2.1, h.2.2 answer hanswer⟩⟩

theorem wp_mono {post' : α → State → Prop} {program : Program Op Answer α}
    (h : wp act post broken program state)
    (himp : ∀ value state, post value state → post' value state) :
    wp act post' broken program state := by
  induction program generalizing state with
  | done value => exact ⟨h.1, himp value state h.2⟩
  | fail => exact h
  | step op next ih => exact ⟨h.1, ih _ h.2.1, ih _ h.2.2⟩

/-- Operations that leave the state alone break nothing. -/
theorem wp_of_unchanged {P : Op → Prop} (hact : ∀ s op, P op → (act s op).1 = s)
    {program : Program Op Answer α} (hall : program.All P) (hbroken : broken state)
    (hpost : ∀ value, post value state) : wp act post broken program state := by
  induction program with
  | done value => exact ⟨hbroken, hpost value⟩
  | fail => exact hbroken
  | step op next ih =>
      refine ⟨hbroken, ?_, ih none (hall.2 none)⟩
      rw [hact state op hall.1]
      exact ih _ (hall.2 _)

/-- What the weakest precondition says of every schedule. -/
theorem replay_of_wp {program : Program Op Answer α}
    (h : wp act post broken program state) (schedule : List Bool) :
    broken (replay act schedule state program).1 ∧
      ∀ value, (replay act schedule state program).2 = some value →
        post value (replay act schedule state program).1 := by
  induction program generalizing schedule state with
  | done value =>
      refine ⟨by cases schedule <;> exact h.1, fun other hother => ?_⟩
      have hvalue : other = value := by cases schedule <;> exact (Option.some.inj hother).symm
      rw [hvalue]
      cases schedule <;> exact h.2
  | fail =>
      refine ⟨by cases schedule <;> exact h, fun other hother => ?_⟩
      cases schedule <;> cases hother
  | step op next ih =>
      cases schedule with
      | nil => exact ⟨h.1, fun other hother => by cases hother⟩
      | cons performed schedule =>
          cases performed with
          | true => exact ih _ h.2.1 schedule
          | false => exact ih _ h.2.2 schedule

end Rules

end Yunpan.Program
