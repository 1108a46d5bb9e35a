import Mathlib.Data.List.Basic
import Mathlib.Logic.Function.Basic

/-!
# Reading a function after a point update

Shared maps of a concurrent program are functions or lists, and a task changes them
at one point.  These lemmas read such a map back.
-/

namespace Yunpan

variable {Index Value : Type*} [DecidableEq Index]

theorem update_cases {f : Index → Value} {at_ : Index} {value : Value}
    {index : Index} {result : Value}
    (h : Function.update f at_ value index = result) :
    (index = at_ ∧ value = result) ∨ (index ≠ at_ ∧ f index = result) := by
  by_cases hindex : index = at_
  · subst hindex
    left
    exact ⟨rfl, by simpa using h⟩
  · right
    exact ⟨hindex, by simpa [Function.update_of_ne hindex] using h⟩

/-- Emptying one slot of a table adds no entry. -/
theorem update_none_eq_some {f : Index → Option Value} {at_ index : Index}
    {value : Value} (h : Function.update f at_ none index = some value) :
    index ≠ at_ ∧ f index = some value := by
  rcases update_cases h with ⟨-, hnone⟩ | hold
  · cases hnone
  · exact hold

/-- Reading a list after one of its entries was replaced. -/
theorem set_cases {α : Type} {l : List α} {i j : ℕ} {new x : α}
    (h : (l.set i new)[j]? = some x) :
    (j = i ∧ x = new) ∨ (j ≠ i ∧ l[j]? = some x) := by
  by_cases hj : j = i
  · subst hj
    obtain ⟨hlt, hx⟩ := List.getElem?_eq_some_iff.mp h
    left
    exact ⟨rfl, by simpa using hx.symm⟩
  · right
    rw [List.getElem?_set_ne (Ne.symm hj)] at h
    exact ⟨hj, h⟩

theorem append_cases {α : Type} {l : List α} {i : ℕ} {new x : α}
    (h : (l ++ [new])[i]? = some x) : l[i]? = some x ∨ x = new := by
  by_cases hlt : i < l.length
  · left
    rwa [List.getElem?_append_left hlt] at h
  · right
    rw [List.getElem?_append_right (Nat.le_of_not_lt hlt)] at h
    exact List.mem_singleton.mp (List.mem_of_getElem? h)

end Yunpan
