import Mathlib.Data.List.Basic
import Mathlib.Data.Nat.Digits.Defs

/-!
# Reading fields back across a separator

Two fields joined by a separator can be read back when one side never contains
it.  When the other side may, the readings differ by a part that moves across
the separator, and that is the only way they can differ.
-/

namespace Yunpan.Separator

variable {α : Type*} {sep : α} {left left' right right' : List α}

/-- The left fields are free of the separator: the first one divides. -/
theorem eq_of_left_free (hfree : sep ∉ left) (hfree' : sep ∉ left')
    (h : left ++ sep :: right = left' ++ sep :: right') :
    left = left' ∧ right = right' := by
  obtain ⟨rest, rfl, hrest⟩ | ⟨rest, rfl, hrest⟩ := List.append_eq_append_iff.mp h
  all_goals
    cases rest with
    | nil =>
        obtain rfl := (List.cons.inj hrest).2
        exact ⟨by simp, rfl⟩
    | cons head rest =>
        obtain rfl := (List.cons.inj hrest).1
        simp at hfree hfree'

/-- Only one right field is known to be free of the separator: then the other
reading divides at the same place or at an earlier one. -/
theorem cases_of_right_free (hfree : sep ∉ right')
    (h : left ++ sep :: right = left' ++ sep :: right') :
    (left = left' ∧ right = right') ∨
      ∃ moved, left' = left ++ sep :: moved ∧ right = moved ++ sep :: right' := by
  obtain ⟨rest, rfl, hrest⟩ | ⟨rest, rfl, hrest⟩ := List.append_eq_append_iff.mp h
  · cases rest with
    | nil => exact Or.inl ⟨by simp, (List.cons.inj hrest).2⟩
    | cons head moved =>
        obtain ⟨rfl, hright⟩ := List.cons.inj hrest
        exact Or.inr ⟨moved, rfl, hright⟩
  · cases rest with
    | nil => exact Or.inl ⟨by simp, (List.cons.inj hrest).2.symm⟩
    | cons head moved =>
        obtain ⟨rfl, hright⟩ := List.cons.inj hrest
        exact absurd (hright ▸ List.mem_append_right _ List.mem_cons_self) hfree

theorem eq_of_right_free (hfree : sep ∉ right) (hfree' : sep ∉ right')
    (h : left ++ sep :: right = left' ++ sep :: right') :
    left = left' ∧ right = right' := by
  obtain hsame | ⟨moved, -, rfl⟩ := cases_of_right_free hfree' h
  · exact hsame
  · simp at hfree

/-- A separator that a tail does not contain stands before the tail. -/
theorem before_of_free_tail {field tail : List α} (hfree : sep ∉ tail)
    (h : field ++ tail = left ++ sep :: right) :
    ∃ rest, field = left ++ sep :: rest := by
  obtain ⟨rest, rfl, hrest⟩ | ⟨rest, rfl, hrest⟩ := List.append_eq_append_iff.mp h
  · exact absurd (hrest ▸ List.mem_append_right _ List.mem_cons_self) hfree
  · cases rest with
    | nil =>
        obtain rfl : sep :: right = tail := hrest
        exact absurd List.mem_cons_self hfree
    | cons head rest =>
        obtain rfl := (List.cons.inj hrest).1
        exact ⟨rest, rfl⟩

/-- A separator that a front does not contain stands behind the front. -/
theorem after_of_free_front {front field : List α} (hfree : sep ∉ front)
    (h : front ++ field = left ++ sep :: right) :
    ∃ rest, left = front ++ rest ∧ field = rest ++ sep :: right := by
  obtain ⟨rest, hleft, hfield⟩ | ⟨rest, rfl, hrest⟩ := List.append_eq_append_iff.mp h
  · exact ⟨rest, hleft, hfield⟩
  · cases rest with
    | nil => exact ⟨[], by simp, hrest.symm⟩
    | cons head rest =>
        obtain rfl := (List.cons.inj hrest).1
        simp at hfree

/-! ## Cutting at the first separator -/

/-- What stands before and after the first separator. -/
def splitOnce {α : Type*} [DecidableEq α] (sep : α) : List α → Option (List α × List α)
  | [] => none
  | x :: rest =>
      if x = sep then some ([], rest)
      else (splitOnce sep rest).map fun (before, after) => (x :: before, after)

theorem splitOnce_eq_none [DecidableEq α] {text : List α} :
    splitOnce sep text = none ↔ sep ∉ text := by
  induction text with
  | nil => simp [splitOnce]
  | cons x rest ih =>
      rw [splitOnce]
      split
      case isTrue hx => simp [hx]
      case isFalse hx => simp [ih, Ne.symm hx]

theorem splitOnce_append [DecidableEq α] (hfree : sep ∉ left) (right : List α) :
    splitOnce sep (left ++ sep :: right) = some (left, right) := by
  induction left with
  | nil => simp [splitOnce]
  | cons x left ih =>
      rw [List.mem_cons, not_or] at hfree
      rw [List.cons_append, splitOnce, if_neg (Ne.symm hfree.1), ih hfree.2]
      rfl

theorem splitOnce_eq_some [DecidableEq α] {text : List α} :
    splitOnce sep text = some (left, right) ↔
      text = left ++ sep :: right ∧ sep ∉ left := by
  constructor
  · intro h
    induction text generalizing left with
    | nil => cases h
    | cons x rest ih =>
        rw [splitOnce] at h
        split at h
        case isTrue hx =>
          cases h
          exact ⟨by rw [hx]; rfl, List.not_mem_nil⟩
        case isFalse hx =>
          obtain ⟨⟨before, after⟩, hrest, heq⟩ := Option.map_eq_some_iff.mp h
          cases heq
          obtain ⟨rfl, hfree⟩ := ih hrest
          exact ⟨rfl, List.not_mem_cons_of_ne_of_not_mem (Ne.symm hx) hfree⟩
  · rintro ⟨rfl, hfree⟩
    exact splitOnce_append hfree right

/-- A tail without separators goes to what stands after the first one. -/
theorem splitOnce_append_free [DecidableEq α] {tail : List α} (hfree : sep ∉ tail)
    (text : List α) :
    splitOnce sep (text ++ tail) =
      (splitOnce sep text).map fun (before, after) => (before, after ++ tail) := by
  cases h : splitOnce sep text with
  | none =>
      have htext := splitOnce_eq_none.mp h
      rw [Option.map_none, splitOnce_eq_none, List.mem_append, not_or]
      exact ⟨htext, hfree⟩
  | some parts =>
      obtain ⟨before, after⟩ := parts
      obtain ⟨rfl, hbefore⟩ := splitOnce_eq_some.mp h
      rw [List.append_assoc, List.cons_append]
      exact splitOnce_append hbefore (after ++ tail)

/-! ## Splitting at every separator -/

theorem not_mem_of_mem_splitOn [DecidableEq α] {text part : List α}
    (h : part ∈ text.splitOn sep) : sep ∉ part := by
  induction text generalizing part with
  | nil =>
      rw [List.splitOn_nil, List.mem_singleton] at h
      rw [h]
      exact List.not_mem_nil
  | cons x text ih =>
      rw [List.splitOn_cons_eq_if_modifyHead] at h
      split at h
      case isTrue =>
        obtain rfl | h := List.mem_cons.mp h
        · exact List.not_mem_nil
        · exact ih h
      case isFalse hx =>
        cases hparts : text.splitOn sep with
        | nil => exact absurd hparts (List.splitOn_ne_nil sep text)
        | cons first rest =>
            rw [hparts] at h ih
            obtain rfl | h := List.mem_cons.mp h
            · have hne : sep ≠ x := fun heq => hx (by simp [heq])
              exact List.not_mem_cons_of_ne_of_not_mem hne (ih List.mem_cons_self)
            · exact ih (List.mem_cons_of_mem _ h)

theorem infix_of_mem_intercalate {parts : List (List α)} {part : List α}
    (h : part ∈ parts) : part <:+: List.intercalate [sep] parts := by
  induction parts with
  | nil => cases h
  | cons first rest ih =>
      cases rest with
      | nil =>
          obtain rfl := List.mem_singleton.mp h
          simp
      | cons next rest =>
          rw [List.intercalate_cons_cons]
          obtain rfl | h := List.mem_cons.mp h
          · rw [List.append_assoc]
            exact (List.prefix_append _ _).isInfix
          · exact (ih h).trans (List.suffix_append _ _).isInfix

theorem intercalate_concat_append (init : List (List α)) (last tail : List α) :
    List.intercalate [sep] (init ++ [last ++ tail]) =
      List.intercalate [sep] (init ++ [last]) ++ tail := by
  induction init with
  | nil => simp
  | cons first init ih =>
      have hne (l : List α) : init ++ [l] ≠ [] := by simp
      rw [List.cons_append, List.cons_append,
        List.intercalate_cons_of_ne_nil (hne _),
        List.intercalate_cons_of_ne_nil (hne _), ih]
      simp

/-- A tail without separators goes to the last part. -/
theorem splitOn_append_free [DecidableEq α] {tail : List α} (hfree : sep ∉ tail)
    (text : List α) :
    ∃ init last, text.splitOn sep = init ++ [last] ∧
      (text ++ tail).splitOn sep = init ++ [last ++ tail] := by
  obtain hnone | ⟨init, last, hparts⟩ := List.eq_nil_or_concat' (text.splitOn sep)
  · exact absurd hnone (List.splitOn_ne_nil sep text)
  refine ⟨init, last, hparts, ?_⟩
  have hall : ∀ part ∈ init ++ [last ++ tail], sep ∉ part := by
    intro part hpart
    obtain hpart | hpart := List.mem_append.mp hpart
    · exact not_mem_of_mem_splitOn (hparts ▸ List.mem_append_left _ hpart)
    · rw [List.mem_singleton.mp hpart, List.mem_append, not_or]
      have hlast : last ∈ text.splitOn sep := by rw [hparts]; simp
      exact ⟨not_mem_of_mem_splitOn hlast, hfree⟩
  have hjoin : List.intercalate [sep] (init ++ [last ++ tail]) = text ++ tail := by
    rw [intercalate_concat_append, ← hparts, List.intercalate_splitOn]
  rw [← hjoin]
  exact List.splitOn_intercalate sep hall (by simp)

/-! ## Decimal numbers -/

theorem isDigit_of_mem_repr {n : ℕ} {c : Char} (h : c ∈ n.repr.toList) :
    c.isDigit = true :=
  Nat.isDigit_of_mem_toDigits (by decide) (by decide) (Nat.toList_repr ▸ h)

theorem not_mem_repr (n : ℕ) {c : Char} (hc : c.isDigit = false) :
    c ∉ n.repr.toList := by
  intro h
  rw [isDigit_of_mem_repr h] at hc
  cases hc

theorem repr_injective : Function.Injective Nat.repr := by
  intro n m h
  have hdigits : Nat.toDigits 10 n = Nat.toDigits 10 m := by
    rw [← Nat.toList_repr, h, Nat.toList_repr]
  rw [← Nat.ofDigitChars_ten_toDigits (n := n), hdigits, Nat.ofDigitChars_ten_toDigits]

end Yunpan.Separator
