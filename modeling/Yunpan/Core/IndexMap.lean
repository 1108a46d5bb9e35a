import Mathlib.Data.List.Basic

/-!
# Maps that keep the order of insertion

An `IndexMap` is a list of entries: a new key goes to the end, and a key that is
already there keeps its place.
-/

namespace Yunpan.IndexMap

variable {α β : Type*} [DecidableEq α]

def get (entries : List (α × β)) (key : α) : Option β :=
  (entries.find? fun entry => entry.1 = key).map Prod.snd

/-- `entry(key).or_insert(fallback)`, then an update in place. -/
def modify (entries : List (α × β)) (key : α) (fallback : β) (f : β → β) :
    List (α × β) :=
  match entries with
  | [] => [(key, f fallback)]
  | (k, value) :: rest =>
      if k = key then (k, f value) :: rest else (k, value) :: modify rest key fallback f

def insert (entries : List (α × β)) (key : α) (value : β) : List (α × β) :=
  modify entries key value fun _ => value

/-- `remove`: no entry has the key afterwards. -/
def remove (entries : List (α × β)) (key : α) : List (α × β) :=
  entries.filter fun entry => entry.1 ≠ key

/-- Set the value of a key, or take its entry away. -/
def assign (entries : List (α × β)) (key : α) : Option β → List (α × β)
  | some value => insert entries key value
  | none => remove entries key

theorem mem_of_get {entries : List (α × β)} {key : α} {value : β}
    (h : get entries key = some value) : (key, value) ∈ entries := by
  obtain ⟨entry, hfind, rfl⟩ := Option.map_eq_some_iff.mp h
  have hkey : entry.1 = key := by simpa using List.find?_some hfind
  rw [← hkey]
  exact List.mem_of_find?_eq_some hfind

theorem get_cons (k : α) (value : β) (rest : List (α × β)) (key : α) :
    get ((k, value) :: rest) key = if k = key then some value else get rest key := by
  by_cases hk : k = key <;> simp [get, hk]

/-- An update in place changes what its key leads to, and nothing else. -/
theorem get_modify (entries : List (α × β)) (key : α) (fallback : β) (f : β → β)
    (key' : α) :
    get (modify entries key fallback f) key' =
      if key' = key then some (f ((get entries key).getD fallback))
      else get entries key' := by
  induction entries with
  | nil =>
      rw [modify, get_cons]
      by_cases hk : key = key' <;> simp [get, hk, eq_comm]
  | cons first rest ih =>
      obtain ⟨k, value⟩ := first
      rw [modify]
      by_cases hk : k = key
      · rw [if_pos hk, get_cons, get_cons, get_cons, if_pos hk, hk]
        by_cases hkey : key = key' <;> simp [hkey, eq_comm]
      · rw [if_neg hk, get_cons, ih, get_cons, get_cons, if_neg hk]
        by_cases hkey : key' = key
        · rw [hkey, if_neg hk, if_pos rfl, if_pos rfl]
        · rw [if_neg hkey, if_neg hkey]

theorem keys_modify (entries : List (α × β)) (key : α) (fallback : β) (f : β → β) :
    (modify entries key fallback f).map Prod.fst =
      if key ∈ entries.map Prod.fst then entries.map Prod.fst
      else entries.map Prod.fst ++ [key] := by
  induction entries with
  | nil => rfl
  | cons first rest ih =>
      obtain ⟨k, value⟩ := first
      rw [modify]
      by_cases hk : k = key
      · simp [hk]
      · rw [if_neg hk, List.map_cons, ih, List.map_cons]
        split
        case isTrue hmem => rw [if_pos (List.mem_cons_of_mem _ hmem)]
        case isFalse hmem =>
          rw [if_neg fun h => hmem (List.mem_of_ne_of_mem (Ne.symm hk) h), List.cons_append]

theorem get_insert (entries : List (α × β)) (key : α) (value : β) (key' : α) :
    get (insert entries key value) key' =
      if key' = key then some value else get entries key' := by
  rw [insert, get_modify]

theorem get_remove (entries : List (α × β)) (key key' : α) :
    get (remove entries key) key' = if key' = key then none else get entries key' := by
  unfold remove
  induction entries with
  | nil => simp [get]
  | cons first rest ih =>
      obtain ⟨k, value⟩ := first
      rw [List.filter_cons]
      by_cases hk : k = key
      · rw [if_neg (by simp [hk]), ih, get_cons, hk]
        by_cases hkey : key' = key
        · simp [hkey]
        · rw [if_neg hkey, if_neg hkey, if_neg (Ne.symm hkey)]
      · rw [if_pos (by simpa using hk), get_cons, get_cons, ih]
        by_cases hkey : k = key'
        · rw [if_pos hkey, if_pos hkey, if_neg (fun h => hk (hkey.trans h))]
        · rw [if_neg hkey, if_neg hkey]

theorem get_assign (entries : List (α × β)) (key : α) (value : Option β) (key' : α) :
    get (assign entries key value) key' =
      if key' = key then value else get entries key' := by
  cases value with
  | some value => exact get_insert entries key value key'
  | none => exact get_remove entries key key'

/-- An insertion brings in one entry and keeps others. -/
theorem mem_insert {entries : List (α × β)} {key : α} {value : β} {entry : α × β}
    (h : entry ∈ insert entries key value) :
    entry = (key, value) ∨ entry ∈ entries := by
  unfold insert at h
  induction entries with
  | nil => exact Or.inl (List.mem_singleton.mp h)
  | cons first rest ih =>
      obtain ⟨k, old⟩ := first
      rw [modify] at h
      split at h
      case isTrue hk =>
        obtain h | h := List.mem_cons.mp h
        · exact Or.inl (hk ▸ h)
        · exact Or.inr (List.mem_cons_of_mem _ h)
      case isFalse =>
        obtain h | h := List.mem_cons.mp h
        · exact Or.inr (h ▸ List.mem_cons_self)
        · exact (ih h).imp_right (List.mem_cons_of_mem _)

end Yunpan.IndexMap
