import Yunpan.Core.Transition
import Yunpan.Core.Update

/-!
# Taking over a slot from its previous holder

Tasks compete for one slot per key.  A newcomer first empties the slot,
signals whoever it found there, waits as long as it likes and then puts itself
in.  A holder that ends signals itself and later clears the slot by key,
without looking whose entry lies there; it may also quit without clearing.
None of these actions are one critical section, so holders can overlap.  This
module says under which orders of actions the slot still names its holder.
-/

namespace Yunpan.Takeover

open Yunpan.Transition

/-- Where a task stands.  `entering` keeps the holder that was found in the
slot until it is signalled. -/
inductive Phase (Key Task : Type*) where
  | idle
  | entering (key : Key) (old : Option Task)
  | holding (key : Key)
  | leaving (key : Key)
  | gone (key : Key)

variable {Key Task : Type*}

/-- The key a task has put itself in for, whatever happened afterwards. -/
def Phase.registered? : Phase Key Task → Option Key
  | .idle => none
  | .entering _ _ => none
  | .holding key => some key
  | .leaving key => some key
  | .gone key => some key

/-- The key of a task whose clearing of the slot may still come. -/
def Phase.settled? : Phase Key Task → Option Key
  | .holding key => some key
  | .leaving key => some key
  | _ => none

@[ext]
structure Registry (Key Task : Type*) where
  slot : Key → Option Task
  phase : Task → Phase Key Task
  signalled : Task → Bool

inductive Label (Key Task : Type*) where
  | take (task : Task) (key : Key)
  | signal (task : Task)
  | put (task : Task)
  | leave (task : Task)
  | quit (task : Task)
  | clear (task : Task)

def Registry.empty : Registry Key Task where
  slot := fun _ => none
  phase := fun _ => .idle
  signalled := fun _ => false

variable [DecidableEq Key] [DecidableEq Task]

def Registry.step (s : Registry Key Task) :
    Label Key Task → Option (Registry Key Task)
  | .take task key =>
      match s.phase task with
      | .idle =>
          some { s with
            slot := Function.update s.slot key none
            phase := Function.update s.phase task (.entering key (s.slot key)) }
      | _ => none
  | .signal task =>
      match s.phase task with
      | .entering key (some old) =>
          some { s with
            phase := Function.update s.phase task (.entering key none)
            signalled := Function.update s.signalled old true }
      | _ => none
  | .put task =>
      match s.phase task with
      | .entering key none =>
          some { s with
            slot := Function.update s.slot key (some task)
            phase := Function.update s.phase task (.holding key) }
      | _ => none
  | .leave task =>
      match s.phase task with
      | .holding key =>
          some { s with
            phase := Function.update s.phase task (.leaving key)
            signalled := Function.update s.signalled task true }
      | _ => none
  | .quit task =>
      match s.phase task with
      | .holding key =>
          some { s with phase := Function.update s.phase task (.gone key) }
      | _ => none
  | .clear task =>
      match s.phase task with
      | .leaving key =>
          some { s with
            slot := Function.update s.slot key none
            phase := Function.update s.phase task (.gone key) }
      | _ => none

def system : System (Registry Key Task) (Label Key Task) where
  init := Registry.empty
  step := Registry.step

/-! ## What one step does -/

variable {s s' : Registry Key Task}

theorem take_cases {task : Task} {key : Key}
    (h : s.step (.take task key) = some s') :
    s.phase task = .idle ∧
      s' = { s with
        slot := Function.update s.slot key none
        phase := Function.update s.phase task (.entering key (s.slot key)) } := by
  simp only [Registry.step] at h
  split at h
  case h_1 hphase => exact ⟨hphase, by simpa using h.symm⟩
  case h_2 => cases h

theorem signal_cases {task : Task} (h : s.step (.signal task) = some s') :
    ∃ key old, s.phase task = .entering key (some old) ∧
      s' = { s with
        phase := Function.update s.phase task (.entering key none)
        signalled := Function.update s.signalled old true } := by
  simp only [Registry.step] at h
  split at h
  case h_1 key old hphase => exact ⟨key, old, hphase, by simpa using h.symm⟩
  case h_2 => cases h

theorem put_cases {task : Task} (h : s.step (.put task) = some s') :
    ∃ key, s.phase task = .entering key none ∧
      s' = { s with
        slot := Function.update s.slot key (some task)
        phase := Function.update s.phase task (.holding key) } := by
  simp only [Registry.step] at h
  split at h
  case h_1 key hphase => exact ⟨key, hphase, by simpa using h.symm⟩
  case h_2 => cases h

theorem leave_cases {task : Task} (h : s.step (.leave task) = some s') :
    ∃ key, s.phase task = .holding key ∧
      s' = { s with
        phase := Function.update s.phase task (.leaving key)
        signalled := Function.update s.signalled task true } := by
  simp only [Registry.step] at h
  split at h
  case h_1 key hphase => exact ⟨key, hphase, by simpa using h.symm⟩
  case h_2 => cases h

theorem quit_cases {task : Task} (h : s.step (.quit task) = some s') :
    ∃ key, s.phase task = .holding key ∧
      s' = { s with phase := Function.update s.phase task (.gone key) } := by
  simp only [Registry.step] at h
  split at h
  case h_1 key hphase => exact ⟨key, hphase, by simpa using h.symm⟩
  case h_2 => cases h

theorem clear_cases {task : Task} (h : s.step (.clear task) = some s') :
    ∃ key, s.phase task = .leaving key ∧
      s' = { s with
        slot := Function.update s.slot key none
        phase := Function.update s.phase task (.gone key) } := by
  simp only [Registry.step] at h
  split at h
  case h_1 key hphase => exact ⟨key, hphase, by simpa using h.symm⟩
  case h_2 => cases h

/-! ## Newcomers that wait for the previous holder to clear -/

/-- A task puts itself in only when nobody registered for the same key still
has its clearing ahead. -/
def PutsWhenSettled (s : Registry Key Task) : Label Key Task → Prop
  | .put task => ∀ key, s.phase task = .entering key none →
      ∀ other, (s.phase other).settled? ≠ some key
  | _ => True

/-- One holder per key, and the slot of a key with a holder names it or is
empty. -/
structure OneHolder (s : Registry Key Task) : Prop where
  unique : ∀ {task other key}, (s.phase task).settled? = some key →
    (s.phase other).settled? = some key → task = other
  slot_own : ∀ {task other key}, (s.phase task).settled? = some key →
    s.slot key = some other → other = task

omit [DecidableEq Key] [DecidableEq Task] in
theorem oneHolder_empty : OneHolder (Registry.empty : Registry Key Task) where
  unique := by intro _ _ _ h; simp [Registry.empty, Phase.settled?] at h
  slot_own := by intro _ _ _ h; simp [Registry.empty, Phase.settled?] at h

omit [DecidableEq Key] in
/-- A task keeps a phase that the task which moves is not in. -/
theorem phase_kept {mover other : Task} {phase kept : Phase Key Task}
    (h : s.phase other = kept) (hmover : s.phase mover ≠ kept) :
    Function.update s.phase mover phase other = kept := by
  have hne : other ≠ mover := by
    rintro rfl
    exact hmover h
  rw [Function.update_of_ne hne, h]

omit [DecidableEq Key] in
/-- Changing the phase of a task to one that is not ahead of clearing adds no
holder. -/
theorem settled_of_update {mover task : Task} {phase : Phase Key Task} {key : Key}
    (hphase : phase.settled? = none)
    (h : (Function.update s.phase mover phase task).settled? = some key) :
    task ≠ mover ∧ (s.phase task).settled? = some key := by
  rcases update_cases (rfl : Function.update s.phase mover phase task = _) with
    ⟨-, hnew⟩ | ⟨hne, hold⟩
  · rw [← hnew, hphase] at h
    cases h
  · exact ⟨hne, by rwa [hold]⟩

omit [DecidableEq Key] in
/-- A task that turns to something other than holding and leaving, while no entry comes
into a slot, breaks nothing. -/
theorem OneHolder.unsettle (h : OneHolder s) {mover : Task} {phase : Phase Key Task}
    {slot : Key → Option Task} {signalled : Task → Bool} (hphase : phase.settled? = none)
    (hslot : ∀ {key task}, slot key = some task → s.slot key = some task) :
    OneHolder ⟨slot, Function.update s.phase mover phase, signalled⟩ where
  unique ht ht' :=
    h.unique (settled_of_update hphase ht).2 (settled_of_update hphase ht').2
  slot_own ht hentry := h.slot_own (settled_of_update hphase ht).2 (hslot hentry)

theorem OneHolder.step (h : OneHolder s) {label : Label Key Task}
    (hcond : PutsWhenSettled s label) (hstep : s.step label = some s') :
    OneHolder s' := by
  cases label with
  | take task key =>
      obtain ⟨-, rfl⟩ := take_cases hstep
      exact h.unsettle rfl fun hslot => (update_none_eq_some hslot).2
  | signal task =>
      obtain ⟨key, old, -, rfl⟩ := signal_cases hstep
      exact h.unsettle rfl id
  | put task =>
      obtain ⟨key, hentering, rfl⟩ := put_cases hstep
      have hnone : ∀ other, (s.phase other).settled? ≠ some key := by
        exact hcond key hentering
      have hcases : ∀ {t : Task} {k : Key},
          (Function.update s.phase task (.holding key) t).settled? = some k →
            (t = task ∧ k = key) ∨ (k ≠ key ∧ (s.phase t).settled? = some k) := by
        intro t k ht
        rcases update_cases (rfl : Function.update s.phase task _ t = _) with
          ⟨heq, hnew⟩ | ⟨-, hold⟩
        · rw [← hnew] at ht
          exact Or.inl ⟨heq, by simpa [Phase.settled?, eq_comm] using ht⟩
        · rw [← hold] at ht
          exact Or.inr ⟨fun hk => hnone t (hk ▸ ht), ht⟩
      refine ⟨?_, ?_⟩
      · intro t t' k ht ht'
        rcases hcases ht with ⟨rfl, rfl⟩ | ⟨hk, hold⟩ <;>
          rcases hcases ht' with ⟨rfl, hk'⟩ | ⟨hk', hold'⟩
        · rfl
        · exact absurd rfl hk'
        · exact absurd hk' hk
        · exact h.unique hold hold'
      · intro t t' k ht hslot
        rcases hcases ht with ⟨rfl, rfl⟩ | ⟨hk, hold⟩
        · simpa [eq_comm] using hslot
        · exact h.slot_own hold (by simpa [Function.update_of_ne hk] using hslot)
  | leave task =>
      obtain ⟨key, hholding, rfl⟩ := leave_cases hstep
      have hcases : ∀ {t : Task} {k : Key},
          (Function.update s.phase task (.leaving key) t).settled? = some k →
            (s.phase t).settled? = some k := by
        intro t k ht
        rcases update_cases (rfl : Function.update s.phase task _ t = _) with
          ⟨rfl, hnew⟩ | ⟨-, hold⟩
        · rw [← hnew] at ht
          simpa [hholding, Phase.settled?] using ht
        · rwa [hold]
      exact ⟨fun ht ht' => h.unique (hcases ht) (hcases ht'),
        fun ht hslot => h.slot_own (hcases ht) hslot⟩
  | quit task =>
      obtain ⟨key, -, rfl⟩ := quit_cases hstep
      exact h.unsettle rfl id
  | clear task =>
      obtain ⟨key, -, rfl⟩ := clear_cases hstep
      exact h.unsettle rfl fun hslot => (update_none_eq_some hslot).2

/-- A holder is in its slot, or it held before and was not in the slot then, or this
step is a newcomer that empties the slot. -/
theorem OneHolder.named_step (h : OneHolder s) {label : Label Key Task}
    (hcond : PutsWhenSettled s label) (hstep : s.step label = some s') {task : Task}
    {key : Key} (hholding : s'.phase task = .holding key) :
    s'.slot key = some task ∨ s.phase task = .holding key ∧
      (s.slot key = some task → ∃ other, label = .take other key) := by
  have hkept : s.phase task = .holding key →
      (s.slot key = some task → s'.slot key = some task) →
      s'.slot key = some task ∨ s.phase task = .holding key ∧
        (s.slot key = some task → ∃ other, label = .take other key) := by
    intro hold hsame
    by_cases hslot : s.slot key = some task
    · exact Or.inl (hsame hslot)
    · exact Or.inr ⟨hold, fun hnamed => absurd hnamed hslot⟩
  cases label with
  | take mover k =>
      obtain ⟨-, rfl⟩ := take_cases hstep
      rcases update_cases hholding with ⟨-, hnew⟩ | ⟨-, hold⟩
      · cases hnew
      by_cases hk : key = k
      · exact Or.inr ⟨hold, fun _ => ⟨mover, by rw [hk]⟩⟩
      · exact hkept hold fun hslot => by simpa [Function.update_of_ne hk] using hslot
  | signal mover =>
      obtain ⟨k, old, -, rfl⟩ := signal_cases hstep
      rcases update_cases hholding with ⟨-, hnew⟩ | ⟨-, hold⟩
      · cases hnew
      · exact hkept hold id
  | put mover =>
      obtain ⟨k, hentering, rfl⟩ := put_cases hstep
      rcases update_cases hholding with ⟨rfl, hnew⟩ | ⟨-, hold⟩
      · cases hnew
        exact Or.inl (by simp)
      have hk : key ≠ k := by
        rintro rfl
        exact hcond key hentering task (by rw [hold]; rfl)
      exact hkept hold fun hslot => by simpa [Function.update_of_ne hk] using hslot
  | leave mover =>
      obtain ⟨k, -, rfl⟩ := leave_cases hstep
      rcases update_cases hholding with ⟨-, hnew⟩ | ⟨-, hold⟩
      · cases hnew
      · exact hkept hold id
  | quit mover =>
      obtain ⟨k, -, rfl⟩ := quit_cases hstep
      rcases update_cases hholding with ⟨-, hnew⟩ | ⟨-, hold⟩
      · cases hnew
      · exact hkept hold id
  | clear mover =>
      obtain ⟨k, hleaving, rfl⟩ := clear_cases hstep
      rcases update_cases hholding with ⟨-, hnew⟩ | ⟨hne, hold⟩
      · cases hnew
      have hk : key ≠ k := by
        rintro rfl
        have ht : (s.phase task).settled? = some key := by rw [hold]; rfl
        have hmover : (s.phase mover).settled? = some key := by rw [hleaving]; rfl
        exact hne (h.unique ht hmover)
      exact hkept hold fun hslot => by simpa [Function.update_of_ne hk] using hslot

/-- In a run in which newcomers wait for the clearing, a holder is in its slot unless
a newcomer found its entry there and took it out. -/
theorem Run.holder_named {history : List (Registry Key Task × Label Key Task)}
    (hrun : system.Run history s) (hcond : System.Always PutsWhenSettled history)
    {task : Task} {key : Key} (hholding : s.phase task = .holding key) :
    s.slot key = some task ∨ ∃ earlier other,
      (earlier, Label.take other key) ∈ history ∧ earlier.slot key = some task := by
  induction hrun with
  | start => cases hholding
  | @snoc history s s' label hbefore hstep ih =>
      obtain ⟨hlabel, hrest⟩ := System.always_cons.mp hcond
      have hone : OneHolder s := hbefore.invariant_of_always hrest oneHolder_empty
        fun _ _ _ _ hinv hcond hstep => hinv.step hcond hstep
      obtain hslot | ⟨hheld, htaken⟩ := hone.named_step hlabel hstep hholding
      · exact Or.inl hslot
      obtain hslot | ⟨earlier, other, hentry, hslot⟩ := ih hrest hheld
      · obtain ⟨other, rfl⟩ := htaken hslot
        exact Or.inr ⟨s, other, List.mem_cons_self, hslot⟩
      · exact Or.inr ⟨earlier, other, List.mem_cons_of_mem _ hentry, hslot⟩

/-! ## Newcomers that do not overlap -/

/-- Between emptying the slot and filling it a newcomer is alone, and a task
that clears a slot finds no entry but its own. -/
def EntersAlone (s : Registry Key Task) : Label Key Task → Prop
  | .take _ key => ∀ other old, s.phase other ≠ .entering key old
  | .clear task => ∀ key, s.phase task = .leaving key →
      ∀ other, s.slot key = some other → other = task
  | _ => True

/-- Whoever is registered and not signalled is in the slot, or a newcomer holds
its entry and has yet to signal it. -/
structure AllSignalled (s : Registry Key Task) : Prop where
  accounted : ∀ {task key}, (s.phase task).registered? = some key →
    s.signalled task = false →
    s.slot key = some task ∨ ∃ other, s.phase other = .entering key (some task)
  alone : ∀ {task other key old old'}, s.phase task = .entering key old →
    s.phase other = .entering key old' → task = other
  emptied : ∀ {task key old}, s.phase task = .entering key old →
    s.slot key = none
  leaving_signalled : ∀ {task key}, s.phase task = .leaving key →
    s.signalled task = true

omit [DecidableEq Key] [DecidableEq Task] in
theorem allSignalled_empty :
    AllSignalled (Registry.empty : Registry Key Task) where
  accounted := by intro _ _ h; simp [Registry.empty, Phase.registered?] at h
  alone := by intro _ _ _ _ _ h; simp [Registry.empty] at h
  emptied := by intro _ _ _ h; simp [Registry.empty] at h
  leaving_signalled := by intro _ _ h; simp [Registry.empty] at h

omit [DecidableEq Key] [DecidableEq Task] in
/-- Nobody who is registered for a key is left unsignalled when a newcomer that
has signalled its predecessor is about to put itself in. -/
theorem AllSignalled.signalled_of_entering (h : AllSignalled s)
    {task other : Task} {key : Key} (hentering : s.phase task = .entering key none)
    (hother : (s.phase other).registered? = some key) :
    s.signalled other = true := by
  by_contra hsig
  rcases h.accounted hother (Bool.eq_false_iff.mpr hsig) with hslot | ⟨third, hthird⟩
  · rw [h.emptied hentering] at hslot
    cases hslot
  · have := h.alone hentering hthird
    subst this
    rw [hentering] at hthird
    cases hthird

omit [DecidableEq Key] [DecidableEq Task] in
/-- At most one registered task per key has not been signalled. -/
theorem AllSignalled.unique (h : AllSignalled s) {task other : Task} {key : Key}
    (htask : (s.phase task).registered? = some key)
    (hsig : s.signalled task = false)
    (hother : (s.phase other).registered? = some key)
    (hsig' : s.signalled other = false) : task = other := by
  rcases h.accounted htask hsig with hslot | ⟨third, hthird⟩ <;>
    rcases h.accounted hother hsig' with hslot' | ⟨fourth, hfourth⟩
  · rw [hslot] at hslot'
    exact Option.some.inj hslot'
  · rw [h.emptied hfourth] at hslot
    cases hslot
  · rw [h.emptied hthird] at hslot'
    cases hslot'
  · have := h.alone hthird hfourth
    subst this
    rw [hthird] at hfourth
    cases hfourth
    rfl

omit [DecidableEq Key] in
/-- Moving a task between phases of the same registration adds no newcomer. -/
theorem entering_of_update {mover task : Task} {phase : Phase Key Task}
    {key : Key} {old : Option Task} (hphase : ∀ key old, phase ≠ .entering key old)
    (h : Function.update s.phase mover phase task = .entering key old) :
    task ≠ mover ∧ s.phase task = .entering key old := by
  rcases update_cases h with ⟨-, hnew⟩ | hold
  · exact absurd hnew (hphase _ _)
  · exact hold

omit [DecidableEq Key] in
theorem registered_of_update {mover task : Task} {phase : Phase Key Task}
    {key : Key} (hphase : phase.registered? = (s.phase mover).registered?)
    (h : (Function.update s.phase mover phase task).registered? = some key) :
    (s.phase task).registered? = some key := by
  rcases update_cases (rfl : Function.update s.phase mover phase task = _) with
    ⟨rfl, hnew⟩ | ⟨-, hold⟩
  · rwa [← hphase, hnew]
  · rwa [hold]

theorem AllSignalled.take (h : AllSignalled s) {task : Task} {key : Key}
    (hidle : s.phase task = .idle)
    (halone : ∀ other old, s.phase other ≠ .entering key old) :
    AllSignalled { s with
      slot := Function.update s.slot key none
      phase := Function.update s.phase task (.entering key (s.slot key)) } := by
  refine ⟨?_, ?_, ?_, ?_⟩
  · intro t k ht hsig
    have hold := registered_of_update (by simp [hidle, Phase.registered?]) ht
    rcases h.accounted hold hsig with hslot | ⟨other, hother⟩
    · by_cases hk : k = key
      · subst hk
        exact Or.inr ⟨task, by simp [hslot]⟩
      · exact Or.inl (by simpa [Function.update_of_ne hk] using hslot)
    · exact Or.inr ⟨other, phase_kept hother (by simp [hidle])⟩
  · intro t t' k old old' ht ht'
    rcases update_cases ht with ⟨rfl, hnew⟩ | ⟨-, hold⟩ <;>
      rcases update_cases ht' with ⟨rfl, hnew'⟩ | ⟨-, hold'⟩
    · rfl
    · cases hnew
      exact absurd hold' (halone _ _)
    · cases hnew'
      exact absurd hold (halone _ _)
    · exact h.alone hold hold'
  · intro t k old ht
    rcases update_cases ht with ⟨-, hnew⟩ | ⟨-, hold⟩
    · cases hnew
      simp
    · have hk : k ≠ key := by
        rintro rfl
        exact halone _ _ hold
      simpa [Function.update_of_ne hk] using h.emptied hold
  · intro t k ht
    rcases update_cases ht with ⟨-, hnew⟩ | ⟨-, hold⟩
    · cases hnew
    · exact h.leaving_signalled hold

omit [DecidableEq Key] in
theorem AllSignalled.signal (h : AllSignalled s) {task old : Task} {key : Key}
    (hentering : s.phase task = .entering key (some old)) :
    AllSignalled { s with
      phase := Function.update s.phase task (.entering key none)
      signalled := Function.update s.signalled old true } := by
  have hmono : ∀ {t : Task}, Function.update s.signalled old true t = false →
      t ≠ old ∧ s.signalled t = false := by
    intro t ht
    rcases update_cases ht with ⟨-, hnew⟩ | hold
    · cases hnew
    · exact hold
  have hback : ∀ {t : Task} {k : Key} {o : Option Task},
      Function.update s.phase task (.entering key none) t = .entering k o →
        ∃ o', s.phase t = .entering k o' := by
    intro t k o ht
    rcases update_cases ht with ⟨rfl, hnew⟩ | ⟨-, hold⟩
    · cases hnew
      exact ⟨_, hentering⟩
    · exact ⟨_, hold⟩
  refine ⟨?_, ?_, ?_, ?_⟩
  · intro t k ht hsig
    obtain ⟨hne, hsig⟩ := hmono hsig
    have hold := registered_of_update
      (by simp [hentering, Phase.registered?]) ht
    rcases h.accounted hold hsig with hslot | ⟨other, hother⟩
    · exact Or.inl hslot
    · exact Or.inr ⟨other, phase_kept hother (by simp [hentering, Ne.symm hne])⟩
  · intro t t' k o o' ht ht'
    obtain ⟨_, hold⟩ := hback ht
    obtain ⟨_, hold'⟩ := hback ht'
    exact h.alone hold hold'
  · intro t k o ht
    obtain ⟨_, hold⟩ := hback ht
    exact h.emptied hold
  · intro t k ht
    rcases update_cases ht with ⟨-, hnew⟩ | ⟨-, hold⟩
    · cases hnew
    · by_cases hto : t = old
      · simp [hto]
      · simpa [Function.update_of_ne hto] using h.leaving_signalled hold

theorem AllSignalled.put (h : AllSignalled s) {task : Task} {key : Key}
    (hentering : s.phase task = .entering key none) :
    AllSignalled { s with
      slot := Function.update s.slot key (some task)
      phase := Function.update s.phase task (.holding key) } := by
  have hcases : ∀ {t : Task} {k : Key},
      (Function.update s.phase task (.holding key) t).registered? = some k →
        (t = task ∧ k = key) ∨ (s.phase t).registered? = some k := by
    intro t k ht
    rcases update_cases (rfl : Function.update s.phase task _ t = _) with
      ⟨heq, hnew⟩ | ⟨-, hold⟩
    · rw [← hnew] at ht
      exact Or.inl ⟨heq, by simpa [Phase.registered?, eq_comm] using ht⟩
    · rw [← hold] at ht
      exact Or.inr ht
  refine ⟨?_, ?_, ?_, ?_⟩
  · intro t k ht hsig
    rcases hcases ht with ⟨rfl, rfl⟩ | hreg
    · exact Or.inl (by simp)
    · have hk : k ≠ key := by
        rintro rfl
        rw [h.signalled_of_entering hentering hreg] at hsig
        cases hsig
      rcases h.accounted hreg hsig with hslot | ⟨other, hother⟩
      · exact Or.inl (by simpa [Function.update_of_ne hk] using hslot)
      · exact Or.inr ⟨other, phase_kept hother (by simp [hentering])⟩
  · intro t t' k o o' ht ht'
    exact h.alone (entering_of_update (by simp) ht).2
      (entering_of_update (by simp) ht').2
  · intro t k o ht
    obtain ⟨hne, hold⟩ := entering_of_update (by simp) ht
    have hk : k ≠ key := by
      rintro rfl
      exact hne (h.alone hold hentering)
    simpa [Function.update_of_ne hk] using h.emptied hold
  · intro t k ht
    rcases update_cases ht with ⟨-, hnew⟩ | ⟨-, hold⟩
    · cases hnew
    · exact h.leaving_signalled hold

omit [DecidableEq Key] in
theorem AllSignalled.leave (h : AllSignalled s) {task : Task} {key : Key}
    (hholding : s.phase task = .holding key) :
    AllSignalled { s with
      phase := Function.update s.phase task (.leaving key)
      signalled := Function.update s.signalled task true } := by
  refine ⟨?_, ?_, ?_, ?_⟩
  · intro t k ht hsig
    rcases update_cases hsig with ⟨-, hnew⟩ | ⟨-, hsig⟩
    · cases hnew
    have hold := registered_of_update
      (by simp [hholding, Phase.registered?]) ht
    rcases h.accounted hold hsig with hslot | ⟨other, hother⟩
    · exact Or.inl hslot
    · exact Or.inr ⟨other, phase_kept hother (by simp [hholding])⟩
  · intro t t' k o o' ht ht'
    exact h.alone (entering_of_update (by simp) ht).2
      (entering_of_update (by simp) ht').2
  · intro t k o ht
    exact h.emptied (entering_of_update (by simp) ht).2
  · intro t k ht
    rcases update_cases ht with ⟨rfl, -⟩ | ⟨hne, hold⟩
    · simp
    · simpa [Function.update_of_ne hne] using h.leaving_signalled hold

omit [DecidableEq Key] in
/-- A task that ends keeps the account as long as the slot it clears, if any,
held its own entry. -/
theorem AllSignalled.retire (h : AllSignalled s) {task : Task} {key : Key}
    (hphase : s.phase task = .holding key ∨ s.phase task = .leaving key)
    {slot : Key → Option Task}
    (hslot : ∀ k other, s.signalled other = false → s.slot k = some other →
      slot k = some other)
    (hempty : ∀ k, s.slot k = none → slot k = none) :
    AllSignalled { s with
      slot := slot
      phase := Function.update s.phase task (.gone key) } := by
  have hregistered : (Phase.gone key : Phase Key Task).registered? =
      (s.phase task).registered? := by
    rcases hphase with hphase | hphase <;> simp [hphase, Phase.registered?]
  have hno : ∀ k old, s.phase task ≠ .entering k old := by
    rcases hphase with hphase | hphase <;> simp [hphase]
  refine ⟨?_, ?_, ?_, ?_⟩
  · intro t k ht hsig
    have hold := registered_of_update hregistered ht
    rcases h.accounted hold hsig with hs | ⟨other, hother⟩
    · exact Or.inl (hslot _ _ hsig hs)
    · refine Or.inr ⟨other, ?_⟩
      have hne : other ≠ task := by
        rintro rfl
        exact hno _ _ hother
      simp [Function.update_of_ne hne, hother]
  · intro t t' k o o' ht ht'
    exact h.alone (entering_of_update (by simp) ht).2
      (entering_of_update (by simp) ht').2
  · intro t k o ht
    exact hempty _ (h.emptied (entering_of_update (by simp) ht).2)
  · intro t k ht
    rcases update_cases ht with ⟨-, hnew⟩ | ⟨-, hold⟩
    · cases hnew
    · exact h.leaving_signalled hold

theorem AllSignalled.step (h : AllSignalled s) {label : Label Key Task}
    (hcond : EntersAlone s label) (hstep : s.step label = some s') :
    AllSignalled s' := by
  cases label with
  | take task key =>
      obtain ⟨hidle, rfl⟩ := take_cases hstep
      exact h.take hidle hcond
  | signal task =>
      obtain ⟨key, old, hentering, rfl⟩ := signal_cases hstep
      exact h.signal hentering
  | put task =>
      obtain ⟨key, hentering, rfl⟩ := put_cases hstep
      exact h.put hentering
  | leave task =>
      obtain ⟨key, hholding, rfl⟩ := leave_cases hstep
      exact h.leave hholding
  | quit task =>
      obtain ⟨key, hholding, rfl⟩ := quit_cases hstep
      exact h.retire (Or.inl hholding) (fun _ _ _ hslot => hslot) fun _ hslot => hslot
  | clear task =>
      obtain ⟨key, hleaving, rfl⟩ := clear_cases hstep
      refine h.retire (Or.inr hleaving) ?_ ?_
      · intro k other hsig hslot
        have hk : k ≠ key := by
          rintro rfl
          have := hcond k hleaving other hslot
          subst this
          simp [h.leaving_signalled hleaving] at hsig
        simpa [Function.update_of_ne hk] using hslot
      · intro k hslot
        by_cases hk : k = key
        · simp [hk]
        · simpa [Function.update_of_ne hk] using hslot

end Yunpan.Takeover
