import Mathlib.Data.Set.Card
import Yunpan.Core.Transition

/-!
# A copy that follows a counter

Writers add items to a store that keeps the last few of them, and each counts its
addition afterwards.  A reader holds a copy of the store and renews it when the counter
has moved.  It reads the counter before it copies, except at its start; and what the
counter shows may come round again.
-/

namespace Yunpan.Mirror

open Yunpan.Transition

/-! ## The last few -/

section Ring

variable {Item : Type*}

/-- A store of limited capacity drops its oldest item for a new one.  The oldest item
is in front. -/
def push (capacity : ℕ) (store : List Item) (item : Item) : List Item :=
  (if capacity ≤ store.length then store.tail else store) ++ [item]

/-- A store that holds the last items holds them after another one, too. -/
theorem reverse_push {capacity : ℕ} (hcapacity : 0 < capacity) {store items : List Item}
    (h : store.reverse = items.take capacity) (item : Item) :
    (push capacity store item).reverse = (item :: items).take capacity := by
  obtain ⟨room, rfl⟩ := Nat.exists_eq_add_one.mpr hcapacity
  have hlength : store.length = min (room + 1) items.length := by
    rw [← List.length_reverse, h, List.length_take]
  rw [push, List.reverse_append, List.reverse_singleton, List.singleton_append,
    List.take_succ_cons]
  split
  case isTrue hfull =>
    have hlong : room + 1 ≤ items.length := by omega
    rw [← List.dropLast_reverse, h, List.dropLast_eq_take, List.length_take,
      Nat.min_eq_left hlong, Nat.add_sub_cancel, List.take_take,
      Nat.min_eq_left (Nat.le_succ room)]
  case isFalse hroom =>
    have hshort : items.length ≤ room := by omega
    rw [h, List.take_of_length_le hshort, List.take_of_length_le (Nat.le_succ_of_le hshort)]

/-- The items that were there when there were `n`; the newest is in front. -/
def asOf (items : List Item) (n : ℕ) : List Item := items.drop (items.length - n)

theorem asOf_length (items : List Item) : asOf items items.length = items := by
  rw [asOf, Nat.sub_self, List.drop_zero]

theorem asOf_cons {items : List Item} {n : ℕ} (h : n ≤ items.length) (item : Item) :
    asOf (item :: items) n = asOf items n := by
  rw [asOf, List.length_cons, Nat.succ_sub h, List.drop_succ_cons, asOf]

end Ring

/-! ## Writers and a reader -/

/-- Where the reader stands: it has no copy, it has a first copy and no count, it has
both, or it has a new count and is about to renew its copy. -/
inductive Phase where
  | closed
  | opened
  | waiting
  | renewing
  deriving DecidableEq

/-- What was added, newest first, and what became of it: how much is counted and by whom
it is not yet, how much there was when the reader made its copy, and how much was counted
when it last took down the counter. -/
structure Board (Writer Item : Type*) where
  items : List Item
  counted : ℕ
  uncounted : Set Writer
  phase : Phase
  copied : ℕ
  read : ℕ

inductive Event (Writer Item : Type*) where
  | add (writer : Writer) (item : Item)
  | count (writer : Writer)
  | opens
  | note
  | poll
  | renew
  | close

variable {Writer Item Value : Type*}

open Classical in
/-- The counter shows a count as a value, and the reader compares values. -/
noncomputable def Board.step (face : ℕ → Value) (b : Board Writer Item) :
    Event Writer Item → Option (Board Writer Item)
  | .add writer item =>
      if writer ∉ b.uncounted then
        some { b with
          items := item :: b.items
          uncounted := insert writer b.uncounted }
      else none
  | .count writer =>
      if writer ∈ b.uncounted then
        some { b with counted := b.counted + 1, uncounted := b.uncounted \ {writer} }
      else none
  | .opens =>
      if b.phase = .closed then
        some { b with phase := .opened, copied := b.items.length }
      else none
  | .note =>
      if b.phase = .opened then some { b with phase := .waiting, read := b.counted }
      else none
  | .poll =>
      if b.phase = .waiting then
        if face b.counted = face b.read then some b
        else some { b with phase := .renewing, read := b.counted }
      else none
  | .renew =>
      if b.phase = .renewing then
        some { b with phase := .waiting, copied := b.items.length }
      else none
  | .close =>
      if b.phase = .opened ∨ b.phase = .waiting then some { b with phase := .closed }
      else none

section Enabled

variable (face : ℕ → Value) {b : Board Writer Item} {writer : Writer}

theorem Board.step_add (h : writer ∉ b.uncounted) (item : Item) :
    b.step face (.add writer item) =
      some { b with
        items := item :: b.items
        uncounted := insert writer b.uncounted } :=
  if_pos h

theorem Board.step_count (h : writer ∈ b.uncounted) :
    b.step face (.count writer) =
      some { b with counted := b.counted + 1, uncounted := b.uncounted \ {writer} } :=
  if_pos h

theorem Board.step_opens (h : b.phase = .closed) :
    b.step face .opens = some { b with phase := .opened, copied := b.items.length } :=
  if_pos h

theorem Board.step_note (h : b.phase = .opened) :
    b.step face .note = some { b with phase := .waiting, read := b.counted } :=
  if_pos h

theorem Board.step_poll_same (h : b.phase = .waiting)
    (hface : face b.counted = face b.read) : b.step face .poll = some b := by
  rw [Board.step, if_pos h, if_pos hface]

theorem Board.step_poll_changed (h : b.phase = .waiting)
    (hface : face b.counted ≠ face b.read) :
    b.step face .poll = some { b with phase := .renewing, read := b.counted } := by
  rw [Board.step, if_pos h, if_neg hface]

theorem Board.step_renew (h : b.phase = .renewing) :
    b.step face .renew = some { b with phase := .waiting, copied := b.items.length } :=
  if_pos h

theorem Board.step_close (h : b.phase = .opened ∨ b.phase = .waiting) :
    b.step face .close = some { b with phase := .closed } :=
  if_pos h

end Enabled

noncomputable def board (Writer Item : Type*) (face : ℕ → Value) :
    System (Board Writer Item) (Event Writer Item) where
  init := ⟨[], 0, ∅, .closed, 0, 0⟩
  step := Board.step face

/-- The first count that the reader takes down is no more than its copy holds, and what
the counter shows differs when a count does. -/
def KeepsUp (face : ℕ → Value) (b : Board Writer Item) : Event Writer Item → Prop
  | .note => b.counted ≤ b.copied
  | .poll => face b.counted = face b.read → b.counted = b.read
  | _ => True

/-- The reader that has a copy and a count has a current copy. -/
structure Board.Current (b : Board Writer Item) : Prop where
  opened : b.phase = .opened → b.copied = b.items.length
  waiting : b.phase = .waiting → b.copied = b.items.length

/-! ## What is never overtaken -/

structure Board.Sound (b : Board Writer Item) : Prop where
  finite : b.uncounted.Finite
  tally : b.items.length = b.counted + b.uncounted.ncard
  copied : b.copied ≤ b.items.length
  read : b.read ≤ b.counted

variable {face : ℕ → Value} {b b' : Board Writer Item} {event : Event Writer Item}

theorem sound_init : (board Writer Item face).init.Sound := by
  constructor <;> simp [board]

theorem Board.Sound.step (hb : b.Sound) (h : b.step face event = some b') :
    b'.Sound := by
  obtain ⟨hfinite, htally, hcopied, hread⟩ := hb
  cases event <;> simp only [Board.step] at h
  case add writer item =>
    obtain ⟨hnew, ⟨⟩⟩ := Option.ite_none_right_eq_some.mp h
    have hcard := Set.ncard_insert_of_notMem hnew hfinite
    refine ⟨hfinite.insert writer, ?_, Nat.le_succ_of_le hcopied, hread⟩
    rw [List.length_cons, hcard, htally, Nat.add_assoc]
  case count writer =>
    obtain ⟨hmem, ⟨⟩⟩ := Option.ite_none_right_eq_some.mp h
    have hcard := Set.ncard_sdiff_singleton_add_one hmem hfinite
    refine ⟨hfinite.sdiff, ?_, hcopied, Nat.le_succ_of_le hread⟩
    dsimp only
    omega
  case opens =>
    obtain ⟨-, ⟨⟩⟩ := Option.ite_none_right_eq_some.mp h
    exact ⟨hfinite, htally, Nat.le_refl _, hread⟩
  case note =>
    obtain ⟨-, ⟨⟩⟩ := Option.ite_none_right_eq_some.mp h
    exact ⟨hfinite, htally, hcopied, Nat.le_refl _⟩
  case poll =>
    obtain ⟨-, h⟩ := Option.ite_none_right_eq_some.mp h
    split at h
    case isTrue => cases h; exact ⟨hfinite, htally, hcopied, hread⟩
    case isFalse => cases h; exact ⟨hfinite, htally, hcopied, Nat.le_refl _⟩
  case renew =>
    obtain ⟨-, ⟨⟩⟩ := Option.ite_none_right_eq_some.mp h
    exact ⟨hfinite, htally, Nat.le_refl _, hread⟩
  case close =>
    obtain ⟨-, ⟨⟩⟩ := Option.ite_none_right_eq_some.mp h
    exact ⟨hfinite, htally, hcopied, hread⟩

theorem sound_of_reachable (h : (board Writer Item face).Reachable b) : b.Sound := by
  apply h.invariant
  · exact sound_init
  · intro s event s' _ hs hstep
    exact hs.step hstep

theorem Board.Sound.counted_le (hb : b.Sound) : b.counted ≤ b.items.length := by
  rw [hb.tally]
  exact Nat.le_add_right _ _

/-- What the reader goes by is in its copy. -/
def Board.Noted (b : Board Writer Item) : Prop := b.phase = .waiting → b.read ≤ b.copied

theorem Board.Noted.step (hb : b.Noted) (hsound : b.Sound) (hkeeps : KeepsUp face b event)
    (h : b.step face event = some b') : b'.Noted := by
  cases event <;> simp only [Board.step] at h
  case add => obtain ⟨-, ⟨⟩⟩ := Option.ite_none_right_eq_some.mp h; exact hb
  case count => obtain ⟨-, ⟨⟩⟩ := Option.ite_none_right_eq_some.mp h; exact hb
  case opens => obtain ⟨-, ⟨⟩⟩ := Option.ite_none_right_eq_some.mp h; exact nofun
  case note =>
    obtain ⟨-, ⟨⟩⟩ := Option.ite_none_right_eq_some.mp h
    exact fun _ => hkeeps
  case poll =>
    obtain ⟨-, h⟩ := Option.ite_none_right_eq_some.mp h
    split at h
    case isTrue => cases h; exact hb
    case isFalse => cases h; exact nofun
  case renew =>
    obtain ⟨-, ⟨⟩⟩ := Option.ite_none_right_eq_some.mp h
    exact fun _ => Nat.le_trans hsound.read hsound.counted_le
  case close => obtain ⟨-, ⟨⟩⟩ := Option.ite_none_right_eq_some.mp h; exact nofun

theorem noted_of_run {history : List (Board Writer Item × Event Writer Item)}
    (h : (board Writer Item face).Run history b)
    (hkeeps : System.Always (KeepsUp face) history) : b.Noted := by
  apply h.invariant_of_always hkeeps
  · exact nofun
  · intro s event s' hreach hs hcond hstep
    exact hs.step (sound_of_reachable hreach) hcond hstep

/-! ## A poll while no one writes -/

/-- When everything is counted, a poll finds that the copy is current or that it is to be
renewed. -/
theorem Board.Noted.current_of_poll (hb : b.Noted) (hsound : b.Sound)
    (hkeeps : KeepsUp face b .poll) (hquiet : b.uncounted = ∅)
    (h : b.step face .poll = some b') : b'.Current := by
  obtain ⟨hphase, h⟩ := Option.ite_none_right_eq_some.mp h
  split at h
  case isTrue hsame =>
    cases h
    have hread := hkeeps hsame
    have hnoted := hb hphase
    have hcopied := hsound.copied
    have htally : b.items.length = b.counted := by
      rw [hsound.tally, hquiet, Set.ncard_empty, Nat.add_zero]
    refine ⟨fun hopened => ?_, fun _ => by omega⟩
    cases hphase.symm.trans hopened
  case isFalse =>
    cases h
    exact ⟨nofun, nofun⟩

/-- Nothing is added by the event. -/
def Event.addsNothing : Event Writer Item → Bool
  | .add _ _ => false
  | _ => true

theorem Board.Current.step (hb : b.Current) (hadds : event.addsNothing = true)
    (h : b.step face event = some b') : b'.Current := by
  cases event <;> simp only [Board.step] at h
  case add => cases hadds
  case poll =>
    obtain ⟨hphase, h⟩ := Option.ite_none_right_eq_some.mp h
    split at h
    case isTrue => cases h; exact hb
    case isFalse => cases h; exact ⟨nofun, nofun⟩
  case note =>
    obtain ⟨hphase, ⟨⟩⟩ := Option.ite_none_right_eq_some.mp h
    exact ⟨nofun, fun _ => hb.opened hphase⟩
  case count =>
    obtain ⟨-, ⟨⟩⟩ := Option.ite_none_right_eq_some.mp h
    exact ⟨hb.opened, hb.waiting⟩
  case opens =>
    obtain ⟨-, ⟨⟩⟩ := Option.ite_none_right_eq_some.mp h
    exact ⟨fun _ => rfl, nofun⟩
  case renew =>
    obtain ⟨-, ⟨⟩⟩ := Option.ite_none_right_eq_some.mp h
    exact ⟨nofun, fun _ => rfl⟩
  case close =>
    obtain ⟨-, ⟨⟩⟩ := Option.ite_none_right_eq_some.mp h
    exact ⟨nofun, nofun⟩

/-- After a poll at which everything was counted the reader's copy is current for as long
as nothing is added. -/
theorem current_of_run {later earlier : List (Board Writer Item × Event Writer Item)}
    {first : Board Writer Item}
    (h : (board Writer Item face).Run (later ++ (first, .poll) :: earlier) b)
    (hkeeps : System.Always (KeepsUp face) (later ++ (first, .poll) :: earlier))
    (hquiet : first.uncounted = ∅)
    (hadds : ∀ entry ∈ later, entry.2.addsNothing = true) : b.Current := by
  induction later generalizing b with
  | nil =>
      cases h with
      | snoc hrun hstep =>
          obtain ⟨hnow, hbefore⟩ := System.always_cons.mp hkeeps
          exact (noted_of_run hrun hbefore).current_of_poll
            (sound_of_reachable hrun.reachable) hnow hquiet hstep
  | cons entry later ih =>
      obtain ⟨before, event⟩ := entry
      cases h with
      | snoc hrun hstep =>
          obtain ⟨-, hbefore⟩ := System.always_cons.mp hkeeps
          have hcurrent := ih hrun hbefore fun entry hentry =>
            hadds entry (List.mem_cons_of_mem _ hentry)
          exact hcurrent.step (hadds _ List.mem_cons_self) hstep

end Yunpan.Mirror
