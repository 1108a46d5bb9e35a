import Mathlib.Algebra.GroupWithZero.Nat
import Mathlib.Data.List.Basic
import Mathlib.Data.List.Infix

/-!
# Streams that are polled

An asynchronous reader is offered a buffer and answers at once: with bytes that fit
in it, with nothing yet, or with an error.  No bytes in a buffer with room are the
end of the stream.  A reader is lawful when it hands on what it holds in order, says
the end at the end only, and comes closer to it whenever there is room.
-/

namespace Yunpan.Polling

inductive Poll where
  | pending
  | ready (bytes : List UInt8)
  | failed
  deriving DecidableEq

/-- What an answer puts into the buffer. -/
def Poll.bytes : Poll → List UInt8
  | .ready bytes => bytes
  | _ => []

/-- What a sequence of answers put into the buffers, in order. -/
def delivered (answers : List Poll) : List UInt8 := answers.flatMap Poll.bytes

section Reader

variable {Stream : Type*} (poll : Stream → ℕ → Poll × Stream)

/-- Poll with buffers of the given capacities, one after the other. -/
def pollAll : Stream → List ℕ → List Poll × Stream
  | s, [] => ([], s)
  | s, capacity :: capacities =>
      let next := poll s capacity
      let last := pollAll next.2 capacities
      (next.1 :: last.1, last.2)

/-- `content` is what the stream has still to deliver and `work` bounds the polls
with room until its end. -/
structure Lawful where
  content : Stream → List UInt8
  work : Stream → ℕ
  conserves : ∀ s capacity,
    content s = (poll s capacity).1.bytes ++ content (poll s capacity).2
  fits : ∀ s capacity, (poll s capacity).1.bytes.length ≤ capacity
  work_le : ∀ s capacity, work (poll s capacity).2 ≤ work s
  work_lt : ∀ s capacity, 0 < capacity → 0 < work s → work (poll s capacity).2 < work s
  ends : ∀ s capacity, 0 < capacity → ((poll s capacity).1 = .ready [] ↔ work s = 0)
  content_of_ended : ∀ s, work s = 0 → content s = []

variable {poll}

theorem pollAll_invariant {Inv : Stream → Prop}
    (hpoll : ∀ s capacity, Inv s → Inv (poll s capacity).2) {s : Stream} (h : Inv s)
    (capacities : List ℕ) : Inv (pollAll poll s capacities).2 := by
  induction capacities generalizing s with
  | nil => exact h
  | cons capacity capacities ih =>
      apply ih
      exact hpoll s capacity h

namespace Lawful

variable (law : Lawful poll)

/-- What was delivered and what is left make up what was there. -/
theorem conserves_pollAll (s : Stream) (capacities : List ℕ) :
    law.content s = delivered (pollAll poll s capacities).1 ++
      law.content (pollAll poll s capacities).2 := by
  induction capacities generalizing s with
  | nil => rfl
  | cons capacity capacities ih =>
      calc law.content s
          = (poll s capacity).1.bytes ++ law.content (poll s capacity).2 :=
            law.conserves s capacity
        _ = (poll s capacity).1.bytes ++
              (delivered (pollAll poll (poll s capacity).2 capacities).1 ++
              law.content (pollAll poll (poll s capacity).2 capacities).2) := by
            rw [← ih]
        _ = delivered (pollAll poll s (capacity :: capacities)).1 ++
              law.content (pollAll poll s (capacity :: capacities)).2 := by
            simp [pollAll, delivered]

theorem delivered_isPrefix (s : Stream) (capacities : List ℕ) :
    delivered (pollAll poll s capacities).1 <+: law.content s := by
  rw [law.conserves_pollAll s capacities]
  exact List.prefix_append _ _

theorem work_pollAll (s : Stream) (capacities : List ℕ) :
    law.work (pollAll poll s capacities).2 ≤
      law.work s - capacities.countP (0 < ·) := by
  induction capacities generalizing s with
  | nil => simp [pollAll]
  | cons capacity capacities ih =>
      have hrest := ih (poll s capacity).2
      have hle := law.work_le s capacity
      have hlt := law.work_lt s capacity
      rw [List.countP_cons]
      change law.work (pollAll poll (poll s capacity).2 capacities).2 ≤ _
      by_cases hroom : 0 < capacity
      · have hone : (if decide (0 < capacity) = true then 1 else 0) = 1 := by
          simp [hroom]
        by_cases hwork : 0 < law.work s
        · have := hlt hroom hwork
          omega
        · omega
      · have hzero : (if decide (0 < capacity) = true then 1 else 0) = 0 := by
          simp [hroom]
        omega

/-- Everything was delivered when the end is reported. -/
theorem delivered_of_ended {s : Stream} {capacities : List ℕ}
    (h : law.work (pollAll poll s capacities).2 = 0) :
    delivered (pollAll poll s capacities).1 = law.content s := by
  rw [law.conserves_pollAll s capacities, law.content_of_ended _ h, List.append_nil]

/-- Enough polls with room reach the end. -/
theorem ended_of_le {s : Stream} {capacities : List ℕ}
    (h : law.work s ≤ capacities.countP (0 < ·)) :
    law.work (pollAll poll s capacities).2 = 0 := by
  have hwork := law.work_pollAll s capacities
  omega

end Lawful

end Reader

/-! ## Streams that follow a script -/

/-- What the world does to a stream next. -/
inductive Event where
  | pending
  | failed
  | data (bytes : List UInt8)
  deriving DecidableEq

def Event.bytes : Event → List UInt8
  | .data bytes => bytes
  | _ => []

/-- How many polls an event lasts at most. -/
def Event.work : Event → ℕ
  | .data bytes => bytes.length
  | _ => 1

/-- Events in the order in which they come about, and then the end.  Data of no bytes
would be the end. -/
structure Source where
  events : List Event
  nonempty : Event.data [] ∉ events

def pollEvents : List Event → ℕ → Poll × List Event
  | [], _ => (.ready [], [])
  | .pending :: events, _ => (.pending, events)
  | .failed :: events, _ => (.failed, events)
  | .data bytes :: events, capacity =>
      if capacity < bytes.length then
        (.ready (bytes.take capacity), .data (bytes.drop capacity) :: events)
      else (.ready bytes, events)

theorem data_ne_nil {bytes : List UInt8} {events : List Event}
    (h : Event.data [] ∉ Event.data bytes :: events) : bytes ≠ [] := by
  rintro rfl
  exact h List.mem_cons_self

theorem pollEvents_nonempty {events : List Event} {capacity : ℕ}
    (h : Event.data [] ∉ events) : Event.data [] ∉ (pollEvents events capacity).2 := by
  cases events with
  | nil => exact h
  | cons event events =>
      have htail : Event.data [] ∉ events := List.not_mem_of_not_mem_cons h
      cases event with
      | pending => exact htail
      | failed => exact htail
      | data piece =>
          rw [pollEvents]
          split
          case isTrue hlong =>
            have hrest : Event.data [] ≠ .data (piece.drop capacity) := by
              intro heq
              have hnil := Event.data.inj heq
              rw [eq_comm, List.drop_eq_nil_iff] at hnil
              omega
            exact List.not_mem_cons_of_ne_of_not_mem hrest htail
          case isFalse => exact htail

theorem pollEvents_bytes (events : List Event) (capacity : ℕ) :
    events.flatMap Event.bytes = (pollEvents events capacity).1.bytes ++
      (pollEvents events capacity).2.flatMap Event.bytes := by
  cases events with
  | nil => rfl
  | cons event events =>
      cases event with
      | pending => rfl
      | failed => rfl
      | data bytes =>
          simp only [pollEvents]
          split
          · simp [Event.bytes, Poll.bytes, ← List.append_assoc]
          · simp [Event.bytes, Poll.bytes]

theorem pollEvents_fits (events : List Event) (capacity : ℕ) :
    (pollEvents events capacity).1.bytes.length ≤ capacity := by
  cases events with
  | nil => exact Nat.zero_le _
  | cons event events =>
      cases event with
      | pending => exact Nat.zero_le _
      | failed => exact Nat.zero_le _
      | data bytes =>
          simp only [pollEvents]
          split
          · exact List.length_take_le _ _
          · simpa [Poll.bytes] using ‹¬capacity < bytes.length›

namespace Source

def bytes (s : Source) : List UInt8 := s.events.flatMap Event.bytes

def work (s : Source) : ℕ := (s.events.map Event.work).sum

def Ended (s : Source) : Prop := s.events = []

def poll (s : Source) (capacity : ℕ) : Poll × Source :=
  let next := pollEvents s.events capacity
  (next.1, ⟨next.2, pollEvents_nonempty s.nonempty⟩)

theorem ended_iff (s : Source) : s.Ended ↔ s.work = 0 := by
  obtain ⟨events, hnonempty⟩ := s
  cases events with
  | nil => simp [Ended, work]
  | cons event events =>
      cases event with
      | pending => simp [Ended, work, Event.work]
      | failed => simp [Ended, work, Event.work]
      | data bytes =>
          have hbytes := data_ne_nil hnonempty
          simp [Ended, work, Event.work, hbytes]

/-- A script is a lawful stream. -/
def lawful : Lawful Source.poll where
  content := bytes
  work := work
  conserves s capacity := pollEvents_bytes s.events capacity
  fits s capacity := pollEvents_fits s.events capacity
  work_le := by
    rintro ⟨events, hnonempty⟩ capacity
    cases events with
    | nil => exact Nat.le_refl _
    | cons event events =>
        cases event with
        | pending => exact Nat.le_add_left _ _
        | failed => exact Nat.le_add_left _ _
        | data bytes =>
            simp only [work, poll, pollEvents]
            split <;> simp [Event.work]
  work_lt := by
    rintro ⟨events, hnonempty⟩ capacity hroom hwork
    cases events with
    | nil => simp [work] at hwork
    | cons event events =>
        cases event with
        | pending => simp [work, poll, pollEvents, Event.work]
        | failed => simp [work, poll, pollEvents, Event.work]
        | data bytes =>
            have hbytes := List.length_pos_of_ne_nil (data_ne_nil hnonempty)
            simp only [work, poll, pollEvents]
            split
            · simp only [List.map_cons, List.sum_cons, Event.work, List.length_drop]
              omega
            · simp only [List.map_cons, List.sum_cons, Event.work]
              omega
  ends := by
    rintro ⟨events, hnonempty⟩ capacity hroom
    cases events with
    | nil => simp [poll, pollEvents, work]
    | cons event events =>
        cases event with
        | pending => simp [work, poll, pollEvents, Event.work]
        | failed => simp [work, poll, pollEvents, Event.work]
        | data bytes =>
            have hbytes := data_ne_nil hnonempty
            have hroom' := Nat.ne_of_gt hroom
            simp only [work, poll, pollEvents]
            split <;> simp [Event.work, hbytes, hroom']
  content_of_ended := by
    intro s h
    have hended : s.events = [] := s.ended_iff.mpr h
    rw [bytes, hended]
    rfl

end Source

/-! ## A read that waits -/

/-- `read`: poll until the stream answers with bytes or an error. -/
def readEvents : List Event → ℕ → Option (List UInt8 × List Event)
  | .pending :: events, capacity => readEvents events capacity
  | .failed :: _, _ => none
  | events, capacity =>
      some ((pollEvents events capacity).1.bytes, (pollEvents events capacity).2)

theorem readEvents_some {events rest : List Event} {capacity : ℕ} {block : List UInt8}
    (h : readEvents events capacity = some (block, rest)) :
    block.length ≤ capacity ∧
      events.flatMap Event.bytes = block ++ rest.flatMap Event.bytes ∧
      (Event.data [] ∉ events → Event.data [] ∉ rest) := by
  induction events with
  | nil =>
      cases h
      exact ⟨Nat.zero_le _, rfl, id⟩
  | cons event events ih =>
      cases event with
      | pending =>
          obtain ⟨hfits, hbytes, hnonempty⟩ := ih h
          exact ⟨hfits, hbytes, fun hall =>
            hnonempty (List.not_mem_of_not_mem_cons hall)⟩
      | failed => cases h
      | data bytes =>
          obtain ⟨rfl, rfl⟩ := Prod.mk.inj (Option.some.inj h)
          exact ⟨pollEvents_fits _ _, pollEvents_bytes _ _, pollEvents_nonempty⟩

/-- Where there is data and no error, a read with room returns some of it. -/
theorem readEvents_of_data {events : List Event} {capacity : ℕ} (hroom : 0 < capacity)
    (hfailed : Event.failed ∉ events) (hnonempty : Event.data [] ∉ events)
    (h : events.flatMap Event.bytes ≠ []) :
    ∃ block rest, readEvents events capacity = some (block, rest) ∧ block ≠ [] := by
  induction events with
  | nil => exact absurd rfl h
  | cons event events ih =>
      cases event with
      | pending =>
          exact ih (List.not_mem_of_not_mem_cons hfailed)
            (List.not_mem_of_not_mem_cons hnonempty) h
      | failed => exact absurd List.mem_cons_self hfailed
      | data bytes =>
          have hbytes := data_ne_nil hnonempty
          refine ⟨_, _, rfl, ?_⟩
          simp only [pollEvents]
          split
          · simp [Poll.bytes, hbytes, Nat.ne_of_gt hroom]
          · exact hbytes

namespace Source

def read (s : Source) (capacity : ℕ) : Option (List UInt8 × Source) :=
  match h : readEvents s.events capacity with
  | none => none
  | some (block, rest) => some (block, ⟨rest, (readEvents_some h).2.2 s.nonempty⟩)

theorem read_eq (s : Source) (capacity : ℕ) :
    (s.read capacity).map (fun next => (next.1, next.2.events)) =
      readEvents s.events capacity := by
  unfold read
  split
  case h_1 hnone => exact hnone.symm
  case h_2 hsome => exact hsome.symm

theorem exists_of_readEvents {s : Source} {capacity : ℕ} {block : List UInt8}
    {events : List Event} (h : readEvents s.events capacity = some (block, events)) :
    ∃ rest, s.read capacity = some (block, rest) := by
  rw [← s.read_eq, Option.map_eq_some_iff] at h
  obtain ⟨⟨block', rest⟩, hread, heq⟩ := h
  cases heq
  exact ⟨rest, hread⟩

theorem read_some {s rest : Source} {capacity : ℕ} {block : List UInt8}
    (h : s.read capacity = some (block, rest)) :
    block.length ≤ capacity ∧ s.bytes = block ++ rest.bytes := by
  have hevents : readEvents s.events capacity = some (block, rest.events) := by
    rw [← s.read_eq, h, Option.map_some]
  exact ⟨(readEvents_some hevents).1, (readEvents_some hevents).2.1⟩

theorem read_of_data {s : Source} {capacity : ℕ} (hroom : 0 < capacity)
    (hfailed : Event.failed ∉ s.events) (h : s.bytes ≠ []) :
    ∃ block rest, s.read capacity = some (block, rest) ∧ block ≠ [] := by
  obtain ⟨block, events, hread, hblock⟩ := readEvents_of_data hroom hfailed s.nonempty h
  obtain ⟨rest, hrest⟩ := exists_of_readEvents hread
  exact ⟨block, rest, hrest, hblock⟩

end Source

end Yunpan.Polling
