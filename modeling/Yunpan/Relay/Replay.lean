import Yunpan.Core.Polling

/-!
# The replayed first block

The path router has read the beginning of a visitor's stream by the time it knows the
client.  `PrefixedStream` gives these bytes back before it passes polls on to the
stream below, whatever that stream is: over a lawful stream it is lawful.
-/

namespace Yunpan.Relay

open Yunpan.Polling

structure PrefixedStream (Inner : Type*) where
  prefixed : List UInt8
  pos : ℕ
  inner : Inner

namespace PrefixedStream

variable {Inner : Type*}

/-- What the router dispatches after it has read `block`. -/
def replayed (block : List UInt8) (inner : Inner) : PrefixedStream Inner :=
  ⟨block, 0, inner⟩

/-- `poll_read`, with a buffer of the given room. -/
def pollRead (poll : Inner → ℕ → Poll × Inner) (s : PrefixedStream Inner)
    (remaining : ℕ) : Poll × PrefixedStream Inner :=
  if s.pos < s.prefixed.length then
    let n := min (s.prefixed.length - s.pos) remaining
    (.ready ((s.prefixed.drop s.pos).take n), { s with pos := s.pos + n })
  else
    let next := poll s.inner remaining
    (next.1, { s with inner := next.2 })

/-- The block is fixed and `pos` stays within it. -/
def Within (block : List UInt8) (s : PrefixedStream Inner) : Prop :=
  s.prefixed = block ∧ s.pos ≤ block.length

variable {poll : Inner → ℕ → Poll × Inner}

theorem replayed_within (block : List UInt8) (inner : Inner) :
    (replayed block inner).Within block := ⟨rfl, Nat.zero_le _⟩

theorem Within.pollRead {block : List UInt8} {s : PrefixedStream Inner}
    (h : s.Within block) (remaining : ℕ) :
    (s.pollRead poll remaining).2.Within block := by
  obtain ⟨rfl, hpos⟩ := h
  unfold PrefixedStream.pollRead
  split
  · refine ⟨rfl, ?_⟩
    change s.pos + min (s.prefixed.length - s.pos) remaining ≤ s.prefixed.length
    omega
  · exact ⟨rfl, hpos⟩

theorem pollAll_within (block : List UInt8) (inner : Inner) (capacities : List ℕ) :
    (pollAll (PrefixedStream.pollRead poll) (replayed block inner) capacities).2.Within
      block := by
  apply pollAll_invariant
  · intro s remaining h
    exact h.pollRead remaining
  · exact replayed_within block inner

/-! ## Replaying is lawful -/

/-- What the stream has still to deliver. -/
def rest (law : Lawful poll) (s : PrefixedStream Inner) : List UInt8 :=
  s.prefixed.drop s.pos ++ law.content s.inner

/-- A bound on the polls until its end. -/
def left (law : Lawful poll) (s : PrefixedStream Inner) : ℕ :=
  (s.prefixed.length - s.pos) + law.work s.inner

variable (law : Lawful poll) (s : PrefixedStream Inner) (remaining : ℕ)

theorem rest_pollRead : s.rest law =
    (s.pollRead poll remaining).1.bytes ++ (s.pollRead poll remaining).2.rest law := by
  unfold PrefixedStream.pollRead rest
  split
  case isTrue =>
    simp only [Poll.bytes, ← List.drop_drop]
    rw [← List.append_assoc, List.take_append_drop]
  case isFalse hdone =>
    have hnil : s.prefixed.drop s.pos = [] :=
      List.drop_eq_nil_of_le (Nat.not_lt.mp hdone)
    simp only [hnil, List.nil_append]
    exact law.conserves s.inner remaining

theorem bytes_pollRead (law : Lawful poll) (s : PrefixedStream Inner) (remaining : ℕ) :
    (s.pollRead poll remaining).1.bytes.length ≤ remaining := by
  unfold PrefixedStream.pollRead
  split
  case isTrue =>
    apply Nat.le_trans (List.length_take_le _ _)
    exact Nat.min_le_right _ _
  case isFalse => exact law.fits s.inner remaining

theorem left_pollRead : (s.pollRead poll remaining).2.left law ≤ s.left law := by
  unfold PrefixedStream.pollRead left
  split
  case isTrue =>
    dsimp only
    omega
  case isFalse =>
    have hinner := law.work_le s.inner remaining
    dsimp only
    omega

theorem left_pollRead_lt (hroom : 0 < remaining) (hleft : 0 < s.left law) :
    (s.pollRead poll remaining).2.left law < s.left law := by
  unfold left at hleft
  unfold PrefixedStream.pollRead left
  split
  case isTrue =>
    dsimp only
    omega
  case isFalse =>
    have hinner := law.work_lt s.inner remaining hroom (by omega)
    dsimp only
    omega

theorem pollRead_ends (hroom : 0 < remaining) :
    (s.pollRead poll remaining).1 = .ready [] ↔ s.left law = 0 := by
  unfold PrefixedStream.pollRead left
  split
  case isTrue hleft =>
    have hsome : (s.prefixed.drop s.pos).take
        (min (s.prefixed.length - s.pos) remaining) ≠ [] := by
      simp only [ne_eq, List.take_eq_nil_iff, List.drop_eq_nil_iff]
      omega
    constructor
    · intro h
      exact absurd (Poll.ready.inj h) hsome
    · intro h
      omega
  case isFalse hdone =>
    have hinner := law.ends s.inner remaining hroom
    rw [hinner]
    omega

theorem rest_of_ended (h : s.left law = 0) : s.rest law = [] := by
  unfold left at h
  have hinner := law.content_of_ended s.inner (by omega)
  have hnil : s.prefixed.drop s.pos = [] := List.drop_eq_nil_of_le (by omega)
  rw [rest, hnil, hinner, List.append_nil]

/-- Replaying a block keeps a stream lawful: the bytes of the block come first. -/
def lawful (law : Lawful poll) : Lawful (PrefixedStream.pollRead poll) where
  content s := s.prefixed.drop s.pos ++ law.content s.inner
  work s := (s.prefixed.length - s.pos) + law.work s.inner
  conserves := rest_pollRead law
  fits := bytes_pollRead law
  work_le := left_pollRead law
  work_lt := left_pollRead_lt law
  ends := pollRead_ends law
  content_of_ended := rest_of_ended law

/-- Over every script of the stream below and every sequence of buffers: what is
delivered begins the block and the stream's bytes, the end is reported after all of
them, and enough buffers with room reach it. -/
theorem replay_exact (block : List UInt8) (inner : Source) (capacities : List ℕ) :
    let run := pollAll (PrefixedStream.pollRead Source.poll) (replayed block inner)
      capacities
    delivered run.1 <+: block ++ inner.bytes ∧
      run.2.prefixed = block ∧ run.2.pos ≤ block.length ∧
      (∀ remaining, (run.2.pollRead Source.poll remaining).1.bytes.length ≤ remaining) ∧
      (∀ remaining, 0 < remaining →
        (run.2.pollRead Source.poll remaining).1 = .ready [] →
        run.2.pos = block.length ∧ run.2.inner.Ended ∧
          delivered run.1 = block ++ inner.bytes) ∧
      (block.length + inner.work ≤ capacities.countP (0 < ·) →
        delivered run.1 = block ++ inner.bytes ∧ run.2.inner.Ended ∧
          ∀ remaining, 0 < remaining →
            (run.2.pollRead Source.poll remaining).1 = .ready []) := by
  intro run
  obtain ⟨hprefixed, hpos⟩ : run.2.Within block := pollAll_within block inner capacities
  have hended : ∀ h : (lawful Source.lawful).work run.2 = 0,
      run.2.pos = block.length ∧ run.2.inner.Ended ∧
        delivered run.1 = block ++ inner.bytes := by
    intro h
    have hwork : (run.2.prefixed.length - run.2.pos) + run.2.inner.work = 0 := h
    have hblock : run.2.prefixed.length = block.length := congrArg List.length hprefixed
    refine ⟨by omega, run.2.inner.ended_iff.mpr (by omega), ?_⟩
    exact (lawful Source.lawful).delivered_of_ended h
  refine ⟨?_, hprefixed, hpos, ?_, fun remaining hroom hanswer => ?_, fun hmany => ?_⟩
  · exact (lawful Source.lawful).delivered_isPrefix (replayed block inner) capacities
  · exact (lawful Source.lawful).fits run.2
  · exact hended (((lawful Source.lawful).ends run.2 remaining hroom).mp hanswer)
  · have hwork : (lawful Source.lawful).work run.2 = 0 :=
      (lawful Source.lawful).ended_of_le hmany
    obtain ⟨-, hinner, hall⟩ := hended hwork
    refine ⟨hall, hinner, fun remaining hroom => ?_⟩
    exact ((lawful Source.lawful).ends run.2 remaining hroom).mpr hwork

/-- After the router's own read the client still gets all that the visitor sends. -/
theorem content_of_read {visitor rest : Source} {block : List UInt8}
    (h : visitor.read 8192 = some (block, rest)) :
    (lawful Source.lawful).content (replayed block rest) = visitor.bytes := by
  obtain ⟨-, hbytes⟩ := Source.read_some h
  exact hbytes.symm

end PrefixedStream

end Yunpan.Relay
