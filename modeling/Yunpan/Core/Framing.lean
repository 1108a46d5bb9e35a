import Mathlib.Algebra.Group.Nat.Defs
import Mathlib.Data.List.Basic

/-!
# Length-prefixed frames, read byte by byte

A message travels as the length of its body, a big-endian 32-bit number, followed
by the body.  A reader that takes one byte at a time knows after each byte whether
it needs more, has a message or must give up.  On a well-formed stream it never
gives up, and what it has taken is always a proper part of the next frame,
however the bytes were cut into reads.
-/

namespace Yunpan.Framing

variable {α : Type*}

/-- How message bodies are written and read, and how long they may be. -/
structure Codec (α : Type*) where
  encode : α → List UInt8
  decode : List UInt8 → Option α
  maxLen : ℕ

/-- `u32::to_be_bytes`. -/
def toBe32 (n : ℕ) : List UInt8 :=
  [UInt8.ofNat (n / 2 ^ 24), UInt8.ofNat (n / 2 ^ 16), UInt8.ofNat (n / 2 ^ 8),
    UInt8.ofNat n]

/-- `u32::from_be_bytes`. -/
def fromBe32 (bytes : List UInt8) : ℕ :=
  bytes.foldl (fun acc b => 256 * acc + b.toNat) 0

/-- What a reader knows about the bytes it has taken. -/
inductive Poll (α : Type*) where
  | more
  | done (msg : α)
  | tooLong (len : ℕ)
  | malformed
  deriving DecidableEq

namespace Codec

variable (codec : Codec α)

def frame (msg : α) : List UInt8 :=
  toBe32 (codec.encode msg).length ++ codec.encode msg

def stream (msgs : List α) : List UInt8 := msgs.flatMap codec.frame

/-- The body of the message keeps to the limit and can be read back. -/
structure Fits (msg : α) : Prop where
  length : (codec.encode msg).length ≤ codec.maxLen
  decode : codec.decode (codec.encode msg) = some msg

/-- Four bytes of length, then as many bytes of body. -/
def poll (taken : List UInt8) : Poll α :=
  if taken.length < 4 then .more
  else if codec.maxLen < fromBe32 (taken.take 4) then
    .tooLong (fromBe32 (taken.take 4))
  else if taken.length < 4 + fromBe32 (taken.take 4) then .more
  else
    match codec.decode (taken.drop 4) with
    | some msg => .done msg
    | none => .malformed

end Codec

theorem toBe32_length (n : ℕ) : (toBe32 n).length = 4 := rfl

theorem fromBe32_toBe32 {n : ℕ} (h : n < 2 ^ 32) : fromBe32 (toBe32 n) = n := by
  simp only [fromBe32, toBe32, List.foldl_cons, List.foldl_nil, UInt8.toNat_ofNat']
  omega

variable {codec : Codec α}

theorem Codec.stream_cons (msg : α) (msgs : List α) :
    codec.stream (msg :: msgs) = codec.frame msg ++ codec.stream msgs := rfl

theorem Codec.Fits.length_lt {msg : α} (h : codec.Fits msg)
    (hmax : codec.maxLen < 2 ^ 32) : (codec.encode msg).length < 2 ^ 32 :=
  Nat.lt_of_le_of_lt h.length hmax

/-- A whole frame is read as its message. -/
theorem Codec.poll_frame {msg : α} (h : codec.Fits msg) (hmax : codec.maxLen < 2 ^ 32) :
    codec.poll (codec.frame msg) = .done msg := by
  have hlen := fromBe32_toBe32 (h.length_lt hmax)
  have htake : (codec.frame msg).take 4 = toBe32 (codec.encode msg).length := rfl
  have hdrop : (codec.frame msg).drop 4 = codec.encode msg := rfl
  have hlength : (codec.frame msg).length = 4 + (codec.encode msg).length := by
    simp [frame, toBe32_length]
  have hfour : ¬(codec.frame msg).length < 4 := by omega
  have hwhole : ¬(codec.frame msg).length < 4 + (codec.encode msg).length := by omega
  rw [poll, if_neg hfour, htake, hlen, if_neg (Nat.not_lt.mpr h.length), if_neg hwhole,
    hdrop, h.decode]

/-- A proper part of a frame asks for more. -/
theorem Codec.poll_part {msg : α} {taken rest : List UInt8} (h : codec.Fits msg)
    (hmax : codec.maxLen < 2 ^ 32) (hframe : codec.frame msg = taken ++ rest)
    (hrest : rest ≠ []) : codec.poll taken = .more := by
  unfold poll
  split
  case isTrue => rfl
  case isFalse hfour =>
    have htake : taken.take 4 = toBe32 (codec.encode msg).length := by
      have := congrArg (List.take 4) hframe
      rw [List.take_append_of_le_length (Nat.le_of_not_lt hfour)] at this
      exact this.symm
    have hlength : taken.length < 4 + (codec.encode msg).length := by
      have := congrArg List.length hframe
      have hpos := List.length_pos_iff.mpr hrest
      simp only [frame, List.length_append, toBe32_length] at this
      omega
    rw [htake, fromBe32_toBe32 (h.length_lt hmax), if_neg (Nat.not_lt.mpr h.length),
      if_pos hlength]

/-- The reader has taken a proper part of the next frame, and the rest of the stream
is still to come. -/
def Codec.Within (codec : Codec α) (taken input : List UInt8) : List α → Prop
  | [] => taken = [] ∧ input = []
  | msg :: msgs => ∃ rest, rest ≠ [] ∧ codec.frame msg = taken ++ rest ∧
      input = rest ++ codec.stream msgs

theorem Codec.within_stream (codec : Codec α) (msgs : List α) :
    codec.Within [] (codec.stream msgs) msgs := by
  cases msgs with
  | nil => exact ⟨rfl, rfl⟩
  | cons msg msgs => exact ⟨codec.frame msg, by simp [frame, toBe32], rfl, rfl⟩

/-- One more byte of a well-formed stream completes the next message or leaves the
reader within it. -/
theorem Codec.Within.read {taken input : List UInt8} {msgs : List α} {b : UInt8}
    (h : codec.Within taken (b :: input) msgs) (hfits : ∀ msg ∈ msgs, codec.Fits msg)
    (hmax : codec.maxLen < 2 ^ 32) :
    (codec.poll (taken ++ [b]) = .more ∧ codec.Within (taken ++ [b]) input msgs) ∨
      ∃ msg rest, msgs = msg :: rest ∧ codec.poll (taken ++ [b]) = .done msg ∧
        codec.Within [] input rest := by
  cases msgs with
  | nil => cases h.2
  | cons msg msgs =>
      obtain ⟨rest, hrest, hframe, hinput⟩ := h
      have hmsg := hfits msg List.mem_cons_self
      obtain ⟨c, rest, rfl⟩ := List.exists_cons_of_ne_nil hrest
      obtain ⟨rfl, rfl⟩ := List.cons_eq_cons.mp hinput
      have hframe' : codec.frame msg = (taken ++ [b]) ++ rest := by simp [hframe]
      by_cases hlast : rest = []
      · subst hlast
        rw [List.append_nil] at hframe'
        refine Or.inr ⟨msg, msgs, rfl, ?_, by simpa using codec.within_stream msgs⟩
        rw [← hframe', Codec.poll_frame hmsg hmax]
      · exact Or.inl ⟨Codec.poll_part hmsg hmax hframe' hlast, rest, hlast,
          hframe', rfl⟩

/-! ## A whole stream -/

/-- What a reader makes of a stream: messages, then a length or body it must give
up on, or a stream that stops. -/
inductive Heard (α : Type*) where
  | msg (msg : α)
  | bad
  | cut
  deriving DecidableEq

def Codec.hear (codec : Codec α) (taken : List UInt8) :
    List UInt8 → List (Heard α)
  | [] => [.cut]
  | b :: input =>
      match codec.poll (taken ++ [b]) with
      | .more => codec.hear (taken ++ [b]) input
      | .done msg => .msg msg :: codec.hear [] input
      | .tooLong _ => [.bad]
      | .malformed => [.bad]

/-- Frames that keep to the limit are all heard, in order. -/
theorem Codec.hear_stream {msgs : List α} (hfits : ∀ msg ∈ msgs, codec.Fits msg)
    (hmax : codec.maxLen < 2 ^ 32) {taken input : List UInt8}
    (h : codec.Within taken input msgs) :
    codec.hear taken input = msgs.map .msg ++ [.cut] := by
  induction input generalizing taken msgs with
  | nil =>
      cases msgs with
      | nil => rfl
      | cons msg msgs =>
          obtain ⟨rest, hrest, -, hinput⟩ := h
          exact absurd (List.append_eq_nil_iff.mp hinput.symm).1 hrest
  | cons b input ih =>
      obtain ⟨hmore, hwithin⟩ | ⟨msg, rest, rfl, hdone, hwithin⟩ := h.read hfits hmax
      · rw [hear, hmore]
        exact ih hfits hwithin
      · rw [hear, hdone]
        have hrest : ∀ msg ∈ rest, codec.Fits msg := fun msg hmsg =>
          hfits msg (List.mem_cons_of_mem _ hmsg)
        simp [ih hrest hwithin]

end Yunpan.Framing
