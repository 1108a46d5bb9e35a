import Yunpan.Core.Reads
import Yunpan.Protocol.Json

/-!
# Frames on a stream

`write_msg` and `read_msg` carry every frame of the handshake and of a control
session.  After the last frame of a data connection the same stream is a byte
pipe, so a reader must not take a byte more than its frame.
-/

namespace Yunpan.Protocol

open Yunpan.Framing

variable {α : Type*}

inductive WriteFault where
  | tooLarge (len : ℕ)
  deriving DecidableEq

/-- The context of a body that ends early is that of the I/O error itself. -/
inductive ReadFault where
  | disconnected
  | tooLong (len : ℕ)
  | bodyCut
  | notJson
  deriving DecidableEq

def WriteFault.text : WriteFault → String
  | .tooLarge len => "控制帧过大：" ++ len.repr ++ " 字节"

def ReadFault.text : ReadFault → String
  | .disconnected => "对端已断开"
  | .tooLong len => "控制帧长度越界：" ++ len.repr ++ " 字节"
  | .bodyCut => "early eof"
  | .notJson => "控制帧不是合法 JSON"

/-- The frames of one message type: `toVec` and `fromSlice` are those of
`serde_json`. -/
def frameCodec (toVec : α → List UInt8) (fromSlice : List UInt8 → Option α) :
    Codec α where
  encode := toVec
  decode := fromSlice
  maxLen := maxFrameLen

/-- `write_msg` on a stream to which `sent` was written before. -/
def writeMsg (toVec : α → List UInt8) (sent : List UInt8) (msg : α) :
    Except WriteFault Unit × List UInt8 :=
  let body := toVec msg
  if maxFrameLen < body.length then (.error (.tooLarge body.length), sent)
  else (.ok (), sent ++ toBe32 body.length ++ body)

def writeMsgs (toVec : α → List UInt8) (sent : List UInt8) (msgs : List α) :
    List UInt8 :=
  msgs.foldl (fun sent msg => (writeMsg toVec sent msg).2) sent

/-- What a `read_msg` ends with, and the size of the body buffer it asked for. -/
structure Reading (α : Type*) where
  result : Except ReadFault (α × Reads)
  buffer : Option ℕ

/-- `read_msg`. -/
def readMsg (fromSlice : List UInt8 → Option α) (r : Reads) : Reading α :=
  match r.readExact 4 with
  | none => ⟨.error .disconnected, none⟩
  | some (lenBuf, r) =>
      let len := fromBe32 lenBuf
      if maxFrameLen < len then ⟨.error (.tooLong len), none⟩
      else
        match r.readExact len with
        | none => ⟨.error .bodyCut, some len⟩
        | some (body, r) =>
            match fromSlice body with
            | some msg => ⟨.ok (msg, r), some len⟩
            | none => ⟨.error .notJson, some len⟩

/-- As many messages as asked for, each read to its end. -/
def readMsgs (fromSlice : List UInt8 → Option α) :
    ℕ → Reads → Except ReadFault (List α × Reads)
  | 0, r => .ok ([], r)
  | n + 1, r =>
      match (readMsg fromSlice r).result with
      | .error fault => .error fault
      | .ok (msg, r) => (readMsgs fromSlice n r).map fun (msgs, r) => (msg :: msgs, r)

variable {toVec : α → List UInt8} {fromSlice : List UInt8 → Option α}

/-! ## One message -/

theorem writeMsg_fits {msg : α} (h : (frameCodec toVec fromSlice).Fits msg)
    (sent : List UInt8) :
    writeMsg toVec sent msg =
      (.ok (), sent ++ (frameCodec toVec fromSlice).frame msg) := by
  have hlength : (toVec msg).length ≤ maxFrameLen := h.length
  simp [writeMsg, Nat.not_lt.mpr hlength, Codec.frame, frameCodec]

theorem writeMsg_tooLarge {msg : α} (h : maxFrameLen < (toVec msg).length)
    (sent : List UInt8) :
    writeMsg toVec sent msg = (.error (.tooLarge (toVec msg).length), sent) := by
  simp [writeMsg, h]

theorem readMsg_frame {msg : α} (h : (frameCodec toVec fromSlice).Fits msg) {r : Reads}
    {further : List UInt8}
    (hbytes : r.bytes = (frameCodec toVec fromSlice).frame msg ++ further) :
    ∃ rest, (readMsg fromSlice r).result = .ok (msg, rest) ∧ rest.bytes = further := by
  have hmax : maxFrameLen < 2 ^ 32 := by decide
  have hlength : (toVec msg).length ≤ maxFrameLen := h.length
  have hdecode : fromSlice (toVec msg) = some msg := h.decode
  have hsplit : r.bytes =
      toBe32 (toVec msg).length ++ (toVec msg ++ further) := by
    rw [hbytes, Codec.frame, List.append_assoc]
    rfl
  obtain ⟨r₁, hhead, hr₁⟩ := Reads.readExact_append hsplit
  obtain ⟨r₂, hbody, hr₂⟩ := Reads.readExact_append hr₁
  rw [toBe32_length] at hhead
  have hlen : fromBe32 (toBe32 (toVec msg).length) = (toVec msg).length :=
    fromBe32_toBe32 (Nat.lt_of_le_of_lt hlength hmax)
  refine ⟨r₂, ?_, hr₂⟩
  simp only [readMsg, hhead, hlen, if_neg (Nat.not_lt.mpr hlength), hbody, hdecode]

/-- A message is returned only after its length and as many bytes as that length
says, which is at most the limit. -/
theorem readMsg_ok {r rest : Reads} {msg : α}
    (h : (readMsg fromSlice r).result = .ok (msg, rest)) :
    ∃ taken, r.bytes = taken ++ rest.bytes ∧
      taken.length = 4 + fromBe32 (taken.take 4) ∧
      fromBe32 (taken.take 4) ≤ maxFrameLen := by
  unfold readMsg at h
  split at h
  case h_1 => cases h
  case h_2 lenBuf r₁ hhead =>
    simp only at h
    split at h
    case isTrue => cases h
    case isFalse hlen =>
      split at h
      case h_1 => cases h
      case h_2 body r₂ hbody =>
        split at h
        case h_2 => cases h
        case h_1 msg' hmsg =>
          cases h
          obtain ⟨hr, hfour⟩ := Reads.readExact_some hhead
          obtain ⟨hr₁, hlength⟩ := Reads.readExact_some hbody
          have htake : (lenBuf ++ body).take 4 = lenBuf := by
            rw [← hfour, List.take_left]
          refine ⟨lenBuf ++ body, by rw [hr, hr₁, List.append_assoc], ?_, ?_⟩
          · rw [htake, List.length_append, hfour, hlength]
          · rw [htake]
            exact Nat.not_lt.mp hlen

theorem readMsg_buffer {r : Reads} {size : ℕ}
    (h : (readMsg fromSlice r).buffer = some size) : size ≤ maxFrameLen := by
  unfold readMsg at h
  split at h
  case h_1 => cases h
  case h_2 =>
    simp only at h
    split at h
    case isTrue => cases h
    case isFalse hlen =>
      split at h
      case h_1 =>
        cases h
        exact Nat.not_lt.mp hlen
      case h_2 =>
        split at h
        all_goals
          cases h
          exact Nat.not_lt.mp hlen

/-! ## A list of messages -/

theorem writeMsgs_fits {msgs : List α}
    (h : ∀ msg ∈ msgs, (frameCodec toVec fromSlice).Fits msg) (sent : List UInt8) :
    writeMsgs toVec sent msgs = sent ++ (frameCodec toVec fromSlice).stream msgs := by
  induction msgs generalizing sent with
  | nil => simp [writeMsgs, Codec.stream]
  | cons msg msgs ih =>
      have hmsg := h msg List.mem_cons_self
      have hrest : ∀ msg ∈ msgs, (frameCodec toVec fromSlice).Fits msg :=
        fun msg hmem => h msg (List.mem_cons_of_mem _ hmem)
      have hstep : writeMsgs toVec sent (msg :: msgs) =
          writeMsgs toVec (writeMsg toVec sent msg).2 msgs := rfl
      rw [hstep, writeMsg_fits hmsg, ih hrest, Codec.stream_cons, List.append_assoc]

theorem readMsgs_stream {msgs : List α}
    (h : ∀ msg ∈ msgs, (frameCodec toVec fromSlice).Fits msg) {r : Reads}
    {further : List UInt8}
    (hbytes : r.bytes = (frameCodec toVec fromSlice).stream msgs ++ further) :
    ∃ rest, readMsgs fromSlice msgs.length r = .ok (msgs, rest) ∧
      rest.bytes = further := by
  induction msgs generalizing r with
  | nil => exact ⟨r, rfl, hbytes⟩
  | cons msg msgs ih =>
      rw [Codec.stream_cons, List.append_assoc] at hbytes
      obtain ⟨r₁, hread, hr₁⟩ := readMsg_frame (h msg List.mem_cons_self) hbytes
      obtain ⟨rest, hreads, hrest⟩ :=
        ih (fun msg hmem => h msg (List.mem_cons_of_mem _ hmem)) hr₁
      refine ⟨rest, ?_, hrest⟩
      simp only [List.length_cons, readMsgs, hread, hreads]
      rfl

/-- The frames of one message type: what is written is read back, however the stream
is cut, and nothing behind it is touched; a body over the limit is not written at
all, and no stream makes a reader ask for more than the limit. -/
structure FramesFaithful (toVec : α → List UInt8) (fromSlice : List UInt8 → Option α) :
    Prop where
  roundTrip : ∀ (msgs : List α) (further : List UInt8) (r : Reads),
    (∀ msg ∈ msgs, (toVec msg).length ≤ maxFrameLen) →
    (∀ msg ∈ msgs, fromSlice (toVec msg) = some msg) →
    r.bytes = writeMsgs toVec [] msgs ++ further →
    ∃ rest, readMsgs fromSlice msgs.length r = .ok (msgs, rest) ∧ rest.bytes = further
  silent : ∀ (sent : List UInt8) (msg : α), maxFrameLen < (toVec msg).length →
    writeMsg toVec sent msg = (.error (.tooLarge (toVec msg).length), sent)
  consumed : ∀ (r rest : Reads) (msg : α),
    (readMsg fromSlice r).result = .ok (msg, rest) →
    ∃ taken, r.bytes = taken ++ rest.bytes ∧
      taken.length = 4 + fromBe32 (taken.take 4) ∧ fromBe32 (taken.take 4) ≤ maxFrameLen
  buffer : ∀ (r : Reads) (size : ℕ), (readMsg fromSlice r).buffer = some size →
    size ≤ maxFrameLen

theorem framesFaithful (toVec : α → List UInt8) (fromSlice : List UInt8 → Option α) :
    FramesFaithful toVec fromSlice where
  roundTrip msgs further r hlength hserde hbytes := by
    have hfits : ∀ msg ∈ msgs, (frameCodec toVec fromSlice).Fits msg :=
      fun msg hmsg => ⟨hlength msg hmsg, hserde msg hmsg⟩
    rw [writeMsgs_fits hfits, List.nil_append] at hbytes
    exact readMsgs_stream hfits hbytes
  silent sent _ h := writeMsg_tooLarge h sent
  consumed _ _ _ h := readMsg_ok h
  buffer _ _ h := readMsg_buffer h

/-- The frames of both directions. -/
theorem frames_faithful (clientFromSlice : List UInt8 → Option ClientMsg)
    (serverFromSlice : List UInt8 → Option ServerMsg) :
    FramesFaithful ClientMsg.toVec clientFromSlice ∧
      FramesFaithful ServerMsg.toVec serverFromSlice :=
  ⟨framesFaithful _ _, framesFaithful _ _⟩

end Yunpan.Protocol
