import Yunpan.Core.Framing
import Yunpan.Relay.Isolation

/-!
# The bytes under the select loop

`run_control` reads its connection with a `read_msg` that it drops whenever
another branch of `select!` wins, and with it the bytes that this `read_msg` has
already taken.  Here the relay runs together with the bytes on one control
connection: what the client wrote, what the pending read has taken, and what was
lost with dropped reads.
-/

namespace Yunpan.Relay

open Yunpan.Protocol
open Yunpan.Transition
open Yunpan.Framing

variable {crates : Crates} {cfg : RelayConfig}

/-- `write_msg` and `read_msg` of client messages; `fromSlice` is the JSON reader. -/
def clientCodec (fromSlice : List UInt8 → Option ClientMsg) : Codec ClientMsg where
  encode := ClientMsg.toVec
  decode := fromSlice
  maxLen := maxFrameLen

/-- How `read_msg` can fail. -/
inductive ReadError where
  | disconnected
  | tooLong (len : ℕ)
  | notJson
  deriving DecidableEq

structure Wire where
  relay : State
  input : List UInt8
  taken : List UInt8
  lost : List UInt8
  acted : List ClientMsg
  error : Option ReadError

inductive WireLabel where
  | byte
  | disconnect
  | other (label : Label)

/-- The pending `read_msg` of session `i` has an outcome. -/
def Wire.finish (crates : Crates) (cfg : RelayConfig) (i : ℕ) (w : Wire)
    (msg : Option ClientMsg) : Option Wire :=
  (w.relay.step crates cfg (.conn i (.read msg))).map fun relay =>
    { w with relay := relay }

/-- The pending `read_msg` takes one byte. -/
def Wire.byte (crates : Crates) (cfg : RelayConfig) (codec : Codec ClientMsg) (i : ℕ)
    (w : Wire) : Option Wire :=
  match (w.relay.conns i).phase, w.input with
  | .control _ .select, b :: input =>
      match codec.poll (w.taken ++ [b]) with
      | .more => some { w with input := input, taken := w.taken ++ [b] }
      | .done msg =>
          Wire.finish crates cfg i { w with
            input := input, taken := [], acted := w.acted ++ [msg] } (some msg)
      | .tooLong len =>
          Wire.finish crates cfg i { w with
            input := input, taken := [], error := some (.tooLong len) } none
      | .malformed =>
          Wire.finish crates cfg i { w with
            input := input, taken := [], error := some .notJson } none
  | _, _ => none

/-- The read branch of session `i`; in this system it is taken through its bytes. -/
def Label.reads (i : ℕ) : Label → Bool
  | .conn j (.read _) => j == i
  | _ => false

/-- The other branches of the `select!` of session `i`. -/
def Label.dropsRead (i : ℕ) : Label → Bool
  | .conn j .shutdownSeen => j == i
  | .conn j .tick => j == i
  | .event j => j == i
  | _ => false

def Wire.other (crates : Crates) (cfg : RelayConfig) (i : ℕ) (w : Wire)
    (label : Label) : Option Wire :=
  if label.reads i then none
  else
    (w.relay.step crates cfg label).map fun relay =>
      if label.dropsRead i then
        { w with relay := relay, taken := [], lost := w.lost ++ w.taken }
      else { w with relay := relay }

def Wire.step (crates : Crates) (cfg : RelayConfig) (codec : Codec ClientMsg) (i : ℕ)
    (w : Wire) : WireLabel → Option Wire
  | .byte => w.byte crates cfg codec i
  | .disconnect =>
      Wire.finish crates cfg i { w with error := some .disconnected } none
  | .other label => w.other crates cfg i label

/-- The relay and the frames that the client of session `i` writes after the
handshake. -/
def wire (crates : Crates) (cfg : RelayConfig) (codec : Codec ClientMsg) (i : ℕ)
    (frames : List ClientMsg) : System Wire WireLabel where
  init :=
    { relay := State.init, input := codec.stream frames, taken := [], lost := []
      acted := [], error := none }
  step := Wire.step crates cfg codec i

variable {codec : Codec ClientMsg} {i : ℕ} {frames : List ClientMsg} {w w' : Wire}

/-! ## What a step does -/

theorem finish_cases {msg : Option ClientMsg}
    (h : w.finish crates cfg i msg = some w') :
    ∃ relay, w.relay.step crates cfg (.conn i (.read msg)) = some relay ∧
      w' = { w with relay := relay } := by
  obtain ⟨relay, hrelay, rfl⟩ := Option.map_eq_some_iff.mp h
  exact ⟨relay, hrelay, rfl⟩

theorem byte_cases (h : w.byte crates cfg codec i = some w') :
    ∃ b input, w.input = b :: input ∧
      ((codec.poll (w.taken ++ [b]) = .more ∧
          w' = { w with input := input, taken := w.taken ++ [b] }) ∨
        ∃ relay msg, w.relay.step crates cfg (.conn i (.read msg)) = some relay ∧
          ((∃ frame, msg = some frame ∧ codec.poll (w.taken ++ [b]) = .done frame ∧
              w' = { w with
                relay := relay, input := input, taken := []
                acted := w.acted ++ [frame] }) ∨
            (msg = none ∧ codec.poll (w.taken ++ [b]) ≠ .more ∧
              (∀ frame, codec.poll (w.taken ++ [b]) ≠ .done frame) ∧
              ∃ error, w' = { w with
                relay := relay, input := input, taken := []
                error := some error }))) := by
  unfold Wire.byte at h
  split at h
  case h_2 => cases h
  case h_1 clientId b input _ hinput =>
    refine ⟨b, input, hinput, ?_⟩
    split at h
    case h_1 hpoll => exact Or.inl ⟨hpoll, (Option.some.inj h).symm⟩
    case h_2 frame hpoll =>
      obtain ⟨relay, hrelay, rfl⟩ := finish_cases h
      exact Or.inr ⟨relay, _, hrelay, Or.inl ⟨frame, rfl, hpoll, rfl⟩⟩
    case h_3 len hpoll =>
      obtain ⟨relay, hrelay, rfl⟩ := finish_cases h
      exact Or.inr
        ⟨relay, _, hrelay, Or.inr ⟨rfl, by simp [hpoll], by simp [hpoll], _, rfl⟩⟩
    case h_4 hpoll =>
      obtain ⟨relay, hrelay, rfl⟩ := finish_cases h
      exact Or.inr
        ⟨relay, _, hrelay, Or.inr ⟨rfl, by simp [hpoll], by simp [hpoll], _, rfl⟩⟩

theorem other_cases {label : Label} (h : w.other crates cfg i label = some w') :
    label.reads i = false ∧ ∃ relay, w.relay.step crates cfg label = some relay ∧
      w' = if label.dropsRead i then
          { w with relay := relay, taken := [], lost := w.lost ++ w.taken }
        else { w with relay := relay } := by
  unfold Wire.other at h
  split at h
  case isTrue => cases h
  case isFalse hreads =>
    obtain ⟨relay, hrelay, rfl⟩ := Option.map_eq_some_iff.mp h
    exact ⟨Bool.eq_false_iff.mpr hreads, relay, hrelay, rfl⟩

/-- Seen without its bytes, the system is the relay. -/
theorem relay_of_wire (h : (wire crates cfg codec i frames).Reachable w) :
    (relay crates cfg).Reachable w.relay := by
  apply h.component Wire.relay rfl
  intro w label w' hreach hstep
  have hnext : ∀ {label : Label} {next : State},
      w.relay.step crates cfg label = some next →
      (Relay.relay crates cfg).Reachable next := fun hrelay => hreach.step hrelay
  cases label with
  | byte =>
      obtain ⟨b, input, -, ⟨-, rfl⟩ | ⟨relay, msg, hrelay, ⟨frame, -, -, rfl⟩ |
        ⟨-, -, -, error, rfl⟩⟩⟩ := byte_cases hstep
      · exact hreach
      · exact hnext hrelay
      · exact hnext hrelay
  | disconnect =>
      obtain ⟨relay, hrelay, rfl⟩ := finish_cases hstep
      exact hnext hrelay
  | other label =>
      obtain ⟨-, relay, hrelay, rfl⟩ := other_cases hstep
      split
      · exact hnext hrelay
      · exact hnext hrelay

/-! ## Frames are acted on in order -/

/-- No byte is read once another branch has won while a frame was half read. -/
def ReadsWhole (w : Wire) : WireLabel → Prop
  | .byte => w.lost = []
  | _ => True

instance (w : Wire) (label : WireLabel) : Decidable (ReadsWhole w label) := by
  cases label <;> unfold ReadsWhole <;> infer_instance

/-- What was acted on is a beginning of what was sent; as long as nothing was lost,
the reader stands within the next frame. -/
structure Wire.Aligned (codec : Codec ClientMsg) (frames : List ClientMsg) (w : Wire) :
    Prop where
  acted : w.acted <+: frames
  error : ∀ e, w.error = some e → e = .disconnected
  reader : w.lost = [] → ∃ rest, frames = w.acted ++ rest ∧
    codec.Within w.taken w.input rest

theorem Wire.Aligned.byte (hw : w.Aligned codec frames)
    (hfits : ∀ msg ∈ frames, codec.Fits msg) (hmax : codec.maxLen < 2 ^ 32)
    (hlost : w.lost = []) (h : w.byte crates cfg codec i = some w') :
    w'.Aligned codec frames := by
  obtain ⟨rest, hframes, hwithin⟩ := hw.reader hlost
  obtain ⟨b, input, hinput, hcases⟩ := byte_cases h
  rw [hinput] at hwithin
  have hrest : ∀ msg ∈ rest, codec.Fits msg := fun msg hmsg =>
    hfits msg (hframes ▸ List.mem_append_right _ hmsg)
  obtain ⟨hmore, hwithin⟩ | ⟨msg, later, rfl, hdone, hwithin⟩ := hwithin.read hrest hmax
  · obtain ⟨-, rfl⟩ | ⟨relay, msg, -, ⟨frame, -, hpoll, -⟩ | ⟨-, hpoll, -, -⟩⟩ := hcases
    · exact ⟨hw.acted, hw.error, fun _ => ⟨rest, hframes, hwithin⟩⟩
    · rw [hmore] at hpoll
      cases hpoll
    · exact absurd hmore hpoll
  · obtain ⟨hpoll, -⟩ | ⟨relay, msg', -,
        ⟨frame, -, hpoll, rfl⟩ | ⟨-, -, hpoll, -⟩⟩ := hcases
    · rw [hdone] at hpoll
      cases hpoll
    · rw [hdone] at hpoll
      cases hpoll
      have hframes' : frames = (w.acted ++ [msg]) ++ later := by simp [hframes]
      exact ⟨⟨later, hframes'.symm⟩, hw.error, fun _ => ⟨later, hframes', hwithin⟩⟩
    · exact absurd hdone (hpoll msg)

theorem Wire.Aligned.step {label : WireLabel} (hw : w.Aligned codec frames)
    (hfits : ∀ msg ∈ frames, codec.Fits msg) (hmax : codec.maxLen < 2 ^ 32)
    (hwhole : ReadsWhole w label) (h : w.step crates cfg codec i label = some w') :
    w'.Aligned codec frames := by
  cases label with
  | byte => exact hw.byte hfits hmax hwhole h
  | disconnect =>
      obtain ⟨relay, -, rfl⟩ := finish_cases h
      exact ⟨hw.acted, fun e he => (Option.some.inj he).symm, hw.reader⟩
  | other label =>
      obtain ⟨-, relay, -, rfl⟩ := other_cases h
      split
      case isTrue =>
        refine ⟨hw.acted, hw.error, fun hlost => ?_⟩
        obtain ⟨hlost, htaken⟩ := List.append_eq_nil_iff.mp hlost
        obtain ⟨rest, hframes, hwithin⟩ := hw.reader hlost
        exact ⟨rest, hframes, htaken ▸ hwithin⟩
      case isFalse => exact ⟨hw.acted, hw.error, hw.reader⟩

/-- The frames that `run_control` acts on are a beginning of the frames the client
sent, and the loop ends with no other read error than a lost connection, in every
run that reads no further after losing bytes to another branch. -/
theorem frames_in_order {fromSlice : List UInt8 → Option ClientMsg}
    {history : List (Wire × WireLabel)}
    (hfits : ∀ msg ∈ frames, (clientCodec fromSlice).Fits msg)
    (hrun : (wire crates cfg (clientCodec fromSlice) i frames).Run history w)
    (hwhole : System.Always ReadsWhole history) :
    w.acted <+: frames ∧ ∀ e, w.error = some e → e = .disconnected := by
  have hmax : (clientCodec fromSlice).maxLen < 2 ^ 32 := by
    show maxFrameLen < 2 ^ 32
    decide
  have hinit : (wire crates cfg (clientCodec fromSlice) i frames).init.Aligned
      (clientCodec fromSlice) frames :=
    ⟨List.nil_prefix, by simp [wire], fun _ => ⟨frames, rfl, Codec.within_stream _ _⟩⟩
  have haligned := hrun.invariant_of_always hwhole hinit
    fun _ _ _ _ hw hcond hstep => hw.step hfits hmax hcond hstep
  exact ⟨haligned.acted, haligned.error⟩

/-! ## A frame cut by a heartbeat -/

/-- Steps of the relay that leave the select loop of session `i` alone. -/
theorem exec_other {labels : List Label} {next : State}
    (hlabels : ∀ label ∈ labels, label.reads i = false ∧ label.dropsRead i = false)
    (h : (Relay.relay crates cfg).exec w.relay labels = some next) :
    (wire crates cfg codec i frames).exec w (labels.map .other) =
      some { w with relay := next } := by
  induction labels generalizing w with
  | nil =>
      obtain rfl : w.relay = next := by simpa [System.exec] using h
      rfl
  | cons label labels ih =>
      obtain ⟨hreads, hdrops⟩ := hlabels label List.mem_cons_self
      rw [System.exec, Option.bind_eq_some_iff] at h
      obtain ⟨mid, hmid, hrest⟩ := h
      have hstep : (wire crates cfg codec i frames).step w (.other label) =
          some { w with relay := mid } := by
        have hmid : w.relay.step crates cfg label = some mid := hmid
        simp [wire, Wire.step, Wire.other, hreads, hdrops, hmid]
      rw [List.map_cons, System.exec, hstep]
      exact ih (fun label hlabel => hlabels label (List.mem_cons_of_mem _ hlabel)) hrest

/-- The JSON reader on the one body that the sample client sends. -/
def readPong (body : List UInt8) : Option ClientMsg :=
  if body = (ClientMsg.pong 1).toVec then some (.pong 1) else none

/-- One control connection of `mac` on the wire, after the handshake. -/
def wireLogin : Wire :=
  { (wire sampleCrates sampleConfig (clientCodec readPong) 0 [.pong 1]).init with
    relay := State.init.setConn 0
      (Conn.loggedIn Sha256.hmac (.control "mac") "mac-0123456789abcdef"
      (Vector.replicate 32 0)) }

theorem wireLogin_exec :
    (wire sampleCrates sampleConfig (clientCodec readPong) 0 [.pong 1]).exec
      (wire sampleCrates sampleConfig (clientCodec readPong) 0 [.pong 1]).init
      ((login Sha256.hmac 0 (.control "mac") "mac-0123456789abcdef"
        (Vector.replicate 32 0)).map
        .other) = some wireLogin :=
  exec_other (by simp [login, Label.reads, Label.dropsRead])
    (exec_login _ rfl (by decide +kernel))

theorem readPong_fits : (clientCodec readPong).Fits (.pong 1) :=
  ⟨by decide +kernel, by decide +kernel⟩

/-- A tick falls between the second and the third byte of a frame: the next read
takes the rest of the length and the first bytes of the JSON for a length. -/
theorem frame_cut : ∃ history w,
    (wire sampleCrates sampleConfig (clientCodec readPong) 0 [.pong 1]).Run history w ∧
    (clientCodec readPong).Fits (.pong 1) ∧
    ¬(w.acted <+: [.pong 1] ∧ ∀ e, w.error = some e → e = .disconnected) := by
  have hexec : (((wire sampleCrates sampleConfig (clientCodec readPong) 0
      [.pong 1]).exec wireLogin ([.other (.kick 0), .other (.register 0), .byte, .byte,
        .other (.conn 0 .tick), .other (.conn 0 (.written true))] ++
        List.replicate 4 .byte)).any fun w =>
          decide (w.error = some (.tooLong 1276706))) = true := by decide +kernel
  obtain ⟨w, hw, hcheck⟩ := (Option.any_eq_true _ _).mp hexec
  obtain ⟨first, hlogin, -⟩ := System.Run.start.of_exec wireLogin_exec
  obtain ⟨second, hrun, -⟩ := hlogin.of_exec hw
  refine ⟨_, w, hrun, readPong_fits, fun hclaim => ?_⟩
  have := hclaim.2 _ (of_decide_eq_true hcheck)
  cases this

/-- The same frame read while no other branch wins. -/
theorem frames_in_order_sample : ∃ history w,
    (wire sampleCrates sampleConfig (clientCodec readPong) 0 [.pong 1]).Run history w ∧
    System.Always ReadsWhole history ∧ w.acted = [.pong 1] ∧
    w.acted <+: [.pong 1] ∧ ∀ e, w.error = some e → e = .disconnected := by
  have hexec : ((((wire sampleCrates sampleConfig (clientCodec readPong) 0
      [.pong 1]).restrict ReadsWhole).exec wireLogin
        ([.other (.kick 0), .other (.register 0), .other (.conn 0 .tick),
          .other (.conn 0 (.written true))] ++ List.replicate 23 .byte)).any fun w =>
            decide (w.acted = [.pong 1])) = true := by decide +kernel
  obtain ⟨w, hw, hcheck⟩ := (Option.any_eq_true _ _).mp hexec
  have hnil : System.Always ReadsWhole [] := System.Always.nil
  obtain ⟨first, hlogin, hfirst⟩ :=
    System.Run.start.always_of_exec hnil wireLogin_exec (by simp [ReadsWhole])
  obtain ⟨steps, hrun, hwhole, -⟩ := hlogin.exec_restrict hfirst hw
  exact ⟨_, w, hrun, hwhole, of_decide_eq_true hcheck,
    frames_in_order (by simpa using readPong_fits) hrun hwhole⟩

end Yunpan.Relay
