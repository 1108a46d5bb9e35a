import Yunpan.Client.Handshake

/-!
# One control session of the client

`session` connects, passes the handshake, asks for its port and then answers what
the relay sends.  It stands at one of its awaits: a frame that is being written, a
frame that is waited for, or the end with its result.
-/

namespace Yunpan.Client

open Yunpan.Protocol

/-- What the window shows; the reason of a retry is the error it prints. -/
inductive RelayStatus where
  | idle
  | connecting
  | online (publicUrl : String)
  | retrying (reason : SessionError) (attempt : UInt32)
  | fatal (reason : String)
  deriving DecidableEq

/-- Where `session` stands; `ended none` is `Ok(())`. -/
inductive SessionStage where
  | connecting
  | handshake (stage : Handshake)
  | sendBind
  | loop
  | sendPong (ts : UInt64)
  | sendBye
  | ended (result : Option SessionError)
  deriving DecidableEq

def stoppedReason : String := "用户停用了中继"

def bindRefused (name reason : String) : String :=
  "中继拒绝了「" ++ name ++ "」的端口申请：" ++ reason

/-- The address shown when the relay does not name one. -/
def ClientConfig.publicUrl (cfg : ClientConfig) (remotePort : UInt16) : String :=
  (if cfg.tls then "https" else "http") ++ "://" ++ cfg.relayHost ++ ":" ++
    remotePort.toNat.repr

/-- The session after a step of its handshake. -/
def SessionStage.ofHandshake : Handshake → SessionStage
  | .passed => .sendBind
  | .failed error => .ended (some error)
  | stage => .handshake stage

def SessionStage.connected (ok : Bool) : SessionStage :=
  if ok then .handshake .hello else .ended (some .connect)

/-- The frame that is being written. -/
def SessionStage.frame (cfg : ClientConfig) : SessionStage → Option ClientMsg
  | .handshake stage => stage.frame cfg.controlRole
  | .sendBind => some (.bind cfg.name cfg.remotePort)
  | .sendPong ts => some (.pong ts)
  | .sendBye => some (.bye stoppedReason)
  | _ => none

@[simp] theorem SessionStage.frame_connecting (cfg : ClientConfig) :
    SessionStage.connecting.frame cfg = none := rfl
@[simp] theorem SessionStage.frame_handshake (cfg : ClientConfig) (stage : Handshake) :
    (SessionStage.handshake stage).frame cfg = stage.frame cfg.controlRole := rfl
@[simp] theorem SessionStage.frame_sendBind (cfg : ClientConfig) :
    SessionStage.sendBind.frame cfg = some (.bind cfg.name cfg.remotePort) := rfl
@[simp] theorem SessionStage.frame_loop (cfg : ClientConfig) :
    SessionStage.loop.frame cfg = none := rfl
@[simp] theorem SessionStage.frame_ended (cfg : ClientConfig)
    (result : Option SessionError) : (SessionStage.ended result).frame cfg = none := rfl

def SessionStage.written (ok : Bool) : SessionStage → SessionStage
  | .handshake stage => .ofHandshake (stage.written ok)
  | .sendBind => if ok then .loop else .ended (some .write)
  | .sendPong _ => if ok then .loop else .ended (some .write)
  | .sendBye => .ended none
  | stage => stage

@[simp] theorem SessionStage.written_handshake (ok : Bool) (stage : Handshake) :
    SessionStage.written ok (.handshake stage) = .ofHandshake (stage.written ok) := rfl
@[simp] theorem SessionStage.written_sendBind :
    SessionStage.written true .sendBind = .loop := rfl

/-- The session waits for a frame. -/
def SessionStage.reads : SessionStage → Bool
  | .handshake .challenge => true
  | .handshake .authOk => true
  | .loop => true
  | _ => false

/-- What the loop does with a frame, and the status it publishes. -/
def receive (cfg : ClientConfig) : ServerMsg → SessionStage × Option RelayStatus
  | .ping ts => (.sendPong ts, none)
  | .bindOk _ remotePort publicUrl =>
      (.loop, some (.online (publicUrl.getD (cfg.publicUrl remotePort))))
  | .bindErr name reason => (.ended (some (.fatal (bindRefused name reason))), none)
  | .newConn _ _ _ => (.loop, none)
  | .bye _ => (.ended none, none)
  | .authErr reason => (.ended (some (.fatal reason)), none)
  | _ => (.loop, none)

/-- A frame that was waited for; `none` is a read that failed. -/
def SessionStage.read (hmac : Hmac) (cfg : ClientConfig) :
    Option ServerMsg → SessionStage → SessionStage × Option RelayStatus
  | msg, .handshake stage =>
      (.ofHandshake (stage.read hmac cfg cfg.controlRole msg), none)
  | some msg, .loop => receive cfg msg
  | none, .loop => (.ended (some .read), none)
  | _, stage => (stage, none)

/-! ## Which frames are fatal -/

/-- A session that has ended for good. -/
def SessionStage.IsFatal : SessionStage → Prop
  | .ended (some error) => error.isFatal = true
  | .handshake (.failed error) => error.isFatal = true
  | _ => False

theorem SessionStage.written_isFatal {ok : Bool} {stage : SessionStage}
    (h : (stage.written ok).IsFatal) : stage.IsFatal := by
  cases stage with
  | handshake stage =>
      cases stage <;> cases ok <;> first | exact h | cases h
  | ended result => exact h
  | _ => cases ok <;> cases h

/-- Only a refusal ends a session for good, and no frame publishes `Fatal`. -/
theorem SessionStage.read_isFatal {hmac : Hmac} {cfg : ClientConfig}
    {msg : Option ServerMsg} {stage : SessionStage}
    (h : (stage.read hmac cfg msg).1.IsFatal) :
    stage.IsFatal ∨ ∃ frame, msg = some frame ∧ frame.refuses = true := by
  cases msg with
  | none =>
      cases stage with
      | handshake stage => cases stage <;> first | exact Or.inl h | cases h
      | ended result => exact Or.inl h
      | _ => cases h
  | some frame =>
      cases stage with
      | handshake stage =>
          cases stage <;> cases frame <;>
            first
            | exact Or.inl h
            | exact Or.inr ⟨_, rfl, rfl⟩
            | cases h
      | loop => cases frame <;> first | exact Or.inr ⟨_, rfl, rfl⟩ | cases h
      | ended result => exact Or.inl h
      | _ => cases h

theorem SessionStage.read_status {hmac : Hmac} {cfg : ClientConfig}
    {msg : Option ServerMsg} {stage : SessionStage} {reason : String} :
    (stage.read hmac cfg msg).2 ≠ some (.fatal reason) := by
  cases msg with
  | none => cases stage <;> simp [SessionStage.read]
  | some frame =>
      cases stage with
      | loop => cases frame <;> simp [SessionStage.read, receive]
      | _ => simp [SessionStage.read]

/-! ## What the session comes to write -/

/-- A request for a port that the session has yet to send. -/
def SessionStage.asking : SessionStage → ℕ
  | .handshake _ => 1
  | .sendBind => 1
  | _ => 0

/-- The frames that a session writes after its handshake. -/
def Follows (cfg : ClientConfig) (msg : ClientMsg) : Prop :=
  msg = .bind cfg.name cfg.remotePort ∨ (∃ ts, msg = .pong ts) ∨
    msg = .bye stoppedReason

theorem SessionStage.written_frame {cfg : ClientConfig} {ok : Bool}
    {stage : SessionStage}
    (h : (stage.frame cfg).isSome = true) : (stage.written ok).frame cfg = none := by
  cases stage with
  | handshake stage => cases stage <;> cases ok <;> first | rfl | cases h
  | connecting => cases h
  | loop => cases h
  | ended => cases h
  | _ => cases ok <;> rfl

theorem SessionStage.asking_le (stage : SessionStage) : stage.asking ≤ 1 := by
  cases stage <;> simp [SessionStage.asking]

theorem SessionStage.written_asking {cfg : ClientConfig} {ok : Bool}
    {stage : SessionStage}
    {msg : ClientMsg} (h : stage.frame cfg = some msg) :
    msg.isBind.toNat + (stage.written ok).asking ≤ stage.asking := by
  cases stage with
  | handshake stage =>
      have hnot : msg.isBind = false := by
        cases stage <;> cases h <;> rfl
      have hle := (SessionStage.written ok (.handshake stage)).asking_le
      simpa [hnot, SessionStage.asking] using hle
  | sendBind =>
      cases h
      cases ok <;> exact le_rfl
  | sendPong ts =>
      cases h
      cases ok <;> exact le_rfl
  | sendBye =>
      cases h
      exact le_rfl
  | _ => cases h

theorem SessionStage.read_frame {hmac : Hmac} {cfg : ClientConfig}
    {msg : Option ServerMsg}
    {stage : SessionStage} {frame : ClientMsg} (hreads : stage.reads = true)
    (h : (stage.read hmac cfg msg).1.frame cfg = some frame) :
    (∃ nonce, msg = some (.challenge nonce) ∧
      frame = .auth (sign hmac cfg.token protoVersion cfg.controlRole nonce)) ∨
      Follows cfg frame := by
  cases stage with
  | handshake stage =>
      cases stage with
      | challenge =>
          cases msg with
          | none => cases h
          | some msg =>
              cases msg <;> cases h
              exact Or.inl ⟨_, rfl, rfl⟩
      | authOk =>
          cases msg with
          | none => cases h
          | some msg =>
              cases msg <;> cases h
              exact Or.inr (Or.inl rfl)
      | _ => cases hreads
  | loop =>
      cases msg with
      | none => cases h
      | some msg =>
          cases msg <;> cases h
          exact Or.inr (Or.inr (Or.inl ⟨_, rfl⟩))
  | _ => cases hreads

theorem SessionStage.read_asking {hmac : Hmac} {cfg : ClientConfig}
    {msg : Option ServerMsg}
    {stage : SessionStage} : (stage.read hmac cfg msg).1.asking ≤ stage.asking := by
  cases stage with
  | handshake stage => exact SessionStage.asking_le _
  | loop =>
      cases msg with
      | none => exact le_rfl
      | some msg => cases msg <;> exact le_rfl
  | _ => cases msg <;> exact le_rfl

end Yunpan.Client
