import Yunpan.Tunnel.Reconnect

/-!
# What is under way between a client and its relay

One control connection of a correctly configured client, seen from both ends: the
frames under way fit the point that the relay has reached, the relay has no reason
to turn the client down, and the client asks for its port once.
-/

namespace Yunpan.Tunnel

open Yunpan.Protocol
open Yunpan.Transition
open Yunpan.Relay
open Yunpan.Client

variable {crates : Crates} {cfg : RelayConfig} {me : ClientConfig}
variable {s s' : State} {c c' : Conn} {link link' : Link}

/-- A frame that the client may have under way while the relay is in a phase. -/
def SafeFrame (hmac : Hmac) (me : ClientConfig) (phase : Phase) : ClientMsg → Prop
  | .hello proto role _ => proto = protoVersion ∧ role = me.controlRole
  | .auth mac => phase ≠ .incoming .hello ∧ ∀ proto role token nonceHex,
      phase = .incoming (.auth proto role token nonceHex) →
      mac = sign hmac me.token protoVersion me.controlRole nonceHex
  | .bind _ remotePort => remotePort = me.remotePort
  | _ => True

/-- A frame that the relay may have under way while it is in a phase. -/
def SafeAnswer (phase : Phase) (msg : ServerMsg) : Prop :=
  msg.refuses = false ∧ ∀ nonceHex, msg = .challenge nonceHex →
    phase ≠ .incoming .hello ∧ ∀ proto role token nonceHex',
      phase = .incoming (.auth proto role token nonceHex') → nonceHex = nonceHex'

/-- The relay's side of a handshake only goes forward. -/
def Later (phase phase' : Phase) : Prop :=
  phase' = phase ∨ (phase = .incoming .hello ∧ phase' ≠ .incoming .hello) ∨
    ∀ stage, phase' ≠ .incoming stage

theorem SafeFrame.later {hmac : Hmac} {phase phase' : Phase} {msg : ClientMsg}
    (h : SafeFrame hmac me phase msg) (hlater : Later phase phase') :
    SafeFrame hmac me phase' msg := by
  cases msg with
  | auth mac =>
      obtain rfl | ⟨hhello, -⟩ | hnot := hlater
      · exact h
      · exact absurd hhello h.1
      · exact ⟨hnot _, fun _ _ _ _ hphase => absurd hphase (hnot _)⟩
  | _ => exact h

theorem SafeAnswer.later {phase phase' : Phase} {msg : ServerMsg}
    (h : SafeAnswer phase msg) (hlater : Later phase phase') :
    SafeAnswer phase' msg := by
  refine ⟨h.1, fun nonceHex hmsg => ?_⟩
  obtain rfl | ⟨hhello, -⟩ | hnot := hlater
  · exact h.2 nonceHex hmsg
  · exact absurd hhello (h.2 nonceHex hmsg).1
  · exact ⟨hnot _, fun _ _ _ _ hphase => absurd hphase (hnot _)⟩

theorem safeAnswer_of_not_incoming {phase : Phase} {msg : ServerMsg}
    (h : msg.refuses = false) (hphase : ∀ stage, phase ≠ .incoming stage) :
    SafeAnswer phase msg :=
  ⟨h, fun _ _ => ⟨hphase _, fun _ _ _ _ heq => absurd heq (hphase _)⟩⟩

/-- A request for a port that the session is dealing with. -/
def binding (phase : Phase) : ℕ :=
  match phase with
  | .control _ (.bind _ _) => 1
  | _ => 0

/-- One connection of the client: `ahead` is the frame that the client is writing on
it, `asking` is one as long as the client has yet to ask for its port. -/
structure Line (hmac : Hmac) (me : ClientConfig) (c : Conn) (link : Link)
    (ahead : Option ClientMsg) (asking : ℕ) : Prop where
  begun : c.phase ≠ .idle
  challenged : ∀ {proto role token nonceHex},
    c.phase = .incoming (.auth proto role token nonceHex) → role = me.controlRole
  control : ∀ {id phase}, c.phase = .control id phase → id = me.clientId
  frames : ∀ msg ∈ link.toRelay, SafeFrame hmac me c.phase msg
  answers : ∀ msg ∈ link.toClient, SafeAnswer c.phase msg
  writing : ∀ {id msg writing}, c.phase = .control id (.write msg writing) →
    msg.refuses = false
  bind : ∀ {id name port}, c.phase = .control id (.bind name port) →
    port = me.remotePort
  ahead : ∀ {msg}, ahead = some msg → SafeFrame hmac me c.phase msg
  once : link.toRelay.countP ClientMsg.isBind + binding c.phase +
    c.listeners.length + asking ≤ 1

variable {ahead : Option ClientMsg} {asking : ℕ}

/-! ## The relay acts on the connection -/

theorem serve_cases {taken : Option ClientMsg} {written : Option ServerMsg}
    (h : link.serve taken written = some link') :
    link'.toClient = link.toClient ++ written.toList ∧
      ((taken = none ∧ link'.toRelay = link.toRelay) ∨
        ∃ msg, taken = some msg ∧ link.toRelay = msg :: link'.toRelay) := by
  cases taken with
  | none =>
      cases h
      exact ⟨rfl, Or.inl ⟨rfl, rfl⟩⟩
  | some msg =>
      simp only [Link.serve] at h
      split at h
      case isTrue hhead =>
        cases h
        exact ⟨rfl, Or.inr ⟨msg, rfl, (List.eq_cons_of_mem_head? hhead)⟩⟩
      case isFalse => cases h

/-- The answer to a greeting of the client is the challenge of the phase that
follows. -/
theorem hello_safe {nonce : Nonce} {msg : ClientMsg} {io : Bool}
    (hread : SafeFrame crates.hmac me c.phase msg) {reply : ServerMsg}
    (hanswer : (Incoming.hello.step crates.hmac cfg nonce io msg).1 = some reply) :
    SafeAnswer (c.frame crates cfg .hello nonce msg io).phase reply := by
  cases msg with
  | hello proto role agent =>
      obtain ⟨rfl, rfl⟩ := hread
      cases io with
      | false => simp [Incoming.step, handleHello, Incoming.reply] at hanswer
      | true =>
          simp only [Incoming.step, handleHello, Incoming.reply, ne_eq,
            not_true_eq_false,
            if_false, if_true, Option.some.injEq] at hanswer
          subst hanswer
          refine ⟨rfl, fun nonceHex hmsg => ?_⟩
          cases hmsg
          simp [Conn.frame, Incoming.step, handleHello, Incoming.reply]
  | _ => simp [Incoming.step, handleHello, Incoming.reply] at hanswer

/-- The signature of the client is accepted. -/
theorem auth_safe {proto : UInt16} {role : Role} {token : Option String}
    {nonceHex : String} {nonce : Nonce} {msg : ClientMsg} {io : Bool}
    (hgenuine : c.Genuine crates cfg) (htoken : cfg.token me.clientId = some me.token)
    (hphase : c.phase = .incoming (.auth proto role token nonceHex))
    (hrole : role = me.controlRole) (hread : SafeFrame crates.hmac me c.phase msg)
    {reply : ServerMsg}
    (hanswer : ((Incoming.auth proto role token nonceHex).step crates.hmac cfg nonce io
      msg).1 = some reply) : reply = .authOk serverName cfg.heartbeatSecs := by
  obtain ⟨rfl, rfl⟩ := hgenuine.challenged hphase
  subst hrole
  cases msg with
  | auth mac =>
      have hmac := hread.2 _ _ _ _ hphase
      have hok : accepts crates.hmac protoVersion me.controlRole
          (cfg.token me.controlRole.clientId) nonceHex mac = true :=
        (accepts_iff _ _ _ _ _ _).mpr ⟨me.token, htoken, hmac⟩
      cases io with
      | false => simp [Incoming.step, handleAuth, Incoming.reply, hok] at hanswer
      | true =>
          simp only [Incoming.step, handleAuth, Incoming.reply, hok, if_true,
            Option.some.injEq] at hanswer
          exact hanswer.symm
  | _ => simp [Incoming.step, handleAuth, Incoming.reply] at hanswer

/-- What the relay answers to frames of the client is no refusal. -/
theorem answer_safe (hline : Line crates.hmac me c link ahead asking)
    (hgenuine : c.Genuine crates cfg) (htoken : cfg.token me.clientId = some me.token)
    {action : Action}
    (hread : ∀ msg, reads action = some msg → SafeFrame crates.hmac me c.phase msg)
    (hact : c.act crates cfg action = some c') {msg : ServerMsg}
    (hanswer : answer crates cfg c action = some msg) : SafeAnswer c'.phase msg := by
  cases action with
  | frame nonce frame io =>
      simp only [Conn.act] at hact
      simp only [answer] at hanswer
      split at hact
      case h_2 => cases hact
      case h_1 stage hphase =>
        cases hact
        simp only [hphase] at hanswer
        have hsafe := hread frame rfl
        cases stage with
        | hello => exact hello_safe hsafe hanswer
        | auth proto role token nonceHex =>
            obtain rfl :=
              auth_safe hgenuine htoken hphase (hline.challenged hphase) hsafe
              hanswer
            exact ⟨rfl, by simp⟩
        | pass role => cases hanswer
        | closed => cases hanswer
  | written io =>
      simp only [answer] at hanswer
      split at hanswer
      case h_2 => cases hanswer
      case h_1 id msg' writing hphase =>
        obtain ⟨-, rfl⟩ := by simpa using hanswer
        obtain ⟨phase', hphase', -⟩ := act_control hphase hact
        exact safeAnswer_of_not_incoming (hline.writing hphase) (by simp [hphase'])
  | _ => cases hanswer

/-- An action takes the handshake of a connection of the client forward. -/
theorem act_later {action : Action} (hbegun : c.phase ≠ .idle)
    (hact : c.act crates cfg action = some c') : Later c.phase c'.phase := by
  by_cases hcontrol : ∃ id phase, c.phase = .control id phase
  · obtain ⟨id, phase, hphase⟩ := hcontrol
    obtain ⟨phase', hphase', -⟩ := act_control hphase hact
    exact Or.inr (Or.inr (by simp [hphase']))
  · cases act_other (fun id p hp => hcontrol ⟨id, p, hp⟩) hact with
    | accept hidle => exact absurd hidle hbegun
    | challenge hhello => exact Or.inr (Or.inl ⟨hhello, by simp⟩)
    | close => exact Or.inr (Or.inr (by simp))
    | stay => exact Or.inl rfl
    | @pass _ role => exact Or.inr (Or.inr (by cases role <;> simp [Phase.enter]))

/-- Where an action takes a connection of the client. -/
structure Acted (me : ClientConfig) (c c' : Conn) (action : Action) : Prop where
  begun : c'.phase ≠ .idle
  challenged : ∀ {proto role token nonceHex},
    c'.phase = .incoming (.auth proto role token nonceHex) → role = me.controlRole
  control : ∀ {id phase}, c'.phase = .control id phase → id = me.clientId
  writing : ∀ {id msg writing}, c'.phase = .control id (.write msg writing) →
    msg.refuses = false
  bind : ∀ {id name port}, c'.phase = .control id (.bind name port) →
    action = .read (some (.bind name port))
  listeners : c'.listeners = c.listeners

theorem Line.acted (hline : Line crates.hmac me c link ahead asking) {action : Action}
    (hread : ∀ msg, reads action = some msg → SafeFrame crates.hmac me c.phase msg)
    (hact : c.act crates cfg action = some c') : Acted me c c' action := by
  have hlisteners := (act_channels hact).listeners
  by_cases hcontrol : ∃ id phase, c.phase = .control id phase
  · obtain ⟨id, phase, hphase⟩ := hcontrol
    obtain ⟨phase', hphase', -⟩ := act_control hphase hact
    obtain ⟨hwrites, hbinds⟩ := act_writes hphase hact
    refine ⟨by simp [hphase'], by simp [hphase'], ?_, ?_, ?_, hlisteners⟩
    · intro owner p heq
      rw [hphase'] at heq
      cases heq
      exact hline.control hphase
    · intro owner msg writing heq
      obtain rfl : id = owner := by rw [hphase'] at heq; cases heq; rfl
      exact hwrites msg writing heq
    · intro owner name port heq
      obtain rfl : id = owner := by rw [hphase'] at heq; cases heq; rfl
      exact (hbinds name port heq).2
  · cases act_other (fun id p hp => hcontrol ⟨id, p, hp⟩) hact with
    | accept hidle => exact absurd hidle hline.begun
    | @challenge role agent nonce hhello =>
        refine ⟨by simp, ?_, by simp, by simp, by simp, hlisteners⟩
        intro proto role' token nonceHex heq
        cases heq
        exact (hread _ rfl).2
    | close => exact ⟨by simp, by simp, by simp, by simp, by simp, hlisteners⟩
    | stay =>
        exact ⟨hline.begun, hline.challenged, hline.control, hline.writing,
          fun heq => absurd ⟨_, _, heq⟩ hcontrol, hlisteners⟩
    | @pass proto role token nonceHex mac nonce hauth =>
        obtain rfl := hline.challenged hauth
        refine ⟨by simp [Phase.enter, ClientConfig.controlRole],
          by simp [Phase.enter, ClientConfig.controlRole], ?_,
          by simp [Phase.enter, ClientConfig.controlRole],
          by simp [Phase.enter, ClientConfig.controlRole], hlisteners⟩
        intro id phase heq
        cases heq
        rfl

/-- An action of the relay on a connection of the client. -/
theorem Line.act (hline : Line crates.hmac me c link ahead asking)
    (hgenuine : c.Genuine crates cfg) (htoken : cfg.token me.clientId = some me.token)
    {action : Action} (hact : c.act crates cfg action = some c')
    (hserve : link.serve (reads action) (answer crates cfg c action) = some link') :
    Line crates.hmac me c' link' ahead asking := by
  obtain ⟨hclient, htaken⟩ := serve_cases hserve
  have hread : ∀ msg, reads action = some msg →
      SafeFrame crates.hmac me c.phase msg := by
    intro msg hmsg
    obtain ⟨hnone, -⟩ | ⟨msg', hmsg', hqueue⟩ := htaken
    · rw [hnone] at hmsg
      cases hmsg
    · obtain rfl : msg' = msg := Option.some.inj (hmsg'.symm.trans hmsg)
      exact hline.frames msg' (by simp [hqueue])
  have hsub : ∀ msg ∈ link'.toRelay, msg ∈ link.toRelay := by
    intro msg hmsg
    obtain ⟨-, hqueue⟩ | ⟨msg', -, hqueue⟩ := htaken
    · exact hqueue ▸ hmsg
    · simp [hqueue, hmsg]
  have hlater := act_later hline.begun hact
  have hacted := hline.acted hread hact
  refine ⟨hacted.begun, hacted.challenged, hacted.control,
    fun msg hmsg => (hline.frames msg (hsub msg hmsg)).later hlater, ?_,
    hacted.writing, fun heq => ?_, fun hahead => (hline.ahead hahead).later hlater, ?_⟩
  · intro msg hmsg
    rw [hclient, List.mem_append, Option.mem_toList] at hmsg
    rcases hmsg with hold | hnew
    · exact (hline.answers msg hold).later hlater
    · exact answer_safe hline hgenuine htoken hread hact hnew
  · exact hread _ (by rw [hacted.bind heq]; rfl)
  · have honce := hline.once
    rw [hacted.listeners]
    by_cases hbind : ∃ id name port, c'.phase = .control id (.bind name port)
    · obtain ⟨id, name, port, hphase⟩ := hbind
      obtain rfl := hacted.bind hphase
      obtain ⟨hnone, -⟩ | ⟨msg, hmsg, hqueue⟩ := htaken
      · cases hnone
      · cases hmsg
        simp only [hqueue, List.countP_cons, ClientMsg.isBind, if_true] at honce
        simp only [hphase, binding]
        omega
    · have hzero : binding c'.phase = 0 := by
        unfold binding
        split
        case h_1 heq => exact absurd ⟨_, _, _, heq⟩ hbind
        case h_2 => rfl
      have hcount :
          link'.toRelay.countP ClientMsg.isBind ≤
            link.toRelay.countP ClientMsg.isBind := by
        obtain ⟨-, hqueue⟩ | ⟨msg, -, hqueue⟩ := htaken
        · rw [hqueue]
        · simp [hqueue, List.countP_cons]
      omega

/-! ## Other steps of the relay -/

/-- The other tasks of the relay take the handshake of a connection nowhere. -/
theorem other_later {label : Label} (h : s.step crates cfg label = some s') {i : ℕ}
    (hlabel : ∀ action, label ≠ .conn i action) :
    (s'.conns i).phase = (s.conns i).phase ∨
      (∀ stage, (s'.conns i).phase ≠ .incoming stage) ∧ (s'.conns i).phase ≠ .idle := by
  cases step_stride h i with
  | same hsame => exact Or.inl hsame.1
  | control phase' _ hnew => exact Or.inr (by simp [hnew.1])
  | handshake heq => exact absurd heq (hlabel _)
  | refused _ _ heq => exact Or.inr (by simp [heq])
  | joined _ _ heq => exact Or.inr (by simp [heq])

/-- A request for a port is dealt with at once. -/
theorem other_once {label : Label} (h : s.step crates cfg label = some s') {i : ℕ}
    (hlabel : ∀ action, label ≠ .conn i action) :
    binding (s'.conns i).phase + (s'.conns i).listeners.length ≤
      binding (s.conns i).phase + (s.conns i).listeners.length := by
  by_cases hbound : ∃ osOk, label = .bound i osOk
  · obtain ⟨osOk, rfl⟩ := hbound
    obtain ⟨clientId, name, port, hphase, ⟨-, -, -, rfl⟩ | ⟨reason, -, rfl⟩⟩ :=
      bound_cases h
    · simp only [setConn_conns_self, Conn.goto_phase, hphase, binding,
        List.length_append, List.length_singleton]
      omega
    · simp [hphase, binding]
  · have hlength := (step_flow h i).length fun osOk heq => hbound ⟨osOk, heq⟩
    have hbinding : binding (s'.conns i).phase ≤ binding (s.conns i).phase := by
      unfold binding
      split
      case h_1 id name port hphase =>
        obtain hold | ⟨heq, -⟩ := step_binds h hphase
        · simp [hold]
        · exact absurd heq (hlabel _)
      case h_2 => exact Nat.zero_le _
    omega

theorem Line.other {label : Label} {i : ℕ}
    (hline : Line crates.hmac me (s.conns i) link ahead asking)
    (h : s.step crates cfg label = some s') (hlabel : ∀ action, label ≠ .conn i action)
    (hbenign : s.Benign)
    (hbound : ∀ osOk name port msg writing, label = .bound i osOk →
      (s.conns i).phase = .control me.clientId (.bind name port) →
      (s'.conns i).phase = .control me.clientId (.write msg writing) →
      msg.refuses = false) :
    Line crates.hmac me (s'.conns i) link ahead asking := by
  have hphase := other_later h hlabel
  have hlater : Later (s.conns i).phase (s'.conns i).phase :=
    hphase.imp_right fun hnot => Or.inr hnot.1
  have hcontrol : ∀ {id phase}, (s'.conns i).phase = .control id phase →
      id = me.clientId := by
    intro id phase heq
    cases step_stride h i with
    | same hsame => exact hline.control (hsame.1 ▸ heq)
    | control phase' hold hnew =>
        rw [hnew.1] at heq
        cases heq
        exact hline.control hold
    | handshake hconn => exact absurd hconn (hlabel _)
    | refused _ _ hclosed => simp [hclosed] at heq
    | joined _ _ hclosed => simp [hclosed] at heq
  refine ⟨?_, ?_, hcontrol, fun msg hmsg => (hline.frames msg hmsg).later hlater,
    fun msg hmsg => (hline.answers msg hmsg).later hlater, ?_, ?_,
    fun hahead => (hline.ahead hahead).later hlater, ?_⟩
  · obtain hsame | hnot := hphase
    · exact hsame ▸ hline.begun
    · exact hnot.2
  · intro proto role token nonceHex heq
    obtain hsame | hnot := hphase
    · exact hline.challenged (hsame ▸ heq)
    · exact absurd heq (hnot.1 _)
  · intro id msg writing heq
    obtain hold | hrefuses | ⟨-, hqueue⟩ | ⟨osOk, name, port, hbind, hold⟩ :=
      step_writes h heq
    · exact hline.writing hold
    · exact hrefuses
    · exact hbenign i msg hqueue
    · obtain rfl := hcontrol heq
      exact hbound osOk name port msg writing hbind hold heq
  · intro id name port heq
    obtain hold | ⟨hread, -⟩ := step_binds h heq
    · exact hline.bind hold
    · exact absurd hread (hlabel _)
  · have honce := hline.once
    have hkept := other_once h hlabel
    omega

/-! ## Steps of the client -/

/-- The client turns to something else on the connection, or leaves it. -/
theorem Line.turn (hline : Line crates.hmac me c link ahead asking)
    {ahead' : Option ClientMsg} {asking' : ℕ}
    (hahead : ∀ msg, ahead' = some msg → SafeFrame crates.hmac me c.phase msg)
    (hasking : asking' ≤ asking) : Line crates.hmac me c link ahead' asking' where
  begun := hline.begun
  challenged := hline.challenged
  control := hline.control
  frames := hline.frames
  answers := hline.answers
  writing := hline.writing
  bind := hline.bind
  ahead := fun heq => hahead _ heq
  once := by have := hline.once; omega

/-- A frame of the client is written. -/
theorem Line.send {msg : ClientMsg}
    (hline : Line crates.hmac me c link (some msg) asking) {asking' : ℕ}
    (hasking : msg.isBind.toNat + asking' ≤ asking) :
    Line crates.hmac me c { link with toRelay := link.toRelay ++ [msg] }
      none asking' where
  begun := hline.begun
  challenged := hline.challenged
  control := hline.control
  frames := by
    intro frame hframe
    rcases List.mem_append.mp hframe with hold | hnew
    · exact hline.frames frame hold
    · obtain rfl := List.mem_singleton.mp hnew
      exact hline.ahead rfl
  answers := hline.answers
  writing := hline.writing
  bind := hline.bind
  ahead := by simp
  once := by
    have honce := hline.once
    have hcount : [msg].countP ClientMsg.isBind = msg.isBind.toNat := by
      cases hbind : msg.isBind <;> simp [hbind]
    rw [List.countP_append, hcount]
    omega

/-- A frame of the relay is read. -/
theorem Line.receive (hline : Line crates.hmac me c link ahead asking) :
    Line crates.hmac me c { link with toClient := link.toClient.tail } ahead
      asking where
  begun := hline.begun
  challenged := hline.challenged
  control := hline.control
  frames := hline.frames
  answers := fun msg hmsg => hline.answers msg (List.mem_of_mem_tail hmsg)
  writing := hline.writing
  bind := hline.bind
  ahead := hline.ahead
  once := hline.once

theorem safeFrame_of_follows {hmac : Hmac} {phase : Phase} {msg : ClientMsg}
    (h : Follows me msg) : SafeFrame hmac me phase msg := by
  obtain rfl | ⟨ts, rfl⟩ | rfl := h
  · exact rfl
  · trivial
  · trivial

theorem runner_frame (me : ClientConfig) {r : Runner} {stage : SessionStage}
    (h : r.phase = .session stage) :
    r.frame me = stage.frame me ∧ r.asking = stage.asking := by
  simp [Runner.frame, Runner.asking, h]

theorem runner_outside (me : ClientConfig) {r : Runner}
    (h : ∀ stage, r.phase ≠ .session stage) :
    r.frame me = none ∧ r.asking = 0 := by
  unfold Runner.frame Runner.asking
  constructor
  all_goals
    split
    case h_1 hphase => exact absurd hphase (h _)
    case h_2 => rfl

variable {r r' : Runner}

/-- A step of the client in which it does not finish writing a frame. -/
theorem Line.run (hline : Line crates.hmac me c link (r.frame me) r.asking)
    {label : RunLabel} (hmove : RunMove crates.hmac me r label r')
    (hlabel : label ≠ .connected true ∧ label ≠ .written true)
    (hread : ∀ msg, label = .read (some msg) → SafeAnswer c.phase msg) :
    Line crates.hmac me c link (r'.frame me) r'.asking := by
  cases hmove with
  | @session stage label next hphase hmove =>
      obtain ⟨hframe, hasking⟩ := runner_frame me hphase
      have hnext : (r.enter next).phase = .session next.1 := rfl
      obtain ⟨hframe', hasking'⟩ := runner_frame me hnext
      rw [hframe, hasking] at hline
      rw [hframe', hasking']
      cases hmove with
      | @connected ok =>
          cases ok with
          | true => exact absurd rfl hlabel.1
          | false =>
              exact hline.turn (by simp [SessionStage.connected])
                (Nat.zero_le _)
      | @written ok hwriting =>
          obtain ⟨msg, hmsg⟩ := Option.isSome_iff_exists.mp hwriting
          have hle : msg.isBind.toNat + (stage.written ok).asking ≤ stage.asking :=
            SessionStage.written_asking hmsg
          exact hline.turn (by simp [SessionStage.written_frame hwriting])
            (le_trans (Nat.le_add_left _ _) hle)
      | @read msg hreads =>
          refine hline.turn (fun frame hframe => ?_) SessionStage.read_asking
          obtain ⟨nonce, rfl, rfl⟩ | hfollows := SessionStage.read_frame hreads hframe
          · have hsafe := (hread _ rfl).2 nonce rfl
            exact ⟨hsafe.1, fun _ _ _ _ heq => by rw [hsafe.2 _ _ _ _ heq]⟩
          · exact safeFrame_of_follows hfollows
      | shutdown =>
          refine hline.turn (fun frame hframe => ?_) (Nat.zero_le _)
          cases hframe
          trivial
  | begun hphase =>
      obtain ⟨hframe, hasking⟩ := runner_frame me hphase
      rw [hframe, hasking]
      exact hline.turn (by simp) (Nat.zero_le _)
  | outside hnot =>
      obtain ⟨hframe, hasking⟩ := runner_outside me hnot
      rw [hframe, hasking]
      exact hline.turn (by simp) (Nat.zero_le _)
  | handle _ hphase =>
      have hframe : r'.frame me = r.frame me := by simp [Runner.frame, hphase]
      have hasking : r'.asking = r.asking := by simp [Runner.asking, hphase]
      rwa [hframe, hasking]

/-- The client has finished writing a frame. -/
theorem Line.wrote {msg : ClientMsg}
    (hline : Line crates.hmac me c link (r.frame me) r.asking)
    (hmove : RunMove crates.hmac me r (.written true) r')
    (hmsg : r.frame me = some msg) :
    Line crates.hmac me c { link with toRelay := link.toRelay ++ [msg] } (r'.frame me)
      r'.asking := by
  cases hmove with
  | @session stage _ next hphase hmove =>
      obtain ⟨hframe, hasking⟩ := runner_frame me hphase
      have hnext : (r.enter next).phase = .session next.1 := rfl
      obtain ⟨hframe', hasking'⟩ := runner_frame me hnext
      cases hmove with
      | written hwriting =>
          rw [hmsg, hasking] at hline
          rw [hframe', hasking', SessionStage.written_frame hwriting]
          exact hline.send (SessionStage.written_asking (hframe.symm.trans hmsg))
  | outside _ _ hnot => exact absurd rfl (hnot true)
  | handle hlabel => simp at hlabel

end Yunpan.Tunnel
