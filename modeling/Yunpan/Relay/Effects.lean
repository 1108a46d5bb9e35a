import Yunpan.Relay.Identity

/-!
# What a step does to each part of the state

A step of the relay seen from one visitor, from one event queue, from the ports
of one session and from the table of sessions.
-/

namespace Yunpan.Relay

open Yunpan.Protocol
open Yunpan.Transition

variable {crates : Crates} {cfg : RelayConfig} {s s' : State}

/-! ## One visitor -/

/-- How a visitor advances once the source of its stream is settled. -/
inductive Stage.Next (label : Label) (v : ℕ) (nextConnId : UInt64) :
    Stage → Stage → Prop
  | close {since : ℕ} {result : TlsResult} : label = .tls v result →
      Stage.Next label v nextConnId (.tls since) (.closed none)
  | answer {since : ℕ} {block : Option (List UInt8)} {status : Option ℕ} :
      label = .head v block →
      Stage.Next label v nextConnId (.reading since) (.closed status)
  | number : label = .number v →
      Stage.Next label v nextConnId .ready (.numbered nextConnId)
  | insert {k : UInt64} : label = .insert v →
      Stage.Next label v nextConnId (.numbered k) (.sending k)
  | send {k : UInt64} : label = .send v →
      Stage.Next label v nextConnId (.sending k) (.announced k)
  | wait {k : UInt64} : label = .send v →
      Stage.Next label v nextConnId (.sending k) (.waiting k)
  | fail {k : UInt64} : label = .send v →
      Stage.Next label v nextConnId (.sending k) (.failed k)
  | failWaiting {k : UInt64} : label = .send v →
      Stage.Next label v nextConnId (.waiting k) (.failed k)
  | grant {i : ℕ} {k : UInt64} : label = .event i →
      Stage.Next label v nextConnId (.waiting k) (.granted k)
  | resume {k : UInt64} : label = .resume v →
      Stage.Next label v nextConnId (.granted k) (.announced k)
  | failGranted {k : UInt64} : label = .resume v →
      Stage.Next label v nextConnId (.granted k) (.failed k)
  | unwind {k : UInt64} : label = .unwind v →
      Stage.Next label v nextConnId (.failed k) (.refused k)

/-- What a step can do to the record of visitor `v`. -/
inductive Visitor.Move (cfg : RelayConfig) (s : State) (label : Label) (v : ℕ) :
    Option Visitor → Option Visitor → Prop
  | same {o : Option Visitor} : Visitor.Move cfg s label v o o
  | arrive {i n : ℕ} {peer : String} {l : Listener} {stage : Stage} :
      label = .arrive i n v peer → (s.conns i).listeners[n]? = some l →
        stage = .ready ∨ stage = .tls s.now →
      Visitor.Move cfg s label v none (some
        ⟨peer, .listener i n, [], some ⟨l.clientId, l.name, i⟩, stage⟩)
  | route {peer : String} {stage : Stage} : label = .route v peer →
      stage = .reading s.now ∨ stage = .tls s.now →
      Visitor.Move cfg s label v none (some ⟨peer, .router, [], none, stage⟩)
  | secured {x : Visitor} {since : ℕ} : x.stage = .tls since →
      Visitor.Move cfg s label v (some x) (some { x with
        stage := if x.origin = .router then .reading s.now else .ready })
  | dispatch {x : Visitor} {since : ℕ} {bytes : List UInt8} {seg : String}
      {session : ℕ} : label = .head v (some bytes) → x.stage = .reading since →
      routeDecision cfg s.sessions bytes = .dispatch seg session →
      Visitor.Move cfg s label v (some x) (some
        { x with head := bytes, target := some ⟨seg, "path", session⟩, stage :=
          .ready })
  | next {x : Visitor} {stage : Stage} : Stage.Next label v s.nextConnId x.stage stage →
      Visitor.Move cfg s label v (some x) (some { x with stage := stage })

theorem Visitor.Move.grant {label : Label} {i v : ℕ} (hlabel : label = .event i)
    (o : Option Visitor) : Visitor.Move cfg s label v o
    (o.map fun x => { x with stage := x.stage.grant }) := by
  cases o with
  | none => exact .same
  | some x =>
      obtain ⟨peer, origin, head, target, stage⟩ := x
      cases stage with
      | waiting k => exact .next (.grant hlabel)
      | _ => exact .same

/-- A step that writes one visitor. -/
theorem move_of_update {label : Label} {v w : ℕ} {o : Option Visitor}
    (hvisitors : s'.visitors = Function.update s.visitors v o)
    (hmove : Visitor.Move cfg s label v (s.visitors v) o) :
    Visitor.Move cfg s label w (s.visitors w) (s'.visitors w) := by
  rw [hvisitors]
  by_cases hw : w = v
  · subst hw
    simpa using hmove
  · simpa [hw] using Visitor.Move.same

/-- A step that advances one visitor. -/
theorem move_of_stage {label : Label} {v w : ℕ} {x : Visitor} (stage : Stage)
    (hx : s.visitors v = some x)
    (hvisitors : s'.visitors =
      Function.update s.visitors v (some { x with stage := stage }))
    (hnext : Stage.Next label v s.nextConnId x.stage stage) :
    Visitor.Move cfg s label w (s.visitors w) (s'.visitors w) :=
  move_of_update hvisitors (hx ▸ .next hnext)

theorem move_of_visitors_eq {label : Label} (h : s'.visitors = s.visitors) (w : ℕ) :
    Visitor.Move cfg s label w (s.visitors w) (s'.visitors w) := by
  rw [h]
  exact .same

theorem step_visitor {label : Label} (h : s.step crates cfg label = some s')
    (w : ℕ) : Visitor.Move cfg s label w (s.visitors w) (s'.visitors w) := by
  cases label with
  | advance ms => cases h; exact .same
  | sweep => cases h; exact .same
  | conn i action =>
      obtain ⟨c, -, rfl⟩ := conn_cases h
      exact .same
  | kick i =>
      obtain ⟨clientId, -, ⟨-, rfl⟩ | ⟨old, -, rfl⟩⟩ := kick_cases h
      · exact .same
      · exact move_of_visitors_eq (by simp) w
  | signal i =>
      obtain ⟨clientId, old, -, rfl⟩ := signal_cases h
      exact .same
  | waited i =>
      obtain ⟨clientId, old, deadline, -, -, rfl⟩ := waited_cases h
      exact move_of_visitors_eq (by simp) w
  | register i =>
      obtain ⟨clientId, -, -, rfl⟩ := register_cases h
      exact move_of_visitors_eq (by simp) w
  | unregister i =>
      obtain ⟨clientId, -, rfl⟩ := unregister_cases h
      exact move_of_visitors_eq (by simp) w
  | event i =>
      obtain ⟨clientId, msg, queue, -, -, ⟨-, rfl⟩ | ⟨v, waiters, -, rfl⟩⟩ :=
        event_cases h
      · exact .same
      · exact move_of_update (v := v) (by simp) (.grant rfl _)
  | bound i osOk =>
      obtain ⟨clientId, name, port, -, ⟨-, -, -, rfl⟩ | ⟨reason, -, rfl⟩⟩ :=
        bound_cases h
      · exact .same
      · exact .same
  | arrive i n v peer =>
      obtain ⟨l, hl, -, hnew, rfl⟩ := arrive_cases h
      refine move_of_update (v := v) rfl (hnew ▸ .arrive rfl hl ?_)
      by_cases htls : cfg.maybeVisitorTls <;> simp [htls]
  | retire i n =>
      obtain ⟨l, -, -, -, rfl⟩ := retire_cases h
      exact move_of_visitors_eq (by simp) w
  | route v peer =>
      obtain ⟨hnew, -, rfl⟩ := route_cases h
      refine move_of_update (v := v) rfl (hnew ▸ .route rfl ?_)
      by_cases htls : cfg.maybeVisitorTls <;> simp [htls]
  | tls v result =>
      obtain ⟨x, since, hx, hstage, ⟨-, rfl⟩ | ⟨-, rfl⟩⟩ := tls_cases h
      · exact move_of_update (v := v) rfl (hx ▸ .secured hstage)
      · exact move_of_stage (.closed none) hx (by simp) (hstage ▸ .close rfl)
  | head v block =>
      obtain ⟨x, since, hx, hstage,
        ⟨status, -, rfl⟩ | ⟨bytes, seg, session, rfl, hroute, rfl⟩⟩ := head_cases h
      · exact move_of_stage (.closed status) hx rfl (hstage ▸ .answer rfl)
      · exact move_of_update (v := v) rfl (hx ▸ .dispatch rfl hstage hroute)
  | number v =>
      obtain ⟨x, hx, hstage, rfl⟩ := number_cases h
      exact move_of_stage (.numbered s.nextConnId) hx rfl (hstage ▸ .number rfl)
  | insert v =>
      obtain ⟨x, k, target, hx, hstage, -, rfl⟩ := insert_cases h
      exact move_of_stage (.sending k) hx rfl (hstage ▸ .insert rfl)
  | send v =>
      obtain ⟨x, k, target, hx, -,
        ⟨hstage, -, rfl⟩ | ⟨hstage, -, -, rfl⟩ | ⟨hstage, -, -, rfl⟩⟩ := send_cases h
      · refine move_of_stage (.failed k) hx rfl ?_
        rcases hstage with hstage | hstage
        · exact hstage ▸ .fail rfl
        · exact hstage ▸ .failWaiting rfl
      · exact move_of_stage (.announced k) hx (by simp) (hstage ▸ .send rfl)
      · exact move_of_stage (.waiting k) hx rfl (hstage ▸ .wait rfl)
  | resume v =>
      obtain ⟨x, k, target, hx, -, hstage, ⟨-, rfl⟩ | ⟨-, rfl⟩⟩ := resume_cases h
      · exact move_of_stage (.failed k) hx rfl (hstage ▸ .failGranted rfl)
      · exact move_of_stage (.announced k) hx (by simp) (hstage ▸ .resume rfl)
  | unwind v =>
      obtain ⟨x, k, hx, hstage, rfl⟩ := unwind_cases h
      exact move_of_stage (.refused k) hx (by simp) (hstage ▸ .unwind rfl)
  | splice i =>
      obtain ⟨clientId, connId, -, ⟨-, rfl⟩ | ⟨p, -, ⟨-, rfl⟩ | ⟨-, rfl⟩⟩⟩ :=
        splice_cases h
      all_goals exact .same

/-! ## The table of sessions -/

theorem step_sessions {label : Label} (h : s.step crates cfg label = some s')
    (clientId : String) :
    s'.sessions clientId = s.sessions clientId ∨ s'.sessions clientId = none ∨
      ∃ i, label = .register i ∧
        (s.conns i).phase = .control clientId .register ∧
        s'.sessions clientId = some i := by
  have hclear : ∀ owner, Function.update s.sessions owner none clientId =
      s.sessions clientId ∨
      Function.update s.sessions owner none clientId = none := by
    intro owner
    by_cases howner : clientId = owner <;> simp [howner]
  cases label with
  | advance ms => cases h; exact Or.inl rfl
  | sweep => cases h; exact Or.inl rfl
  | conn i action =>
      obtain ⟨c, -, rfl⟩ := conn_cases h
      exact Or.inl rfl
  | kick i =>
      obtain ⟨owner, -, ⟨-, rfl⟩ | ⟨old, -, rfl⟩⟩ := kick_cases h
      · exact Or.inl rfl
      · exact (hclear owner).imp_right Or.inl
  | signal i =>
      obtain ⟨owner, old, -, rfl⟩ := signal_cases h
      exact Or.inl rfl
  | waited i =>
      obtain ⟨owner, old, deadline, -, -, rfl⟩ := waited_cases h
      exact Or.inl (by simp)
  | register i =>
      obtain ⟨owner, hphase, -, rfl⟩ := register_cases h
      by_cases howner : clientId = owner
      · subst howner
        exact Or.inr (Or.inr ⟨i, rfl, hphase, by simp⟩)
      · exact Or.inl (by simp [howner])
  | unregister i =>
      obtain ⟨owner, -, rfl⟩ := unregister_cases h
      exact (hclear owner).imp_right Or.inl
  | event i =>
      obtain ⟨owner, msg, queue, -, -, ⟨-, rfl⟩ | ⟨v, waiters, -, rfl⟩⟩ :=
        event_cases h
      all_goals exact Or.inl rfl
  | bound i osOk =>
      obtain ⟨owner, name, port, -, ⟨-, -, -, rfl⟩ | ⟨reason, -, rfl⟩⟩ :=
        bound_cases h
      all_goals exact Or.inl rfl
  | arrive i n v peer =>
      obtain ⟨l, -, -, -, rfl⟩ := arrive_cases h
      exact Or.inl rfl
  | retire i n =>
      obtain ⟨l, -, -, -, rfl⟩ := retire_cases h
      exact Or.inl (by simp)
  | route v peer =>
      obtain ⟨-, -, rfl⟩ := route_cases h
      exact Or.inl rfl
  | tls v result =>
      obtain ⟨x, since, -, -, ⟨-, rfl⟩ | ⟨-, rfl⟩⟩ := tls_cases h
      all_goals exact Or.inl (by simp)
  | head v block =>
      obtain ⟨x, since, -, -, ⟨status, -, rfl⟩ | ⟨bytes, seg, session, -, -, rfl⟩⟩ :=
        head_cases h
      all_goals exact Or.inl rfl
  | number v =>
      obtain ⟨x, -, -, rfl⟩ := number_cases h
      exact Or.inl rfl
  | insert v =>
      obtain ⟨x, k, target, -, -, -, rfl⟩ := insert_cases h
      exact Or.inl rfl
  | send v =>
      obtain ⟨x, k, target, -, -, ⟨-, -, rfl⟩ | ⟨-, -, -, rfl⟩ | ⟨-, -, -, rfl⟩⟩ :=
        send_cases h
      all_goals exact Or.inl (by simp)
  | resume v =>
      obtain ⟨x, k, target, -, -, -, ⟨-, rfl⟩ | ⟨-, rfl⟩⟩ := resume_cases h
      all_goals exact Or.inl (by simp)
  | unwind v =>
      obtain ⟨x, k, -, -, rfl⟩ := unwind_cases h
      exact Or.inl (by simp)
  | splice i =>
      obtain ⟨owner, connId, -, ⟨-, rfl⟩ | ⟨p, -, ⟨-, rfl⟩ | ⟨-, rfl⟩⟩⟩ :=
        splice_cases h
      all_goals exact Or.inl rfl

/-! ## The pairing table -/

/-- The labels of steps on the table of waiting visitors and its counter. -/
def Label.onTable : Label → Bool
  | .sweep => true
  | .number _ => true
  | .insert _ => true
  | .unwind _ => true
  | .splice _ => true
  | _ => false

theorem step_table {label : Label} (h : s.step crates cfg label = some s')
    (hlabel : label.onTable = false) :
    s'.pending = s.pending ∧ s'.nextConnId = s.nextConnId ∧
      s'.numbered = s.numbered := by
  cases label with
  | advance ms => cases h; exact ⟨rfl, rfl, rfl⟩
  | sweep => cases hlabel
  | conn i action =>
      obtain ⟨c, -, rfl⟩ := conn_cases h
      exact ⟨rfl, rfl, rfl⟩
  | kick i =>
      obtain ⟨owner, -, ⟨-, rfl⟩ | ⟨old, -, rfl⟩⟩ := kick_cases h
      all_goals simp
  | signal i =>
      obtain ⟨owner, old, -, rfl⟩ := signal_cases h
      exact ⟨rfl, rfl, rfl⟩
  | waited i =>
      obtain ⟨owner, old, deadline, -, -, rfl⟩ := waited_cases h
      simp
  | register i =>
      obtain ⟨owner, hphase, -, rfl⟩ := register_cases h
      simp
  | unregister i =>
      obtain ⟨owner, -, rfl⟩ := unregister_cases h
      simp
  | event i =>
      obtain ⟨owner, msg, queue, -, -, ⟨-, rfl⟩ | ⟨v, waiters, -, rfl⟩⟩ :=
        event_cases h
      all_goals exact ⟨rfl, rfl, rfl⟩
  | bound i osOk =>
      obtain ⟨owner, name, port, -, ⟨-, -, -, rfl⟩ | ⟨reason, -, rfl⟩⟩ :=
        bound_cases h
      all_goals exact ⟨rfl, rfl, rfl⟩
  | arrive i n v peer =>
      obtain ⟨l, -, -, -, rfl⟩ := arrive_cases h
      exact ⟨rfl, rfl, rfl⟩
  | retire i n =>
      obtain ⟨l, -, -, -, rfl⟩ := retire_cases h
      simp
  | route v peer =>
      obtain ⟨-, -, rfl⟩ := route_cases h
      exact ⟨rfl, rfl, rfl⟩
  | tls v result =>
      obtain ⟨x, since, -, -, ⟨-, rfl⟩ | ⟨-, rfl⟩⟩ := tls_cases h
      all_goals simp
  | head v block =>
      obtain ⟨x, since, -, -, ⟨status, -, rfl⟩ | ⟨bytes, seg, session, -, -, rfl⟩⟩ :=
        head_cases h
      all_goals exact ⟨rfl, rfl, rfl⟩
  | number v => cases hlabel
  | insert v => cases hlabel
  | send v =>
      obtain ⟨x, k, target, -, -, ⟨-, -, rfl⟩ | ⟨-, -, -, rfl⟩ | ⟨-, -, -, rfl⟩⟩ :=
        send_cases h
      all_goals simp
  | resume v =>
      obtain ⟨x, k, target, -, -, -, ⟨-, rfl⟩ | ⟨-, rfl⟩⟩ := resume_cases h
      all_goals simp
  | unwind v => cases hlabel
  | splice i => cases hlabel

/-! ## The channels and ports of one session -/

/-- What a listener was opened for. -/
def Listener.opened (l : Listener) : String × String × UInt16 :=
  (l.clientId, l.name, l.port)

/-- A step leaves a session's ports alone, apart from what its listeners do. -/
def Conn.SamePorts (c c' : Conn) : Prop :=
  c'.listeners.map Listener.opened = c.listeners.map Listener.opened

/-- How the event channel and the ports of session `j` can change in one step. -/
inductive Conn.Flow (cfg : RelayConfig) (s : State) (label : Label) (j : ℕ)
    (c c' : Conn) : Prop
  | same : c'.queue = c.queue ∧ c'.granted = c.granted ∧ c'.waiters = c.waiters ∧
      c.SamePorts c' → Conn.Flow cfg s label j c c'
  | taken (msg : ServerMsg) : label = .event j →
      c.queue = msg :: c'.queue ∧ c'.granted = c.granted ∧ c.waiters = [] ∧
        c'.waiters = [] ∧ c'.listeners = c.listeners → Conn.Flow cfg s label j c c'
  | handed (msg : ServerMsg) (v : ℕ) : label = .event j →
      c.queue = msg :: c'.queue ∧ c'.granted = v :: c.granted ∧
        c.waiters = v :: c'.waiters ∧ c'.listeners = c.listeners →
      Conn.Flow cfg s label j c c'
  | sent {v : ℕ} {x : Visitor} {target : Target} {k : UInt64} : label = .send v →
      s.visitors v = some x → x.target = some target → target.session = j →
      x.stage = .sending k → 0 < c.room →
      c'.queue = c.queue ++ [x.notice target k] ∧ c'.granted = c.granted ∧
        c'.waiters = c.waiters ∧ c.SamePorts c' → Conn.Flow cfg s label j c c'
  | parked {v : ℕ} {x : Visitor} {target : Target} {k : UInt64} : label = .send v →
      s.visitors v = some x → x.target = some target → target.session = j →
      x.stage = .sending k → c.room = 0 →
      c'.queue = c.queue ∧ c'.granted = c.granted ∧
        c'.waiters = c.waiters ++ [v] ∧ c.SamePorts c' →
      Conn.Flow cfg s label j c c'
  | resumed {v : ℕ} {x : Visitor} {target : Target} {k : UInt64} :
      label = .resume v → s.visitors v = some x → x.target = some target →
      target.session = j → x.stage = .granted k →
      c'.queue = (if c.returned then c.queue else c.queue ++ [x.notice target k]) ∧
        c'.granted = c.granted.erase v ∧ c'.waiters = c.waiters ∧ c.SamePorts c' →
      Conn.Flow cfg s label j c c'
  | opened {clientId name : String} {port : UInt16} {osOk : Bool} :
      label = .bound j osOk → c.phase = .control clientId (.bind name port) →
      cfg.allowed clientId port = true →
      c'.queue = c.queue ∧ c'.granted = c.granted ∧ c'.waiters = c.waiters ∧
        c'.listeners = c.listeners ++ [⟨clientId, name, port, .accepting⟩] →
      Conn.Flow cfg s label j c c'

theorem Conn.Flow.refl {label : Label} {j : ℕ} (c : Conn) :
    Conn.Flow cfg s label j c c :=
  .same ⟨rfl, rfl, rfl, rfl⟩

theorem opened_modify (listeners : List Listener) (n : ℕ) (state : ListenerState) :
    (listeners.modify n fun l => { l with state := state }).map Listener.opened =
      listeners.map Listener.opened := by
  induction listeners generalizing n with
  | nil => simp
  | cons l listeners ih =>
      cases n with
      | zero => simp [Listener.opened]
      | succ n => simp [ih]

theorem opened_touch (origin : Origin) (alive : Bool) (j : ℕ)
    (listeners : List Listener) :
    (origin.touch alive j listeners).map Listener.opened =
      listeners.map Listener.opened := by
  cases origin with
  | router => rfl
  | listener i n =>
      by_cases hj : j = i <;> simp [Origin.touch, hj, opened_modify]

theorem step_flow {label : Label} (h : s.step crates cfg label = some s') (j : ℕ) :
    Conn.Flow cfg s label j (s.conns j) (s'.conns j) := by
  cases label with
  | advance ms => cases h; exact .refl _
  | sweep => cases h; exact .refl _
  | conn i action =>
      obtain ⟨c, hact, rfl⟩ := conn_cases h
      by_cases hj : j = i
      · subst hj
        have hsame := act_channels hact
        rw [setConn_conns_self]
        exact .same ⟨hsame.queue, hsame.granted, hsame.waiters,
          congrArg _ hsame.listeners⟩
      · rw [setConn_conns_ne s c hj]
        exact .refl _
  | kick i =>
      obtain ⟨clientId, -, ⟨-, rfl⟩ | ⟨old, -, rfl⟩⟩ := kick_cases h
      all_goals
        by_cases hj : j = i <;>
          exact .same (by simp [hj, moveHandle_conns, Conn.SamePorts])
  | signal i =>
      obtain ⟨clientId, old, -, rfl⟩ := signal_cases h
      refine .same ?_
      simp only [State.setConn_conns, Function.update_apply, Conn.SamePorts]
      split <;> split <;> simp_all
  | waited i =>
      obtain ⟨clientId, old, deadline, -, -, rfl⟩ := waited_cases h
      by_cases hj : j = i <;>
        exact .same (by simp [hj, moveHandle_conns, Conn.SamePorts])
  | register i =>
      obtain ⟨clientId, -, -, rfl⟩ := register_cases h
      by_cases hj : j = i <;>
        exact .same (by simp [hj, moveHandle_conns, Conn.SamePorts])
  | unregister i =>
      obtain ⟨clientId, -, rfl⟩ := unregister_cases h
      by_cases hj : j = i <;>
        exact .same (by simp [hj, moveHandle_conns, Conn.SamePorts])
  | event i =>
      obtain ⟨clientId, msg, queue, -, hqueue, hcases⟩ := event_cases h
      by_cases hj : j = i
      · subst hj
        obtain ⟨hnil, rfl⟩ | ⟨v, waiters, hwaiters, rfl⟩ := hcases
        · exact .taken msg rfl (by simp [hqueue, hnil])
        · exact .handed msg v rfl (by simp [hqueue, hwaiters])
      · obtain ⟨-, rfl⟩ | ⟨v, waiters, -, rfl⟩ := hcases
        all_goals exact .same (by simp [hj, Conn.SamePorts])
  | bound i osOk =>
      obtain ⟨clientId, name, port, hphase, ⟨hallowed, -, -, rfl⟩ | ⟨reason, -, rfl⟩⟩ :=
        bound_cases h
      · by_cases hj : j = i
        · subst hj
          exact .opened rfl hphase hallowed (by simp)
        · exact .same (by simp [hj, Conn.SamePorts])
      · by_cases hj : j = i <;> exact .same (by simp [hj, Conn.SamePorts])
  | arrive i n v peer =>
      obtain ⟨l, -, -, -, rfl⟩ := arrive_cases h
      by_cases hj : j = i <;>
        exact .same (by simp [setListener_conns, hj, opened_modify, Conn.SamePorts])
  | retire i n =>
      obtain ⟨l, -, -, -, rfl⟩ := retire_cases h
      by_cases hj : j = i <;> exact .same (by
        simp [endListener_conns, setListener_conns, hj, opened_modify, Conn.SamePorts])
  | route v peer =>
      obtain ⟨-, -, rfl⟩ := route_cases h
      exact .refl _
  | tls v result =>
      obtain ⟨x, since, -, -, ⟨-, rfl⟩ | ⟨-, rfl⟩⟩ := tls_cases h
      · exact .refl _
      · exact .same (by simp [release_conns, opened_touch, Conn.SamePorts])
  | head v block =>
      obtain ⟨x, since, -, -, ⟨status, -, rfl⟩ | ⟨bytes, seg, session, -, -, rfl⟩⟩ :=
        head_cases h
      all_goals exact .refl _
  | number v =>
      obtain ⟨x, -, -, rfl⟩ := number_cases h
      exact .refl _
  | insert v =>
      obtain ⟨x, k, target, -, -, -, rfl⟩ := insert_cases h
      exact .refl _
  | send v =>
      obtain ⟨x, k, target, hx, htarget, hcases⟩ := send_cases h
      by_cases hj : j = target.session
      · subst hj
        obtain ⟨-, -, rfl⟩ | ⟨hstage, -, hroom, rfl⟩ | ⟨hstage, -, hroom, rfl⟩ := hcases
        · exact .refl _
        · exact .sent rfl hx htarget rfl hstage hroom
            (by simp [release_conns, opened_touch, Conn.SamePorts])
        · exact .parked rfl hx htarget rfl hstage hroom (by simp [Conn.SamePorts])
      · obtain ⟨-, -, rfl⟩ | ⟨-, -, -, rfl⟩ | ⟨-, -, -, rfl⟩ := hcases
        · exact .refl _
        · exact .same (by simp [release_conns, opened_touch, hj, Conn.SamePorts])
        · exact .same (by simp [hj, Conn.SamePorts])
  | resume v =>
      obtain ⟨x, k, target, hx, htarget, hstage, ⟨hret, rfl⟩ | ⟨hret, rfl⟩⟩ :=
        resume_cases h
      all_goals
        by_cases hj : j = target.session
        case neg =>
          exact .same (by simp [release_conns, opened_touch, hj, Conn.SamePorts])
        subst hj
        exact .resumed rfl hx htarget rfl hstage
          (by simp [release_conns, opened_touch, Conn.SamePorts, hret])
  | unwind v =>
      obtain ⟨x, k, -, -, rfl⟩ := unwind_cases h
      exact .same (by simp [release_conns, opened_touch, Conn.SamePorts])
  | splice i =>
      obtain ⟨clientId, connId, -, ⟨-, rfl⟩ | ⟨p, -, ⟨-, rfl⟩ | ⟨-, rfl⟩⟩⟩ :=
        splice_cases h
      all_goals
        by_cases hj : j = i <;> exact .same (by simp [hj, Conn.SamePorts])

/-- Apart from a new listener at the end, a session's ports stay what they were
opened for. -/
theorem Conn.Flow.ports {label : Label} {j : ℕ} {c c' : Conn}
    (h : Conn.Flow cfg s label j c c') :
    c.SamePorts c' ∨ ∃ osOk clientId name port, label = .bound j osOk ∧
      c.phase = .control clientId (.bind name port) ∧
      cfg.allowed clientId port = true ∧
      c'.listeners = c.listeners ++ [⟨clientId, name, port, .accepting⟩] := by
  cases h with
  | same h => exact Or.inl h.2.2.2
  | taken _ _ h => exact Or.inl (congrArg _ h.2.2.2.2)
  | handed _ _ _ h => exact Or.inl (congrArg _ h.2.2.2)
  | sent _ _ _ _ _ _ h => exact Or.inl h.2.2.2
  | parked _ _ _ _ _ _ h => exact Or.inl h.2.2.2
  | resumed _ _ _ _ _ h => exact Or.inl h.2.2.2
  | opened hlabel hphase hallowed h =>
      exact Or.inr ⟨_, _, _, _, hlabel, hphase, hallowed, h.2.2.2⟩

/-- Only the outcome of a request for a port adds a listener. -/
theorem Conn.Flow.length {label : Label} {j : ℕ} {c c' : Conn}
    (h : Conn.Flow cfg s label j c c') (hlabel : ∀ osOk, label ≠ .bound j osOk) :
    c'.listeners.length = c.listeners.length := by
  have hsame : c.SamePorts c' → c'.listeners.length = c.listeners.length :=
    fun hports =>
    by simpa using congrArg List.length hports
  cases h with
  | same h => exact hsame h.2.2.2
  | taken _ _ h => exact congrArg _ h.2.2.2.2
  | handed _ _ _ h => exact congrArg _ h.2.2.2
  | sent _ _ _ _ _ _ h => exact hsame h.2.2.2
  | parked _ _ _ _ _ _ h => exact hsame h.2.2.2
  | resumed _ _ _ _ _ h => exact hsame h.2.2.2
  | opened heq => exact absurd heq (hlabel _)

/-- A message in the queue was there before, or is the notice of a visitor that
was sent or resumed. -/
theorem Conn.Flow.queue_old {label : Label} {j : ℕ} {c c' : Conn} {msg : ServerMsg}
    (h : Conn.Flow cfg s label j c c') (hmsg : msg ∈ c'.queue) :
    msg ∈ c.queue ∨ ∃ v x target k, s.visitors v = some x ∧
      x.target = some target ∧ target.session = j ∧ x.connId? = some k ∧
      msg = x.notice target k := by
  cases h with
  | same h => exact Or.inl (h.1 ▸ hmsg)
  | taken m _ h => exact Or.inl (h.1 ▸ List.mem_cons_of_mem _ hmsg)
  | handed m v _ h => exact Or.inl (h.1 ▸ List.mem_cons_of_mem _ hmsg)
  | @sent v x target k _ hx htarget hsession hstage _ h =>
      rw [h.1] at hmsg
      rcases List.mem_append.mp hmsg with hold | hnew
      · exact Or.inl hold
      · exact Or.inr ⟨v, x, target, k, hx, htarget, hsession,
          by simp [Visitor.connId?, hstage], List.mem_singleton.mp hnew⟩
  | parked _ _ _ _ _ _ h => exact Or.inl (h.1 ▸ hmsg)
  | @resumed v x target k _ hx htarget hsession hstage h =>
      rw [h.1] at hmsg
      split at hmsg
      case isTrue => exact Or.inl hmsg
      case isFalse =>
        rcases List.mem_append.mp hmsg with hold | hnew
        · exact Or.inl hold
        · exact Or.inr ⟨v, x, target, k, hx, htarget, hsession,
            by simp [Visitor.connId?, hstage], List.mem_singleton.mp hnew⟩
  | opened _ _ _ h => exact Or.inl (h.1 ▸ hmsg)

/-- A listener task keeps its place and what it was opened for. -/
theorem Conn.Flow.listener_kept {label : Label} {j n : ℕ} {c c' : Conn} {l : Listener}
    (h : Conn.Flow cfg s label j c c') (hl : c.listeners[n]? = some l) :
    ∃ l', c'.listeners[n]? = some l' ∧ l'.opened = l.opened := by
  obtain hsame | ⟨osOk, clientId, name, port, -, -, -, heq⟩ := h.ports
  · have hn := congrArg (fun ls => ls[n]?) hsame
    simpa [List.getElem?_map, hl] using hn
  · have hlt : n < c.listeners.length := (List.getElem?_eq_some_iff.mp hl).1
    exact ⟨l, by rw [heq, List.getElem?_append_left hlt, hl], rfl⟩

/-- A listener task was there before or has just been opened. -/
theorem Conn.Flow.listener_old {label : Label} {j : ℕ} {c c' : Conn} {l : Listener}
    (h : Conn.Flow cfg s label j c c') (hl : l ∈ c'.listeners) :
    (∃ l' ∈ c.listeners, l'.opened = l.opened) ∨
      (∃ osOk, label = .bound j osOk) ∧
        c.phase = .control l.clientId (.bind l.name l.port) ∧
        cfg.allowed l.clientId l.port = true := by
  obtain hsame | ⟨osOk, clientId, name, port, hlabel, hphase, hallowed, heq⟩ := h.ports
  · have hmem : l.opened ∈ c'.listeners.map Listener.opened :=
      List.mem_map_of_mem hl
    rw [show c'.listeners.map Listener.opened = _ from hsame] at hmem
    exact Or.inl (List.mem_map.mp hmem)
  · rw [heq] at hl
    rcases List.mem_append.mp hl with hold | hnew
    · exact Or.inl ⟨l, hold, rfl⟩
    · obtain rfl := List.mem_singleton.mp hnew
      exact Or.inr ⟨⟨osOk, hlabel⟩, hphase, hallowed⟩

end Yunpan.Relay
