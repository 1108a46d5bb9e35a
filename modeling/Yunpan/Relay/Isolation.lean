import Mathlib.Algebra.Group.Nat.Defs
import Yunpan.Relay.Effects
import Yunpan.Core.PairingTable
import Yunpan.Protocol.Sha256

/-!
# Whose visitor it is

A visitor is tied to a client by the port or the path it arrived on.  This
module follows that tie through the four tasks that handle the visitor: its
entry in the pairing table, the session it is announced to and the data
connection that receives it.  The table itself is an instance of
`PairingTable`; what is proved here is that the relay keeps to it.
-/

namespace Yunpan.Relay

open Yunpan.Protocol
open Yunpan.Transition

variable {crates : Crates} {cfg : RelayConfig} {s s' : State}

/-! ## Addresses -/

/-- What the record of one visitor says about its client. -/
structure Visitor.Addressed (x : Visitor) : Prop where
  undecided : x.target = none → x.origin = .router ∧
    ((∃ since, x.stage = .tls since) ∨ (∃ since, x.stage = .reading since) ∨
      ∃ status, x.stage = .closed status)
  reading : ∀ {since}, x.stage = .reading since → x.target = none
  routed : ∀ {since}, x.origin = .router → x.stage = .tls since → x.target = none
  path : ∀ {target}, x.origin = .router → x.target = some target →
    firstPathSegment x.head = some target.clientId

/-- A visitor on its way into the pairing table has a client. -/
theorem Visitor.Addressed.decided {x : Visitor} (h : x.Addressed)
    (hstage : ¬((∃ since, x.stage = .tls since) ∨ (∃ since, x.stage = .reading since) ∨
      ∃ status, x.stage = .closed status)) : ∃ target, x.target = some target := by
  cases htarget : x.target with
  | none => exact absurd (h.undecided htarget).2 hstage
  | some target => exact ⟨target, rfl⟩

theorem Visitor.Addressed.next {label : Label} {v : ℕ} {x : Visitor}
    {stage : Stage} {k : UInt64}
    (h : x.Addressed) (hnext : Stage.Next label v k x.stage stage) :
    Visitor.Addressed { x with stage := stage } := by
  obtain ⟨peer, origin, head, target, before⟩ := x
  constructor
  · intro htarget
    obtain ⟨horigin, hstage⟩ := h.undecided htarget
    refine ⟨horigin, ?_⟩
    obtain ⟨since, rfl⟩ | ⟨since, rfl⟩ | ⟨status, rfl⟩ := hstage <;>
      cases hnext <;> simp
  · rintro since rfl
    cases hnext
  · rintro since - rfl
    cases hnext
  · exact h.path

theorem Visitor.Addressed.move {label : Label} {v : ℕ} {o : Option Visitor}
    {x : Visitor}
    (h : ∀ y, o = some y → y.Addressed)
    (hmove : Visitor.Move cfg s label v o (some x)) :
    x.Addressed := by
  generalize hx : some x = o' at hmove
  cases hmove with
  | same => exact h x hx.symm
  | @arrive i n peer l stage _ hl hstage =>
      cases hx
      constructor <;> rcases hstage with rfl | rfl <;> simp
  | @route peer stage _ hstage =>
      cases hx
      constructor <;> rcases hstage with rfl | rfl <;> simp
  | @secured y since hstage =>
      cases hx
      have hy := h y rfl
      by_cases horigin : y.origin = .router
      · have htarget := hy.routed horigin hstage
        constructor <;> simp [horigin, htarget]
      · constructor
        · exact fun htarget => absurd (hy.undecided htarget).1 horigin
        · simp [horigin]
        · simp [horigin]
        · exact hy.path
  | @dispatch y since bytes seg session _ hstage hroute =>
      cases hx
      have hseg := (routeDecision_dispatch hroute).1
      constructor <;> simp [hseg]
  | @next y stage hnext =>
      cases hx
      exact (h y rfl).next hnext

/-- What the shared state says about clients: ports, table entries and notices
belong to the session that was accepted as their client. -/
structure State.Addressed (cfg : RelayConfig) (s : State) : Prop where
  visitor : ∀ {v x}, s.visitors v = some x → x.Addressed
  session : ∀ {clientId i}, s.sessions clientId = some i →
    (s.conns i).role? = some (.control clientId)
  listener : ∀ {i l}, l ∈ (s.conns i).listeners →
    (s.conns i).role? = some (.control l.clientId) ∧
      cfg.allowed l.clientId l.port = true
  target : ∀ {v x target}, s.visitors v = some x → x.target = some target →
    (s.conns target.session).role? = some (.control target.clientId)
  arrived : ∀ {v x i n}, s.visitors v = some x → x.origin = .listener i n →
    ∃ l, (s.conns i).listeners[n]? = some l ∧
      x.target = some ⟨l.clientId, l.name, i⟩
  notice : ∀ {i k name peer}, .newConn k name peer ∈ (s.conns i).queue →
    ∃ v x target, s.visitors v = some x ∧ x.target = some target ∧
      target.session = i ∧ x.connId? = some k
  counter : s.nextConnId = UInt64.ofNat (s.numbered + 1)

theorem addressed_init : State.init.Addressed cfg := by
  constructor <;> simp [State.init, Conn.fresh]

/-- A visitor keeps its target, its origin and the number it was given. -/
theorem Visitor.Move.kept {label : Label} {v : ℕ} {x : Visitor}
    {o : Option Visitor} (hmove : Visitor.Move cfg s label v (some x) o)
    (hx : x.Addressed) :
    ∃ y, o = some y ∧ y.origin = x.origin ∧
      (∀ target, x.target = some target → y.target = some target) ∧
      ∀ k, x.connId? = some k → y.connId? = some k := by
  generalize hold : some x = before at hmove
  cases hmove with
  | same => exact ⟨x, hold.symm, rfl, fun _ h => h, fun _ h => h⟩
  | arrive => cases hold
  | route => cases hold
  | secured hstage =>
      cases hold
      refine ⟨_, rfl, rfl, fun _ h => h, fun k hk => ?_⟩
      simp [Visitor.connId?, hstage] at hk
  | dispatch _ hstage =>
      cases hold
      refine ⟨_, rfl, rfl, fun target htarget => ?_, fun k hk => ?_⟩
      · rw [hx.reading hstage] at htarget
        cases htarget
      · simp [Visitor.connId?, hstage] at hk
  | next hnext =>
      cases hold
      refine ⟨_, rfl, rfl, fun _ h => h, fun k hk => ?_⟩
      obtain ⟨peer, origin, head, target, before⟩ := x
      cases hnext <;> simp_all [Visitor.connId?]

theorem step_counter {label : Label} (h : s.step crates cfg label = some s')
    (hcounter : s.nextConnId = UInt64.ofNat (s.numbered + 1)) :
    s'.nextConnId = UInt64.ofNat (s'.numbered + 1) := by
  cases hlabel : label.onTable with
  | false =>
      obtain ⟨-, hnext, hnumbered⟩ := step_table h hlabel
      rw [hnext, hnumbered, hcounter]
  | true =>
      cases label with
      | sweep => cases h; exact hcounter
      | number v =>
          obtain ⟨x, -, -, rfl⟩ := number_cases h
          simp [hcounter]
      | insert v =>
          obtain ⟨x, k, target, -, -, -, rfl⟩ := insert_cases h
          exact hcounter
      | unwind v =>
          obtain ⟨x, k, -, -, rfl⟩ := unwind_cases h
          simpa using hcounter
      | splice i =>
          obtain ⟨owner, connId, -, ⟨-, rfl⟩ | ⟨p, -, ⟨-, rfl⟩ | ⟨-, rfl⟩⟩⟩ :=
            splice_cases h
          all_goals exact hcounter
      | _ => cases hlabel

theorem State.Addressed.step (hs : s.Addressed cfg)
    (hgenuine : ∀ i, (s.conns i).Genuine crates cfg) {label : Label}
    (hstep : s.step crates cfg label = some s') : s'.Addressed cfg := by
  have hrole : ∀ {i role}, (s.conns i).role? = some role →
      (s'.conns i).role? = some role :=
    fun hr => (hgenuine _).role_kept (step_stride hstep _) hr
  have hkept : ∀ {v x}, s.visitors v = some x →
      ∃ y, s'.visitors v = some y ∧ y.origin = x.origin ∧
        (∀ target, x.target = some target → y.target = some target) ∧
        ∀ k, x.connId? = some k → y.connId? = some k := by
    intro v x hx
    exact Visitor.Move.kept (hx ▸ step_visitor hstep v) (hs.visitor hx)
  constructor
  · intro v x hx
    exact Visitor.Addressed.move (fun y hy => hs.visitor hy)
      (hx ▸ step_visitor hstep v)
  · intro clientId i hi
    rcases step_sessions hstep clientId with heq | hnone | ⟨j, -, hphase, hj⟩
    · exact hrole (hs.session (heq ▸ hi))
    · rw [hnone] at hi
      cases hi
    · rw [hj] at hi
      cases hi
      exact hrole ((hgenuine _).control hphase).1
  · intro i l hl
    rcases (step_flow hstep i).listener_old hl with
      ⟨l', hl', heq⟩ | ⟨-, hphase, hallowed⟩
    · obtain ⟨hold, hallowed⟩ := hs.listener hl'
      simp only [Listener.opened, Prod.mk.injEq] at heq
      rw [← heq.1, ← heq.2.2]
      exact ⟨hrole hold, hallowed⟩
    · exact ⟨hrole ((hgenuine _).control hphase).1, hallowed⟩
  · intro v x target hx htarget
    have hmove := step_visitor hstep v
    rw [hx] at hmove
    generalize hold : s.visitors v = before at hmove
    apply hrole
    cases hmove with
    | same => exact hs.target hold htarget
    | arrive _ hl =>
        cases htarget
        exact (hs.listener (List.mem_of_getElem? hl)).1
    | route => cases htarget
    | secured => exact hs.target hold htarget
    | dispatch _ hstage hroute =>
        cases htarget
        exact hs.session (routeDecision_dispatch hroute).2
    | next => exact hs.target hold htarget
  · intro v x i n hx horigin
    have hmove := step_visitor hstep v
    rw [hx] at hmove
    generalize hold : s.visitors v = before at hmove
    have hlistener : ∀ {l : Listener}, (s.conns i).listeners[n]? = some l →
        x.target = some ⟨l.clientId, l.name, i⟩ →
        ∃ l, (s'.conns i).listeners[n]? = some l ∧
          x.target = some ⟨l.clientId, l.name, i⟩ := by
      intro l hl htarget
      obtain ⟨l', hl', heq⟩ := (step_flow hstep i).listener_kept hl
      simp only [Listener.opened, Prod.mk.injEq] at heq
      exact ⟨l', hl', by rw [heq.1, heq.2.1, htarget]⟩
    cases hmove with
    | same =>
        obtain ⟨l, hl, htarget⟩ := hs.arrived hold horigin
        exact hlistener hl htarget
    | arrive _ hl =>
        cases horigin
        exact hlistener hl rfl
    | route => cases horigin
    | secured =>
        obtain ⟨l, hl, htarget⟩ := hs.arrived hold horigin
        exact hlistener hl htarget
    | dispatch _ hstage =>
        obtain ⟨l, hl, htarget⟩ := hs.arrived hold horigin
        rw [(hs.visitor hold).reading hstage] at htarget
        cases htarget
    | next =>
        obtain ⟨l, hl, htarget⟩ := hs.arrived hold horigin
        exact hlistener hl htarget
  · intro i k name peer hmem
    have hlift : .newConn k name peer ∈ (s.conns i).queue →
        ∃ v x target, s'.visitors v = some x ∧ x.target = some target ∧
          target.session = i ∧ x.connId? = some k := by
      intro hold
      obtain ⟨v, x, target, hx, htarget, hsession, hk⟩ := hs.notice hold
      obtain ⟨y, hy, -, htarget', hk'⟩ := hkept hx
      exact ⟨v, y, target, hy, htarget' _ htarget, hsession, hk' _ hk⟩
    rcases (step_flow hstep i).queue_old hmem with
      hold | ⟨v, x, target, k', hx, htarget, hsession, hk, heq⟩
    · exact hlift hold
    · cases heq
      obtain ⟨y, hy, -, htarget', hk'⟩ := hkept hx
      exact ⟨v, y, target, hy, htarget' _ htarget, hsession, hk' _ hk⟩
  · exact step_counter hstep hs.counter

theorem addressed_of_reachable (h : (relay crates cfg).Reachable s) :
    s.Addressed cfg :=
  h.invariant addressed_init fun _ _ _ hreach hinv hstep =>
    hinv.step (genuine_of_reachable hreach) hstep

/-! ## The relay keeps to the pairing table -/

/-- How far a visitor of `owner` has come in the pairing table. -/
def Stage.ticket (owner : String) : Stage → PairingTable.Phase UInt64 String
  | .tls _ => .waiting owner
  | .reading _ => .waiting owner
  | .ready => .waiting owner
  | .closed _ => .waiting owner
  | .numbered k => .numbered owner k
  | .sending k => .deposited owner k
  | .waiting k => .deposited owner k
  | .granted k => .deposited owner k
  | .failed k => .deposited owner k
  | .announced k => .deposited owner k
  | .refused k => .deposited owner k

def Visitor.ticket (x : Visitor) : PairingTable.Phase UInt64 String :=
  match x.target with
  | none => .absent
  | some target => x.stage.ticket target.clientId

/-- What `splice` handed to a connection, with the identity it was asked under. -/
def Conn.given (c : Conn) : Option (ℕ × String × UInt64) :=
  match c.joined, c.role? with
  | some v, some (.data clientId connId) => some (v, clientId, connId)
  | _, _ => none

/-- The pairing table of a relay state. -/
def State.table (s : State) : PairingTable.Table UInt64 String ℕ ℕ where
  next := s.numbered
  slots := fun k => (s.pending k).map fun p => (p.stream, p.clientId)
  tickets := fun v => ((s.visitors v).map Visitor.ticket).getD .absent
  given := fun i => (s.conns i).given

/-- The step of the pairing table that a step of the relay is. -/
def tableMove (cfg : RelayConfig) (s : State) :
    Label → Option (PairingTable.Label UInt64 String ℕ ℕ)
  | .arrive i n v _ =>
      (s.conns i).listeners[n]?.map fun l => .arrive v l.clientId
  | .head v (some bytes) =>
      match routeDecision cfg s.sessions bytes with
      | .dispatch seg _ => some (.arrive v seg)
      | _ => none
  | .number v => some (.number v)
  | .insert v => some (.deposit v)
  | .unwind v => some (.withdraw v)
  | .splice i =>
      match (s.conns i).phase with
      | .data clientId connId => some (.claim i clientId connId)
      | _ => none
  | .sweep => some (.expire fun k => (s.pending k).all fun p =>
      decide ((s.now - p.since) / 1000 < pairTimeoutSecs))
  | _ => none

/-- The connection ids in the order in which they are handed out. -/
def connIdAt (n : ℕ) : UInt64 := UInt64.ofNat (n + 1)

theorem given_of_stride {label : Label} {j : ℕ} {c c' : Conn}
    (h : c.Genuine crates cfg) (hstride : Conn.Stride crates cfg label j c c')
    (hlabel : label ≠ .splice j) : c'.given = c.given := by
  have hsame : c'.accepted = c.accepted → c'.joined = c.joined →
      c'.given = c.given := by
    intro hacc hjoined
    simp only [Conn.given, Conn.role?, hacc, hjoined]
  cases hstride with
  | same hnew => exact hsame hnew.2.1 hnew.2.2.1
  | control phase' hphase hnew => exact hsame hnew.2.1 hnew.2.2
  | handshake _ hmove =>
      cases hmove with
      | pass hauth =>
          have hjoined := (h.early (Or.inr ⟨_, hauth⟩)).2
          simp [Conn.given, hjoined]
      | _ => exact hsame rfl rfl
  | refused hsplice => exact absurd hsplice hlabel
  | joined hsplice => exact absurd hsplice hlabel

theorem ticket_of_next {label : Label} {v : ℕ} {k : UInt64} {stage stage' : Stage}
    (hnext : Stage.Next label v k stage stage') (hnumber : label ≠ .number v)
    (hinsert : label ≠ .insert v) (owner : String) :
    stage'.ticket owner = stage.ticket owner := by
  cases hnext <;> simp_all [Stage.ticket]

/-- Only five kinds of step move a ticket. -/
theorem ticket_of_move {label : Label} {v : ℕ} {o o' : Option Visitor}
    (hmove : Visitor.Move cfg s label v o o') (hnumber : label ≠ .number v)
    (hinsert : label ≠ .insert v) (harrive : ∀ i n peer, label ≠ .arrive i n v peer)
    (hhead : ∀ bytes seg session, label = .head v (some bytes) →
      routeDecision cfg s.sessions bytes ≠ .dispatch seg session) :
    (o'.map Visitor.ticket).getD .absent = (o.map Visitor.ticket).getD .absent := by
  cases hmove with
  | same => rfl
  | arrive hlabel => exact absurd hlabel (harrive _ _ _)
  | route => simp [Visitor.ticket]
  | @secured x since hstage =>
      by_cases horigin : x.origin = .router <;>
        cases htarget : x.target <;>
        simp [Visitor.ticket, Stage.ticket, horigin, htarget, hstage]
  | dispatch hlabel _ hroute => exact absurd hroute (hhead _ _ _ hlabel)
  | @next x stage hnext =>
      cases htarget : x.target with
      | none => simp [Visitor.ticket, htarget]
      | some target =>
          simp [Visitor.ticket, htarget, ticket_of_next hnext hnumber hinsert]

section Follows

variable (hreach : (relay crates cfg).Reachable s)

include hreach

theorem table_given {label : Label} (hstep : s.step crates cfg label = some s')
    (hlabel : ∀ i, label ≠ .splice i) : s'.table.given = s.table.given := by
  funext i
  exact given_of_stride (genuine_of_reachable hreach i) (step_stride hstep i)
    (hlabel i)

/-- A step that is not one of the pairing table leaves it as it is. -/
theorem table_unchanged {label : Label} (hstep : s.step crates cfg label = some s')
    (hlabel : label.onTable = false)
    (harrive : ∀ i n v peer, label ≠ .arrive i n v peer)
    (hhead : ∀ v bytes seg session, label = .head v (some bytes) →
      routeDecision cfg s.sessions bytes ≠ .dispatch seg session) :
    s'.table = s.table := by
  obtain ⟨hpending, -, hnumbered⟩ := step_table hstep hlabel
  have hgiven := table_given hreach hstep (by rintro i rfl; cases hlabel)
  have htickets : s'.table.tickets = s.table.tickets := by
    funext v
    exact ticket_of_move (step_visitor hstep v) (by rintro rfl; cases hlabel)
      (by rintro rfl; cases hlabel) (fun i n peer => harrive i n v peer)
      (fun bytes seg session => hhead v bytes seg session)
  have hslots : s'.table.slots = s.table.slots := by
    simp only [State.table, hpending]
  show PairingTable.Table.mk _ _ _ _ = PairingTable.Table.mk _ _ _ _
  congr 1

theorem table_follows {label : Label} (hstep : s.step crates cfg label = some s') :
    System.Follows (PairingTable.system connIdAt) State.table (tableMove cfg)
      s label s' := by
  have haddressed := addressed_of_reachable hreach
  unfold System.Follows
  cases label with
  | arrive i n v peer =>
      obtain ⟨l, hl, -, hnew, heq⟩ := arrive_cases hstep
      have hgiven := table_given hreach hstep (by simp)
      have hticket : s.table.tickets v = .absent := by simp [State.table, hnew]
      simp only [tableMove, hl, Option.map_some, PairingTable.system,
        PairingTable.Table.step, hticket, Option.some.injEq]
      subst heq
      refine PairingTable.Table.ext rfl rfl ?_ hgiven.symm
      funext w
      by_cases hw : w = v
      · subst hw
        by_cases htls : cfg.maybeVisitorTls <;>
          simp [State.table, Visitor.ticket, Stage.ticket, htls]
      · simp [State.table, hw]
  | head v block =>
      obtain ⟨x, since, hx, hstage, ⟨status, hother, -⟩ |
        ⟨bytes, seg, session, rfl, hroute, heq⟩⟩ := head_cases hstep
      · have hmove : tableMove cfg s (.head v block) = none := by
          cases block with
          | none => rfl
          | some bytes =>
              simp only [tableMove]
              split
              case h_1 seg session hroute =>
                exact absurd hroute (hother bytes seg session rfl)
              case h_2 => rfl
        rw [hmove]
        refine table_unchanged hreach hstep rfl (by simp) ?_
        rintro v bytes seg session ⟨⟩
        exact hother bytes seg session rfl
      · have hgiven := table_given hreach hstep (by simp)
        have htarget := (haddressed.visitor hx).reading hstage
        have hticket : s.table.tickets v = .absent := by
          simp [State.table, hx, Visitor.ticket, htarget]
        simp only [tableMove, hroute, PairingTable.system, PairingTable.Table.step,
          hticket, Option.some.injEq]
        subst heq
        refine PairingTable.Table.ext rfl rfl ?_ hgiven.symm
        funext w
        by_cases hw : w = v
        · subst hw
          simp [State.table, Visitor.ticket, Stage.ticket]
        · simp [State.table, hw]
  | number v =>
      obtain ⟨x, hx, hstage, heq⟩ := number_cases hstep
      have hgiven := table_given hreach hstep (by simp)
      obtain ⟨target, htarget⟩ := (haddressed.visitor hx).decided (by simp [hstage])
      have hticket : s.table.tickets v = .waiting target.clientId := by
        simp [State.table, hx, Visitor.ticket, htarget, hstage, Stage.ticket]
      simp only [tableMove, PairingTable.system, PairingTable.Table.step, hticket,
        Option.some.injEq]
      subst heq
      refine PairingTable.Table.ext rfl rfl ?_ hgiven.symm
      funext w
      by_cases hw : w = v
      · subst hw
        simp [State.table, Visitor.ticket, htarget, Stage.ticket, connIdAt,
          haddressed.counter]
      · simp [State.table, hw]
  | insert v =>
      obtain ⟨x, k, target, hx, hstage, htarget, heq⟩ := insert_cases hstep
      have hgiven := table_given hreach hstep (by simp)
      have hticket : s.table.tickets v = .numbered target.clientId k := by
        simp [State.table, hx, Visitor.ticket, htarget, hstage, Stage.ticket]
      simp only [tableMove, PairingTable.system, PairingTable.Table.step, hticket,
        Option.some.injEq]
      subst heq
      refine PairingTable.Table.ext rfl ?_ ?_ hgiven.symm
      · funext k'
        by_cases hk : k' = k
        · subst hk
          simp [State.table]
        · simp [State.table, hk]
      · funext w
        by_cases hw : w = v
        · subst hw
          simp [State.table, Visitor.ticket, htarget, Stage.ticket]
        · simp [State.table, hw]
  | unwind v =>
      obtain ⟨x, k, hx, hstage, heq⟩ := unwind_cases hstep
      have hgiven := table_given hreach hstep (by simp)
      obtain ⟨target, htarget⟩ := (haddressed.visitor hx).decided (by simp [hstage])
      have hticket : s.table.tickets v = .deposited target.clientId k := by
        simp [State.table, hx, Visitor.ticket, htarget, hstage, Stage.ticket]
      simp only [tableMove, PairingTable.system, PairingTable.Table.step, hticket,
        Option.some.injEq]
      subst heq
      refine PairingTable.Table.ext (by simp [State.table]) ?_ ?_ hgiven.symm
      · funext k'
        by_cases hk : k' = k
        · subst hk
          simp [State.table]
        · simp [State.table, hk]
      · funext w
        by_cases hw : w = v
        · subst hw
          simp [State.table, Visitor.ticket, hx, htarget, Stage.ticket, hstage]
        · simp [State.table, hw]
  | splice i =>
      obtain ⟨clientId, connId, hphase, hcases⟩ := splice_cases hstep
      obtain ⟨hrole, hjoined⟩ := (genuine_of_reachable hreach i).data hphase
      have hgiven : s.table.given i = none := by
        simp [State.table, Conn.given, hjoined]
      have hclosed : ∀ j, Conn.given (Function.update s.conns i
          { s.conns i with phase := .closed } j) = (s.conns j).given := by
        intro j
        by_cases hj : j = i
        · subst hj
          simp [Conn.given, Conn.role?]
        · simp [hj]
      simp only [tableMove, hphase, PairingTable.system, PairingTable.Table.step,
        hgiven]
      obtain ⟨hnone, rfl⟩ | ⟨p, hp, hcases⟩ := hcases
      · have hslot : s.table.slots connId = none := by simp [State.table, hnone]
        simp only [hslot, Option.some.injEq]
        exact PairingTable.Table.ext rfl rfl rfl (funext fun j => (hclosed j).symm)
      · have hslot : s.table.slots connId = some (p.stream, p.clientId) := by
          simp [State.table, hp]
        have hslots : Function.update s.table.slots connId none = fun k =>
            (Function.update s.pending connId none k).map fun p =>
              (p.stream, p.clientId) := by
          funext k
          by_cases hk : k = connId <;> simp [State.table, hk]
        simp only [hslot, Option.some.injEq]
        obtain ⟨hown, rfl⟩ | ⟨hother, rfl⟩ := hcases
        · refine PairingTable.Table.ext rfl hslots rfl ?_
          funext j
          by_cases hj : j = i
          · subst hj
            have hrole' : Conn.role? { s.conns j with
                phase := .piping p.stream, joined := some p.stream } =
                some (.data clientId connId) := hrole
            simp [State.table, Conn.given, hrole', hown]
          · simp [State.table, hj, hown]
        · refine PairingTable.Table.ext rfl hslots rfl ?_
          rw [if_neg hother]
          exact funext fun j => (hclosed j).symm
  | sweep =>
      cases hstep
      simp only [tableMove, PairingTable.system, PairingTable.Table.step,
        Option.some.injEq]
      refine PairingTable.Table.ext rfl ?_ rfl rfl
      funext k
      cases hp : s.pending k with
      | none => simp [State.table, State.sweepPending, hp]
      | some p =>
          by_cases hage : (s.now - p.since) / 1000 < pairTimeoutSecs
          · simp [State.table, State.sweepPending, hp, hage]
          · simp [State.table, State.sweepPending, hp, Option.filter, hage]
  | _ => exact table_unchanged hreach hstep rfl (by simp) (by simp)

end Follows

theorem connIdAt_injOn : Set.InjOn connIdAt (Set.Iio (2 ^ 64)) := by
  intro n hn m hm heq
  simp only [Set.mem_Iio] at hn hm
  have hmod := congrArg UInt64.toNat heq
  simp only [connIdAt, UInt64.toNat_ofNat'] at hmod
  omega

/-- As long as the counter has not come round, the pairing table of the relay
is consistent. -/
theorem table_consistent (hreach : (relay crates cfg).Reachable s)
    (hcount : s.numbered ≤ 2 ^ 64) :
    PairingTable.Consistent connIdAt s.table := by
  obtain ⟨history, hrun⟩ := hreach
  have habstract : (PairingTable.system connIdAt).Run
      (System.abstractHistory State.table (tableMove cfg) history) s.table :=
    hrun.abstract rfl fun _ _ _ hreach hstep => table_follows hreach hstep
  exact PairingTable.Run.consistent connIdAt_injOn habstract hcount

/-! ## Isolation -/

/-- The client a visitor came for: the session that opened its port is that
client's, or its request line names the client. -/
def State.CameFor (s : State) (v : ℕ) (clientId : String) : Prop :=
  ∃ x, s.visitors v = some x ∧
    match x.origin with
    | .listener i _ => (s.conns i).role? = some (.control clientId)
    | .router => firstPathSegment x.head = some clientId

/-- The connection id given to a visitor. -/
def State.connId? (s : State) (v : ℕ) : Option UInt64 :=
  (s.visitors v).bind Visitor.connId?

theorem State.Addressed.target_of_cameFor (hs : s.Addressed cfg) {v : ℕ}
    {clientId : String} {x : Visitor} {target : Target}
    (hv : s.CameFor v clientId) (hx : s.visitors v = some x)
    (htarget : x.target = some target) : target.clientId = clientId := by
  obtain ⟨y, hy, hcame⟩ := hv
  obtain rfl : x = y := Option.some.inj (hx.symm.trans hy)
  cases horigin : x.origin with
  | router =>
      simp only [horigin] at hcame
      have hpath := (hs.visitor hx).path horigin htarget
      exact Option.some.inj (hpath.symm.trans hcame)
  | listener i n =>
      simp only [horigin] at hcame
      obtain ⟨l, hl, hopened⟩ := hs.arrived hx horigin
      have hrole := (hs.listener (List.mem_of_getElem? hl)).1
      rw [hrole] at hcame
      rw [hopened] at htarget
      cases htarget
      simpa using hcame

theorem visitor_of_deposited {v : ℕ} {owner : String} {k : UInt64}
    (h : s.table.tickets v = .deposited owner k) :
    ∃ x target, s.visitors v = some x ∧ x.target = some target ∧
      target.clientId = owner ∧ x.connId? = some k := by
  cases hx : s.visitors v with
  | none => simp [State.table, hx] at h
  | some x =>
      cases htarget : x.target with
      | none => simp [State.table, hx, Visitor.ticket, htarget] at h
      | some target =>
          refine ⟨x, target, rfl, htarget, ?_⟩
          cases hstage : x.stage <;>
            simp_all [State.table, Visitor.ticket, Stage.ticket, Visitor.connId?]

theorem key_of_connId (hs : s.Addressed cfg) {v : ℕ} {k : UInt64}
    (hk : s.connId? v = some k) : (s.table.tickets v).key? = some k := by
  obtain ⟨x, hx, hk⟩ := Option.bind_eq_some_iff.mp hk
  have hstage : ∀ owner, (x.stage.ticket owner).key? = some k := by
    intro owner
    cases hstage : x.stage <;>
      simp_all [Visitor.connId?, Stage.ticket, PairingTable.Phase.key?]
  obtain ⟨target, htarget⟩ := (hs.visitor hx).decided (by
    rintro (⟨since, heq⟩ | ⟨since, heq⟩ | ⟨status, heq⟩) <;>
      simp [Visitor.connId?, heq] at hk)
  simpa [State.table, hx, Visitor.ticket, htarget] using hstage target.clientId

/-- A connection that received a visitor proved itself to be the data
connection of the visitor's client for the visitor's number. -/
theorem joined_deposited (hreach : (relay crates cfg).Reachable s)
    (hcount : s.numbered ≤ 2 ^ 64) {i v : ℕ}
    (hjoined : (s.conns i).joined = some v) :
    ∃ x target k a, s.visitors v = some x ∧ x.target = some target ∧
      x.connId? = some k ∧ (s.conns i).accepted = some a ∧
      a.role = .data target.clientId k ∧ a.Valid crates cfg ∧
      s.table.given i = some (v, target.clientId, k) := by
  have hgenuine := genuine_of_reachable hreach i
  obtain ⟨clientId, k, hrole⟩ := hgenuine.joined hjoined
  have hgiven : s.table.given i = some (v, clientId, k) := by
    simp [State.table, Conn.given, hjoined, hrole]
  have hdeposited := (table_consistent hreach hcount).given_deposited hgiven
  obtain ⟨x, target, hx, htarget, rfl, hk⟩ := visitor_of_deposited hdeposited
  obtain ⟨a, ha, hrole⟩ := Option.map_eq_some_iff.mp hrole
  exact ⟨x, target, k, a, hx, htarget, hk, ha, hrole, hgenuine.valid ha, hgiven⟩

/-- An insertion overwrites nothing. -/
theorem insert_keeps (hreach : (relay crates cfg).Reachable s)
    (hcount : s.numbered ≤ 2 ^ 64) {v : ℕ} {k : UInt64} {p : Pending}
    (hstep : s.step crates cfg (.insert v) = some s') (hp : s.pending k = some p) :
    s'.pending k = some p := by
  obtain ⟨x, k', target, hx, hstage, htarget, rfl⟩ := insert_cases hstep
  have hticket : s.table.tickets v = .numbered target.clientId k' := by
    simp [State.table, hx, Visitor.ticket, htarget, hstage, Stage.ticket]
  have hempty := (table_consistent hreach hcount).slot_empty_of_numbered hticket
  have hk : k ≠ k' := by
    rintro rfl
    simp [State.table, hp] at hempty
  simpa [hk] using hp

/-- A visitor that came for a client is received by at most one connection,
which proved to be that client's data connection for this visitor's number; it
is announced to that client's sessions only; and no insertion into the pairing
table overwrites an entry. -/
theorem visitor_isolation (hreach : (relay crates cfg).Reachable s)
    (hcount : s.numbered < 2 ^ 64) {v : ℕ} {clientId : String}
    (hv : s.CameFor v clientId) :
    (∀ x i n l, s.visitors v = some x → x.origin = .listener i n →
      (s.conns i).listeners[n]? = some l → cfg.allowed clientId l.port = true) ∧
    (∀ i j, (s.conns i).joined = some v → (s.conns j).joined = some v → i = j) ∧
    (∀ i, (s.conns i).joined = some v → ∃ k a, s.connId? v = some k ∧
      (s.conns i).accepted = some a ∧ a.role = .data clientId k ∧
      a.Valid crates cfg) ∧
    (∀ i k name peer, s.connId? v = some k →
      .newConn k name peer ∈ (s.conns i).queue →
      (s.conns i).role? = some (.control clientId)) ∧
    (∀ w s', s.step crates cfg (.insert w) = some s' → ∀ k p,
      s.pending k = some p → s'.pending k = some p) := by
  have haddressed := addressed_of_reachable hreach
  have hconsistent := table_consistent hreach hcount.le
  refine ⟨?_, ?_, ?_, ?_, ?_⟩
  · intro x i n l hx horigin hl
    obtain ⟨y, hy, hcame⟩ := hv
    obtain rfl : x = y := Option.some.inj (hx.symm.trans hy)
    simp only [horigin] at hcame
    obtain ⟨hrole, hallowed⟩ := haddressed.listener (List.mem_of_getElem? hl)
    rw [hcame] at hrole
    cases hrole
    exact hallowed
  · intro i j hi hj
    obtain ⟨_, _, _, _, -, -, -, -, -, -, hgiven⟩ :=
      joined_deposited hreach hcount.le hi
    obtain ⟨_, _, _, _, -, -, -, -, -, -, hgiven'⟩ :=
      joined_deposited hreach hcount.le hj
    exact hconsistent.given_once hgiven hgiven'
  · intro i hi
    obtain ⟨x, target, k, a, hx, htarget, hk, ha, hrole, hvalid, -⟩ :=
      joined_deposited hreach hcount.le hi
    obtain rfl := haddressed.target_of_cameFor hv hx htarget
    exact ⟨k, a, by simp [State.connId?, hx, hk], ha, hrole, hvalid⟩
  · intro i k name peer hk hmem
    obtain ⟨w, x, target, hx, htarget, rfl, hk'⟩ := haddressed.notice hmem
    have hw : s.connId? w = some k := by simp [State.connId?, hx, hk']
    obtain rfl : v = w := hconsistent.key_unique (key_of_connId haddressed hk)
      (key_of_connId haddressed hw)
    obtain rfl := haddressed.target_of_cameFor hv hx htarget
    exact haddressed.target hx htarget
  · intro w s' hstep k p hp
    exact insert_keeps hreach hcount.le hstep hp

/-! ## A run -/

/-- Two clients with one port each. -/
def sampleConfig : RelayConfig where
  bind := .v4 "0.0.0.0"
  controlPort := 7100
  heartbeatSecs := 15
  publicHost := none
  tlsCert := none
  tlsKey := none
  visitorBind := none
  pathRouterPort := none
  publicBaseUrl := none
  visitorTls := none
  clients :=
    [⟨"mac", "mac-0123456789abcdef", [8080], none⟩,
      ⟨"pc", "pc-0123456789abcdef", [8081], none⟩]

def sampleCrates : Crates where
  hmac := Sha256.hmac
  toVec := ServerMsg.toVec

/-- A session asks for a port and gets it. -/
def openPort (i : ℕ) (name : String) (port : UInt16) : List Label :=
  [.conn i (.read (some (.bind name port))), .bound i true, .conn i (.written true)]

/-- A visitor without TLS arrives at a listener and is announced. -/
def announce (i n v : ℕ) : List Label :=
  [.arrive i n v "203.0.113.7:50000", .number v, .insert v, .send v]

/-- The states after the handshakes of a control and a data connection. -/
def sampleLogins : State :=
  (State.init.setConn 0
    (Conn.loggedIn Sha256.hmac (.control "mac") "mac-0123456789abcdef"
    (Vector.replicate 32 0))).setConn 1
      (Conn.loggedIn Sha256.hmac (.data "mac" 1) "mac-0123456789abcdef"
      (Vector.replicate 32 1))

theorem sampleLogins_reachable :
    (relay sampleCrates sampleConfig).Reachable sampleLogins :=
  Reachable.login _ _
    (Reachable.login _ _ System.Reachable.init rfl (by decide +kernel))
    rfl (by decide +kernel)

/-- A run in which a visitor of `mac` is handed over. -/
theorem sample_reachable : ∃ s, (relay sampleCrates sampleConfig).Reachable s ∧
    s.numbered = 1 ∧ (s.conns 1).joined = some 0 ∧ s.CameFor 0 "mac" := by
  obtain ⟨s, hreach, hcheck⟩ := sampleLogins_reachable.exists_of_exec
    ([.kick 0, .register 0] ++ openPort 0 "dufs" 8080 ++ announce 0 0 0 ++
      [.splice 1])
    (fun s : State => decide (s.numbered = 1 ∧ (s.conns 1).joined = some 0 ∧
      (s.visitors 0).map Visitor.origin = some (.listener 0 0) ∧
      (s.conns 0).role? = some (.control "mac"))) (by decide +kernel)
  obtain ⟨hnumbered, hjoined, horigin, hrole⟩ := of_decide_eq_true hcheck
  obtain ⟨x, hx, horigin⟩ := Option.map_eq_some_iff.mp horigin
  exact ⟨s, hreach, hnumbered, hjoined, x, hx, by simp only [horigin]; exact hrole⟩

theorem visitor_isolation_sample : ∃ s,
    (relay sampleCrates sampleConfig).Reachable s ∧
    (s.conns 1).joined = some 0 ∧ ∃ k a, s.connId? 0 = some k ∧
      (s.conns 1).accepted = some a ∧ a.role = .data "mac" k ∧
      a.Valid sampleCrates sampleConfig := by
  obtain ⟨s, hreach, hnumbered, hjoined, hcame⟩ := sample_reachable
  have hisolated := visitor_isolation hreach (by simp [hnumbered]) hcame
  exact ⟨s, hreach, hjoined, hisolated.2.2.1 1 hjoined⟩

end Yunpan.Relay
