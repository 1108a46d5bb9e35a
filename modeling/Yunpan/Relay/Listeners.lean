import Yunpan.Relay.Isolation
import Yunpan.Relay.Session

/-!
# Listener tasks, their visitors and their ports

A listener waits for the visitor it has accepted; it is busy with exactly the
visitors that still wait for it.  One step of the relay moves a listener along
its loop, and a port changes hands only when it is bound or its listener ends.
-/

namespace Yunpan.Relay

open Yunpan.Protocol
open Yunpan.Transition

variable {crates : Crates} {cfg : RelayConfig} {s s' : State}

/-! ## Listeners and their visitors -/

/-- The task that dispatches the visitor is still at it. -/
def Stage.isOpen : Stage → Bool
  | .announced _ => false
  | .refused _ => false
  | .closed _ => false
  | _ => true

/-- Listener `n` of session `i` is busy with visitor `v`. -/
def State.Serves (s : State) (i n v : ℕ) : Prop :=
  ∃ l, (s.conns i).listeners[n]? = some l ∧ l.state = .serving v

/-- Visitor `v` is being dispatched by listener `n` of session `i`. -/
def State.Awaits (s : State) (i n v : ℕ) : Prop :=
  ∃ x, s.visitors v = some x ∧ x.origin = .listener i n ∧ x.stage.isOpen = true

/-- Listeners are busy with the visitors they dispatch, and with no others. -/
def State.Attended (s : State) : Prop := ∀ i n v, s.Serves i n v ↔ s.Awaits i n v

theorem attended_init : State.init.Attended := by
  intro i n v
  simp [State.Serves, State.Awaits, State.init, Conn.fresh]

theorem serves_congr (hl : ∀ j, (s'.conns j).listeners = (s.conns j).listeners)
    (i n v : ℕ) : s'.Serves i n v ↔ s.Serves i n v := by
  simp only [State.Serves, hl]

theorem awaits_congr (hv : s'.visitors = s.visitors) (i n w : ℕ) :
    s'.Awaits i n w ↔ s.Awaits i n w := by
  simp only [State.Awaits, hv]

theorem awaits_update {v : ℕ} {y : Visitor}
    (hv : s'.visitors = Function.update s.visitors v (some y)) (i n w : ℕ) :
    s'.Awaits i n w ↔
      (w = v ∧ y.origin = .listener i n ∧ y.stage.isOpen = true) ∨
        (w ≠ v ∧ s.Awaits i n w) := by
  by_cases hw : w = v
  · subst hw
    simp [State.Awaits, hv]
  · simp [State.Awaits, hv, hw]

theorem State.Attended.congr (hs : s.Attended)
    (hl : ∀ j, (s'.conns j).listeners = (s.conns j).listeners)
    (hv : s'.visitors = s.visitors) : s'.Attended := fun i n v => by
  rw [serves_congr hl, awaits_congr hv, hs i n v]

/-- A visitor advances without being settled. -/
theorem State.Attended.advance (hs : s.Attended) {v : ℕ} {x y : Visitor}
    (hx : s.visitors v = some x)
    (hl : ∀ j, (s'.conns j).listeners = (s.conns j).listeners)
    (hv : s'.visitors = Function.update s.visitors v (some y))
    (hy : y.origin = x.origin ∧ y.stage.isOpen = x.stage.isOpen) : s'.Attended := by
  intro i n w
  rw [serves_congr hl, awaits_update hv, hs i n w, hy.1, hy.2]
  by_cases hw : w = v
  · subst hw
    simp [State.Awaits, hx]
  · simp [hw]

/-- A visitor of the path router appears or advances. -/
theorem State.Attended.router (hs : s.Attended) {v : ℕ} {y : Visitor}
    (hold : ∀ x, s.visitors v = some x → x.origin = .router)
    (hl : ∀ j, (s'.conns j).listeners = (s.conns j).listeners)
    (hv : s'.visitors = Function.update s.visitors v (some y))
    (hy : y.origin = .router) : s'.Attended := by
  intro i n w
  rw [serves_congr hl, awaits_update hv, hs i n w, hy]
  by_cases hw : w = v
  · subst hw
    simp only [reduceCtorEq, false_and, and_false, ne_eq, not_true_eq_false, or_self,
      iff_false]
    rintro ⟨x, hx, horigin, -⟩
    rw [hold x hx] at horigin
    cases horigin
  · simp [hw]

theorem modify_getElem? (listeners : List Listener) (n m : ℕ) (state : ListenerState) :
    (listeners.modify n fun l => { l with state := state })[m]? =
      if m = n then listeners[m]?.map fun l => { l with state := state }
      else listeners[m]? := by
  rw [List.getElem?_modify]
  by_cases hm : m = n
  · simp [hm]
  · simp [hm, Ne.symm hm]

theorem touch_getElem? (i n j m : ℕ) (alive : Bool) (listeners : List Listener) :
    ((Origin.listener i n).touch alive j listeners)[m]? =
      if j = i ∧ m = n then listeners[m]?.map fun l =>
        { l with state := if alive then .accepting else .ended }
      else listeners[m]? := by
  by_cases hj : j = i
  · simp [Origin.touch, hj, modify_getElem?]
  · simp [Origin.touch, hj]

/-- A visitor is settled and its task goes on. -/
theorem State.Attended.release (hs : s.Attended) {v : ℕ} {x y : Visitor}
    (alive : Bool) (hx : s.visitors v = some x) (hopen : x.stage.isOpen = true)
    (hl : ∀ j, (s'.conns j).listeners =
      x.origin.touch alive j (s.conns j).listeners)
    (hv : s'.visitors = Function.update s.visitors v (some y))
    (hy : y.stage.isOpen = false) : s'.Attended := by
  intro i n w
  have hserves : s'.Serves i n w ↔ s.Serves i n w ∧ x.origin ≠ .listener i n := by
    cases horigin : x.origin with
    | router => simp [State.Serves, hl, horigin, Origin.touch]
    | listener i' n' =>
        simp only [State.Serves, hl, horigin, touch_getElem?]
        by_cases hin : i = i' ∧ n = n'
        · obtain ⟨rfl, rfl⟩ := hin
          cases alive <;> simp
        · rw [if_neg hin]
          have hne : Origin.listener i' n' ≠ .listener i n := by
            rintro ⟨⟩
            exact hin ⟨rfl, rfl⟩
          simp [hne]
  rw [hserves, awaits_update hv, hs i n w]
  simp only [hy, Bool.false_eq_true, and_false, false_or]
  constructor
  · rintro ⟨hw, hother⟩
    refine ⟨?_, hw⟩
    rintro rfl
    obtain ⟨x', hx', horigin, -⟩ := hw
    obtain rfl : x = x' := Option.some.inj (hx.symm.trans hx')
    exact hother horigin
  · rintro ⟨hne, hw⟩
    refine ⟨hw, fun horigin => hne ?_⟩
    obtain ⟨l, hl, hserving⟩ := (hs i n w).mpr hw
    obtain ⟨l', hl', hserving'⟩ := (hs i n v).mpr ⟨x, hx, horigin, hopen⟩
    obtain rfl : l = l' := Option.some.inj (hl.symm.trans hl')
    rw [hserving] at hserving'
    simpa using hserving'

/-- A visitor arrives at a listener that was free. -/
theorem State.Attended.arrive (hs : s.Attended) {i n v : ℕ} {l : Listener}
    {y : Visitor} (hl : (s.conns i).listeners[n]? = some l)
    (hfree : l.state = .accepting) (hnew : s.visitors v = none)
    (hl' : ∀ j, (s'.conns j).listeners =
      ((s.setListener i n (.serving v)).conns j).listeners)
    (hv : s'.visitors = Function.update s.visitors v (some y))
    (hy : y.origin = .listener i n ∧ y.stage.isOpen = true) : s'.Attended := by
  intro j m w
  rw [awaits_update hv, ← hs j m w, hy.1, hy.2]
  simp only [State.Serves, hl', setListener_conns]
  by_cases hjm : j = i ∧ m = n
  · obtain ⟨rfl, rfl⟩ := hjm
    simp [hl, hfree, eq_comm]
  · have hsame : (if j = i then (s.conns j).listeners.modify n
        fun l => { l with state := .serving v } else (s.conns j).listeners)[m]? =
        (s.conns j).listeners[m]? := by
      by_cases hj : j = i
      · have hm : m ≠ n := fun hm => hjm ⟨hj, hm⟩
        simp [hj, modify_getElem?, hm]
      · simp [hj]
    have hne : Origin.listener i n ≠ .listener j m := by
      rintro ⟨⟩
      exact hjm ⟨rfl, rfl⟩
    have hold : w = v → ¬∃ l, (s.conns j).listeners[m]? = some l ∧
        l.state = .serving w := by
      rintro rfl hserves
      obtain ⟨x, hx, -⟩ := (hs j m w).mp hserves
      rw [hnew] at hx
      cases hx
    rw [hsame]
    constructor
    · intro hserves
      exact Or.inr ⟨fun hw => hold hw hserves, hserves⟩
    · rintro (⟨-, horigin, -⟩ | ⟨-, hserves⟩)
      · exact absurd horigin hne
      · exact hserves

/-- Listeners that serve nobody change. -/
theorem State.Attended.ports (hs : s.Attended)
    (hl : ∀ i n v, s'.Serves i n v ↔ s.Serves i n v)
    (hv : s'.visitors = s.visitors) : s'.Attended := fun i n v => by
  rw [hl, awaits_congr hv, hs i n v]

/-- A listener that has just been opened serves nobody. -/
theorem serving_append (listeners : List Listener) (n v : ℕ) {new : Listener}
    (hnew : new.state = .accepting) :
    (∃ l, (listeners ++ [new])[n]? = some l ∧ l.state = .serving v) ↔
      ∃ l, listeners[n]? = some l ∧ l.state = .serving v := by
  constructor
  · rintro ⟨l, hl, hserving⟩
    by_cases hlt : n < listeners.length
    · exact ⟨l, by rwa [List.getElem?_append_left hlt] at hl, hserving⟩
    · rw [List.getElem?_append_right (Nat.le_of_not_lt hlt)] at hl
      obtain rfl := List.mem_singleton.mp (List.mem_of_getElem? hl)
      rw [hnew] at hserving
      cases hserving
  · rintro ⟨l, hl, hserving⟩
    have hlt := (List.getElem?_eq_some_iff.mp hl).1
    exact ⟨l, by rw [List.getElem?_append_left hlt, hl], hserving⟩

theorem State.Attended.step (hs : s.Attended) (haddressed : s.Addressed cfg)
    {label : Label} (h : s.step crates cfg label = some s') : s'.Attended := by
  have hrouter : ∀ {v x since}, s.visitors v = some x → x.stage = .reading since →
      x.origin = .router := by
    intro v x since hx hstage
    have hv := haddressed.visitor hx
    exact (hv.undecided (hv.reading hstage)).1
  cases label with
  | advance ms => cases h; exact hs.congr (fun _ => rfl) rfl
  | sweep => cases h; exact hs.congr (fun _ => rfl) rfl
  | conn i action =>
      obtain ⟨c, hact, rfl⟩ := conn_cases h
      refine hs.congr (fun j => ?_) rfl
      by_cases hj : j = i
      · subst hj
        simpa using (act_channels hact).listeners
      · simp [hj]
  | kick i =>
      obtain ⟨clientId, -, ⟨-, rfl⟩ | ⟨old, -, rfl⟩⟩ := kick_cases h
      all_goals
        refine hs.congr (fun j => ?_) (by simp)
        by_cases hj : j = i <;> simp [hj, moveHandle_conns]
  | signal i =>
      obtain ⟨clientId, old, -, rfl⟩ := signal_cases h
      refine hs.congr (fun j => ?_) rfl
      simp only [State.setConn_conns, Function.update_apply]
      split <;> split <;> simp_all
  | waited i =>
      obtain ⟨clientId, old, deadline, -, -, rfl⟩ := waited_cases h
      refine hs.congr (fun j => ?_) (by simp)
      by_cases hj : j = i <;> simp [hj, moveHandle_conns]
  | register i =>
      obtain ⟨clientId, -, -, rfl⟩ := register_cases h
      refine hs.congr (fun j => ?_) (by simp)
      by_cases hj : j = i <;> simp [hj, moveHandle_conns]
  | unregister i =>
      obtain ⟨clientId, -, rfl⟩ := unregister_cases h
      refine hs.congr (fun j => ?_) (by simp)
      by_cases hj : j = i <;> simp [hj, moveHandle_conns]
  | event i =>
      obtain ⟨clientId, msg, queue, -, -, ⟨-, rfl⟩ | ⟨v, waiters, -, rfl⟩⟩ :=
        event_cases h
      · exact hs.congr (fun j => by by_cases hj : j = i <;> simp [hj]) rfl
      · have hl : ∀ j,
            (((s.setConn i { (s.conns i).goto clientId (.write msg .event) with
            queue := queue, waiters := waiters
            granted := v :: (s.conns i).granted }).grant v).conns j).listeners =
            (s.conns j).listeners := fun j => by by_cases hj : j = i <;> simp [hj]
        cases hx : s.visitors v with
        | none => exact hs.congr hl (by simp [hx, Function.update_eq_self_iff])
        | some x =>
            refine hs.advance (y := { x with stage := x.stage.grant }) hx hl
              (by simp [hx]) ⟨rfl, ?_⟩
            cases x.stage <;> rfl
  | bound i osOk =>
      obtain ⟨clientId, name, port, -, ⟨-, -, -, rfl⟩ | ⟨reason, -, rfl⟩⟩ :=
        bound_cases h
      · refine hs.ports (fun j n v => ?_) rfl
        by_cases hj : j = i
        · subst hj
          simpa [State.Serves] using serving_append (s.conns j).listeners n v rfl
        · simp [State.Serves, hj]
      · exact hs.congr (fun j => by by_cases hj : j = i <;> simp [hj]) rfl
  | arrive i n v peer =>
      obtain ⟨l, hl, hfree, hnew, rfl⟩ := arrive_cases h
      refine hs.arrive hl hfree hnew (fun _ => rfl) rfl ⟨rfl, ?_⟩
      by_cases htls : cfg.maybeVisitorTls <;> simp [htls, Stage.isOpen]
  | retire i n =>
      obtain ⟨l, hl, hfree, -, rfl⟩ := retire_cases h
      refine hs.ports (fun j m v => ?_) (by simp)
      simp only [State.Serves, endListener_conns, setListener_conns]
      by_cases hj : j = i
      · subst hj
        by_cases hm : m = n
        · subst hm
          simp [hl, hfree]
        · simp [modify_getElem?, hm]
      · simp [hj]
  | route v peer =>
      obtain ⟨hnew, -, rfl⟩ := route_cases h
      exact hs.router (v := v) (by simp [hnew]) (fun _ => rfl) rfl rfl
  | tls v result =>
      obtain ⟨x, since, hx, hstage, ⟨-, rfl⟩ | ⟨-, rfl⟩⟩ := tls_cases h
      · refine hs.advance hx (fun _ => rfl) rfl ⟨rfl, ?_⟩
        by_cases horigin : x.origin = .router <;> simp [horigin, hstage, Stage.isOpen]
      · exact hs.release true hx (by simp [hstage, Stage.isOpen])
          (fun j => by simp [release_conns]) (by simp; rfl) rfl
  | head v block =>
      obtain ⟨x, since, hx, hstage, ⟨status, -, rfl⟩ |
        ⟨bytes, seg, session, -, -, rfl⟩⟩ := head_cases h
      all_goals
        have horigin := hrouter hx hstage
        refine hs.router (v := v) (fun y hy => ?_) (fun _ => rfl) rfl horigin
        rw [hx] at hy
        cases hy
        exact horigin
  | number v =>
      obtain ⟨x, hx, hstage, rfl⟩ := number_cases h
      exact hs.advance hx (fun _ => rfl) rfl ⟨rfl, by simp [hstage, Stage.isOpen]⟩
  | insert v =>
      obtain ⟨x, k, target, hx, hstage, -, rfl⟩ := insert_cases h
      exact hs.advance hx (fun _ => rfl) rfl ⟨rfl, by simp [hstage, Stage.isOpen]⟩
  | send v =>
      obtain ⟨x, k, target, hx, -,
        ⟨hstage, -, rfl⟩ | ⟨hstage, -, -, rfl⟩ | ⟨hstage, -, -, rfl⟩⟩ := send_cases h
      · refine hs.advance hx (fun _ => rfl) rfl ⟨rfl, ?_⟩
        rcases hstage with hstage | hstage <;> simp [hstage, Stage.isOpen]
      · refine hs.release true hx (by simp [hstage, Stage.isOpen])
          (fun j => ?_) (by simp; rfl) rfl
        by_cases hj : j = target.session <;> simp [release_conns, hj]
      · refine hs.advance hx (fun j => ?_) rfl ⟨rfl, by simp [hstage, Stage.isOpen]⟩
        by_cases hj : j = target.session <;> simp [hj]
  | resume v =>
      obtain ⟨x, k, target, hx, -, hstage, ⟨-, rfl⟩ | ⟨-, rfl⟩⟩ := resume_cases h
      · refine hs.advance hx (fun j => ?_) rfl ⟨rfl, by simp [hstage, Stage.isOpen]⟩
        by_cases hj : j = target.session <;> simp [hj]
      · refine hs.release true hx (by simp [hstage, Stage.isOpen])
          (fun j => ?_) (by simp; rfl) rfl
        by_cases hj : j = target.session <;> simp [release_conns, hj]
  | unwind v =>
      obtain ⟨x, k, hx, hstage, rfl⟩ := unwind_cases h
      exact hs.release false hx (by simp [hstage, Stage.isOpen])
        (fun j => by simp [release_conns]) (by simp; rfl) rfl
  | splice i =>
      obtain ⟨clientId, connId, -, ⟨-, rfl⟩ | ⟨p, -, ⟨-, rfl⟩ | ⟨-, rfl⟩⟩⟩ :=
        splice_cases h
      all_goals
        exact hs.congr (fun j => by by_cases hj : j = i <;> simp [hj]) rfl

theorem attended_of_reachable (h : (relay crates cfg).Reachable s) : s.Attended :=
  h.invariant attended_init fun _ _ _ hreach hinv hstep =>
    hinv.step (addressed_of_reachable hreach) hstep

/-! ## One listener -/

/-- The labels that settle visitor `v` and let its task go on. -/
def Label.settles (v : ℕ) : Label → Prop
  | .tls w _ => w = v
  | .send w => w = v
  | .resume w => w = v
  | _ => False

/-- What a step does to listener `n` of session `i`. -/
inductive Listener.Move (s s' : State) (label : Label) (i n : ℕ) (l : Listener) :
    Listener → Prop
  | same : Listener.Move s s' label i n l l
  | arrive {v : ℕ} {peer : String} : label = .arrive i n v peer → l.state = .accepting →
      Listener.Move s s' label i n l { l with state := .serving v }
  | retire : label = .retire i n → l.state = .accepting →
      (s.conns i).shutdownChanged = true → s'.ports l.port = none →
      Listener.Move s s' label i n l { l with state := .ended }
  | free {v : ℕ} : label.settles v → l.state = .serving v →
      Listener.Move s s' label i n l { l with state := .accepting }
  | close {v : ℕ} : label = .unwind v → l.state = .serving v →
      s'.ports l.port = none →
      Listener.Move s s' label i n l { l with state := .ended }

/-- Listener `n` of session `i` after a step. -/
def State.MovesListener (s s' : State) (label : Label) (i n : ℕ) (l : Listener) :
    Prop :=
  ∃ l', (s'.conns i).listeners[n]? = some l' ∧ Listener.Move s s' label i n l l'

theorem moves_same {label : Label} {i n : ℕ} {l : Listener}
    (hl : (s.conns i).listeners[n]? = some l)
    (hsame : (s'.conns i).listeners = (s.conns i).listeners) :
    s.MovesListener s' label i n l :=
  ⟨l, by rw [hsame, hl], .same⟩

/-- A settled visitor frees the listener that accepted it. -/
theorem moves_release {label : Label} {i n v : ℕ} {l : Listener} {x : Visitor}
    (hattended : s.Attended) (hl : (s.conns i).listeners[n]? = some l)
    (hx : s.visitors v = some x) (hopen : x.stage.isOpen = true)
    (hlabel : label.settles v)
    (hnew : (s'.conns i).listeners = x.origin.touch true i (s.conns i).listeners) :
    s.MovesListener s' label i n l := by
  by_cases hmine : x.origin = .listener i n
  · obtain ⟨l', hl', hserving⟩ := (hattended i n v).mpr ⟨x, hx, hmine, hopen⟩
    obtain rfl : l = l' := Option.some.inj (hl.symm.trans hl')
    exact ⟨_, by simp [hnew, hmine, touch_getElem?, hl], .free hlabel hserving⟩
  · refine ⟨l, ?_, .same⟩
    rw [hnew]
    cases horigin : x.origin with
    | router => simpa [Origin.touch] using hl
    | listener i' n' =>
        have hother : ¬(i = i' ∧ n = n') := by
          rintro ⟨rfl, rfl⟩
          exact hmine horigin
        rw [touch_getElem?, if_neg hother, hl]

theorem endListener_ports {i n : ℕ} {l : Listener}
    (hl : (s.conns i).listeners[n]? = some l) :
    (s.endListener i n).ports = Function.update s.ports l.port none := by
  simp [State.endListener, hl, State.setListener]

theorem step_listener (hattended : s.Attended) {label : Label}
    (h : s.step crates cfg label = some s') {i n : ℕ} {l : Listener}
    (hl : (s.conns i).listeners[n]? = some l) : s.MovesListener s' label i n l := by
  cases label with
  | advance ms => cases h; exact moves_same hl rfl
  | sweep => cases h; exact moves_same hl rfl
  | conn j action =>
      obtain ⟨c, hact, rfl⟩ := conn_cases h
      refine moves_same hl ?_
      by_cases hij : i = j
      · subst hij
        simpa using (act_channels hact).listeners
      · simp [hij]
  | kick j =>
      obtain ⟨clientId, -, ⟨-, rfl⟩ | ⟨old, -, rfl⟩⟩ := kick_cases h
      all_goals
        refine moves_same hl ?_
        by_cases hij : i = j <;> simp [hij, moveHandle_conns]
  | signal j =>
      obtain ⟨clientId, old, -, rfl⟩ := signal_cases h
      refine moves_same hl ?_
      simp only [State.setConn_conns, Function.update_apply]
      split <;> split <;> simp_all
  | waited j =>
      obtain ⟨clientId, old, deadline, -, -, rfl⟩ := waited_cases h
      refine moves_same hl ?_
      by_cases hij : i = j <;> simp [hij, moveHandle_conns]
  | register j =>
      obtain ⟨clientId, -, -, rfl⟩ := register_cases h
      refine moves_same hl ?_
      by_cases hij : i = j <;> simp [hij, moveHandle_conns]
  | unregister j =>
      obtain ⟨clientId, -, rfl⟩ := unregister_cases h
      refine moves_same hl ?_
      by_cases hij : i = j <;> simp [hij, moveHandle_conns]
  | event j =>
      obtain ⟨clientId, msg, queue, -, -, ⟨-, rfl⟩ | ⟨v, waiters, -, rfl⟩⟩ :=
        event_cases h
      all_goals
        refine moves_same hl ?_
        by_cases hij : i = j <;> simp [hij]
  | bound j osOk =>
      obtain ⟨clientId, name, port, -, ⟨-, -, -, rfl⟩ | ⟨reason, -, rfl⟩⟩ :=
        bound_cases h
      · by_cases hij : i = j
        · subst hij
          have hlt := (List.getElem?_eq_some_iff.mp hl).1
          exact ⟨l, by simp [List.getElem?_append_left hlt, hl], .same⟩
        · exact moves_same hl (by simp [hij])
      · exact moves_same hl (by by_cases hij : i = j <;> simp [hij])
  | arrive j m v peer =>
      obtain ⟨l', hl', hfree, -, rfl⟩ := arrive_cases h
      by_cases hmine : i = j ∧ n = m
      · obtain ⟨rfl, rfl⟩ := hmine
        obtain rfl : l = l' := Option.some.inj (hl.symm.trans hl')
        exact ⟨_, by simp [setListener_conns, hl],
          .arrive rfl hfree⟩
      · refine ⟨l, ?_, .same⟩
        by_cases hij : i = j
        · have hnm : n ≠ m := fun hnm => hmine ⟨hij, hnm⟩
          subst hij
          simp [setListener_conns, modify_getElem?, hnm, hl]
        · simp [setListener_conns, hij, hl]
  | retire j m =>
      obtain ⟨l', hl', hfree, hchanged, rfl⟩ := retire_cases h
      by_cases hmine : i = j ∧ n = m
      · obtain ⟨rfl, rfl⟩ := hmine
        obtain rfl : l = l' := Option.some.inj (hl.symm.trans hl')
        exact ⟨_, by simp [endListener_conns, setListener_conns, hl],
          .retire rfl hfree hchanged (by simp [endListener_ports hl])⟩
      · refine ⟨l, ?_, .same⟩
        by_cases hij : i = j
        · have hnm : n ≠ m := fun hnm => hmine ⟨hij, hnm⟩
          subst hij
          simp [endListener_conns, setListener_conns, modify_getElem?, hnm, hl]
        · simp [endListener_conns, setListener_conns, hij, hl]
  | route v peer =>
      obtain ⟨-, -, rfl⟩ := route_cases h
      exact moves_same hl rfl
  | tls v result =>
      obtain ⟨x, since, hx, hstage, ⟨-, rfl⟩ | ⟨-, rfl⟩⟩ := tls_cases h
      · exact moves_same hl rfl
      · exact moves_release hattended hl hx (by simp [hstage, Stage.isOpen]) rfl
          (by simp [release_conns])
  | head v block =>
      obtain ⟨x, since, -, -, ⟨status, -, rfl⟩ | ⟨bytes, seg, session, -, -, rfl⟩⟩ :=
        head_cases h
      all_goals exact moves_same hl rfl
  | number v =>
      obtain ⟨x, -, -, rfl⟩ := number_cases h
      exact moves_same hl rfl
  | insert v =>
      obtain ⟨x, k, target, -, -, -, rfl⟩ := insert_cases h
      exact moves_same hl rfl
  | send v =>
      obtain ⟨x, k, target, hx, -,
        ⟨-, -, rfl⟩ | ⟨hstage, -, -, rfl⟩ | ⟨-, -, -, rfl⟩⟩ := send_cases h
      · exact moves_same hl rfl
      · refine moves_release hattended hl hx (by simp [hstage, Stage.isOpen]) rfl ?_
        by_cases hij : i = target.session <;> simp [release_conns, hij]
      · refine moves_same hl ?_
        by_cases hij : i = target.session <;> simp [hij]
  | resume v =>
      obtain ⟨x, k, target, hx, -, hstage, ⟨-, rfl⟩ | ⟨-, rfl⟩⟩ := resume_cases h
      · refine moves_same hl ?_
        by_cases hij : i = target.session <;> simp [hij]
      · refine moves_release hattended hl hx (by simp [hstage, Stage.isOpen]) rfl ?_
        by_cases hij : i = target.session <;> simp [release_conns, hij]
  | unwind v =>
      obtain ⟨x, k, hx, hstage, rfl⟩ := unwind_cases h
      by_cases hmine : x.origin = .listener i n
      · obtain ⟨l', hl', hserving⟩ := (hattended i n v).mpr
          ⟨x, hx, hmine, by simp [hstage, Stage.isOpen]⟩
        obtain rfl : l = l' := Option.some.inj (hl.symm.trans hl')
        refine ⟨_, by simp [release_conns, hmine, touch_getElem?, hl],
          .close rfl hserving ?_⟩
        simp [hmine, State.release, endListener_ports, hl]
      · refine ⟨l, ?_, .same⟩
        cases horigin : x.origin with
        | router => simpa [release_conns, Origin.touch] using hl
        | listener i' n' =>
            have hother : ¬(i = i' ∧ n = n') := by
              rintro ⟨rfl, rfl⟩
              exact hmine horigin
            simp [release_conns, touch_getElem?, hother, hl]
  | splice j =>
      obtain ⟨clientId, connId, -, ⟨-, rfl⟩ | ⟨p, -, ⟨-, rfl⟩ | ⟨-, rfl⟩⟩⟩ :=
        splice_cases h
      all_goals exact moves_same hl (by by_cases hij : i = j <;> simp [hij])

theorem endListener_ports_or (s : State) (i n : ℕ) (port : UInt16) :
    (s.endListener i n).ports port = s.ports port ∨
      (s.endListener i n).ports port = none := by
  cases hl : (s.conns i).listeners[n]? with
  | none => simp [State.endListener, hl]
  | some l =>
      rw [endListener_ports hl]
      by_cases hport : port = l.port <;> simp [hport]

theorem release_ports_or (s : State) (origin : Origin) (alive : Bool) (port : UInt16) :
    (s.release origin alive).ports port = s.ports port ∨
      (s.release origin alive).ports port = none := by
  cases origin with
  | router => exact Or.inl rfl
  | listener i n =>
      cases alive with
      | true => exact Or.inl rfl
      | false => exact endListener_ports_or s i n port

/-- Apart from a port that is bound, a step only frees ports. -/
theorem step_ports {label : Label} (h : s.step crates cfg label = some s')
    (port : UInt16) :
    s'.ports port = s.ports port ∨ s'.ports port = none ∨
      ∃ i osOk clientId name, label = .bound i osOk ∧ s'.ports port = some i ∧
        (s.conns i).phase = .control clientId (.bind name port) ∧
        (s'.conns i).listeners =
          (s.conns i).listeners ++ [⟨clientId, name, port, .accepting⟩] := by
  cases label with
  | advance ms => cases h; exact Or.inl rfl
  | sweep => cases h; exact Or.inl rfl
  | conn j action =>
      obtain ⟨c, -, rfl⟩ := conn_cases h
      exact Or.inl rfl
  | kick j =>
      obtain ⟨clientId, -, ⟨-, rfl⟩ | ⟨old, -, rfl⟩⟩ := kick_cases h
      all_goals exact Or.inl (by simp)
  | signal j =>
      obtain ⟨clientId, old, -, rfl⟩ := signal_cases h
      exact Or.inl rfl
  | waited j =>
      obtain ⟨clientId, old, deadline, -, -, rfl⟩ := waited_cases h
      exact Or.inl (by simp)
  | register j =>
      obtain ⟨clientId, -, -, rfl⟩ := register_cases h
      exact Or.inl (by simp)
  | unregister j =>
      obtain ⟨clientId, -, rfl⟩ := unregister_cases h
      exact Or.inl (by simp)
  | event j =>
      obtain ⟨clientId, msg, queue, -, -, ⟨-, rfl⟩ | ⟨v, waiters, -, rfl⟩⟩ :=
        event_cases h
      all_goals exact Or.inl rfl
  | bound i osOk =>
      obtain ⟨clientId, name, bound, hphase, ⟨-, -, -, rfl⟩ | ⟨reason, -, rfl⟩⟩ :=
        bound_cases h
      · by_cases hport : port = bound
        · subst hport
          exact Or.inr (Or.inr ⟨i, osOk, clientId, name, rfl, by simp, hphase, by simp⟩)
        · exact Or.inl (by simp [hport])
      · exact Or.inl rfl
  | arrive j m v peer =>
      obtain ⟨l, -, -, -, rfl⟩ := arrive_cases h
      exact Or.inl rfl
  | retire j m =>
      obtain ⟨l, -, -, -, rfl⟩ := retire_cases h
      exact (endListener_ports_or s j m port).imp_right Or.inl
  | route v peer =>
      obtain ⟨-, -, rfl⟩ := route_cases h
      exact Or.inl rfl
  | tls v result =>
      obtain ⟨x, since, -, -, ⟨-, rfl⟩ | ⟨-, rfl⟩⟩ := tls_cases h
      all_goals exact Or.inl (by simp)
  | head v block =>
      obtain ⟨x, since, -, -, ⟨status, -, rfl⟩ | ⟨bytes, seg, session, -, -, rfl⟩⟩ :=
        head_cases h
      all_goals exact Or.inl rfl
  | number v =>
      obtain ⟨x, -, -, rfl⟩ := number_cases h
      exact Or.inl rfl
  | insert v =>
      obtain ⟨x, k, target, -, -, -, rfl⟩ := insert_cases h
      exact Or.inl rfl
  | send v =>
      obtain ⟨x, k, target, -, -, ⟨-, -, rfl⟩ | ⟨-, -, -, rfl⟩ | ⟨-, -, -, rfl⟩⟩ :=
        send_cases h
      all_goals exact Or.inl (by simp)
  | resume v =>
      obtain ⟨x, k, target, -, -, -, ⟨-, rfl⟩ | ⟨-, rfl⟩⟩ := resume_cases h
      all_goals exact Or.inl (by simp)
  | unwind v =>
      obtain ⟨x, k, -, -, rfl⟩ := unwind_cases h
      exact (release_ports_or _ x.origin false port).imp_right Or.inl
  | splice j =>
      obtain ⟨clientId, connId, -, ⟨-, rfl⟩ | ⟨p, -, ⟨-, rfl⟩ | ⟨-, rfl⟩⟩⟩ :=
        splice_cases h
      all_goals exact Or.inl rfl

end Yunpan.Relay
