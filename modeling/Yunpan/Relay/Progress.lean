import Yunpan.Relay.Channel
import Yunpan.Relay.Teardown
import Mathlib.Algebra.BigOperators.Group.Finset.Basic
import Mathlib.Algebra.Order.BigOperators.Group.Finset

/-!
# Whether a session that has left its loop can finish

A session that ends waits for its listeners, and a listener may wait for a slot
of the event channel, which the session no longer drains.  Left to themselves the
session and its listeners finish exactly when the free slots are enough for the
visitors that still need one.  Each listener is seen as a `Task`; the steps the
session can count on move one task at a time.
-/

namespace Yunpan.Relay

open Yunpan.Protocol
open Yunpan.Transition

variable {crates : Crates} {cfg : RelayConfig} {s s' : State}

/-! ## Tasks -/

/-- Where a listener task stands in its loop. -/
inductive Task where
  | ended
  | idle
  | busy (stage : Stage)
  deriving DecidableEq

def State.task (s : State) (i n : ℕ) : Option Task :=
  (s.conns i).listeners[n]?.bind fun l =>
    match l.state with
    | .ended => some .ended
    | .accepting => some .idle
    | .serving v => (s.visitors v).map fun x => .busy x.stage

/-- The slots of the event channel that a task still has to get. -/
def Task.slots : Task → ℕ
  | .busy .ready => 1
  | .busy (.numbered _) => 1
  | .busy (.sending _) => 1
  | .busy (.waiting _) => 1
  | _ => 0

/-- How far a task is from its end. -/
def Task.weight : Task → ℕ
  | .ended => 0
  | .idle => 1
  | .busy .ready => 4
  | .busy (.numbered _) => 3
  | .busy (.sending _) => 2
  | .busy (.waiting _) => 1
  | .busy _ => 2

/-- A move of one task while the free slots go from `room` to `room'`. -/
inductive Task.Own (room room' : ℕ) : Task → Task → Prop
  | retire : room' = room → Task.Own room room' .idle .ended
  | expire {since : ℕ} : room' = room →
      Task.Own room room' (.busy (.tls since)) .idle
  | number {k : UInt64} : room' = room →
      Task.Own room room' (.busy .ready) (.busy (.numbered k))
  | insert {k : UInt64} : room' = room →
      Task.Own room room' (.busy (.numbered k)) (.busy (.sending k))
  | send {k : UInt64} : room = room' + 1 →
      Task.Own room room' (.busy (.sending k)) .idle
  | wait {k : UInt64} : room = 0 → room' = 0 →
      Task.Own room room' (.busy (.sending k)) (.busy (.waiting k))
  | resume {k : UInt64} : room' = room →
      Task.Own room room' (.busy (.granted k)) .idle

theorem Task.Own.weight_lt {room room' : ℕ} {t t' : Task}
    (h : Task.Own room room' t t') : t'.weight < t.weight := by
  cases h <;> simp [Task.weight]

/-- A task gives back the need for a slot exactly when it takes one. -/
theorem Task.Own.slots_add {room room' : ℕ} {t t' : Task}
    (h : Task.Own room room' t t') : t.slots + room' = t'.slots + room := by
  cases h <;> simp only [Task.slots] <;> omega

/-- The sum of a measure over the listener tasks of a session. -/
def State.total (s : State) (i : ℕ) (f : Task → ℕ) : ℕ :=
  ∑ n ∈ Finset.range (s.conns i).listeners.length, ((s.task i n).elim 0 f)

theorem task_lt {i n : ℕ} {t : Task} (h : s.task i n = some t) :
    n < (s.conns i).listeners.length := by
  obtain ⟨l, hl, -⟩ := Option.bind_eq_some_iff.mp h
  exact (List.getElem?_eq_some_iff.mp hl).1

theorem total_congr {i : ℕ} (f : Task → ℕ)
    (hlength : (s'.conns i).listeners.length = (s.conns i).listeners.length)
    (hsame : ∀ n, s'.task i n = s.task i n) : s'.total i f = s.total i f := by
  simp only [State.total, hlength, hsame]

/-- One task moves and the sum moves with it. -/
theorem total_replace {i n : ℕ} {t t' : Task} (f : Task → ℕ)
    (hlength : (s'.conns i).listeners.length = (s.conns i).listeners.length)
    (ht : s.task i n = some t) (ht' : s'.task i n = some t')
    (hsame : ∀ m, m ≠ n → s'.task i m = s.task i m) :
    s'.total i f + f t = s.total i f + f t' := by
  have hn : n ∈ Finset.range (s.conns i).listeners.length :=
    Finset.mem_range.mpr (task_lt ht)
  have hrest : ∑ m ∈ (Finset.range (s.conns i).listeners.length).erase n,
      (s'.task i m).elim 0 f =
      ∑ m ∈ (Finset.range (s.conns i).listeners.length).erase n,
        (s.task i m).elim 0 f :=
    Finset.sum_congr rfl fun m hm => by rw [hsame m (Finset.ne_of_mem_erase hm)]
  rw [State.total, State.total, hlength, ← Finset.add_sum_erase _ _ hn,
    ← Finset.add_sum_erase _ _ hn, hrest, ht, ht']
  simp only [Option.elim_some]
  omega

theorem le_total {i n : ℕ} {t : Task} (f : Task → ℕ) (h : s.task i n = some t) :
    f t ≤ s.total i f := by
  have hn : n ∈ Finset.range (s.conns i).listeners.length :=
    Finset.mem_range.mpr (task_lt h)
  have := Finset.single_le_sum (f := fun m => (s.task i m).elim 0 f)
    (fun _ _ => Nat.zero_le _) hn
  simpa [h, State.total] using this

/-! ## What a step does to the tasks -/

/-- The visitor that a listener is dispatching shows in its task. -/
theorem task_of_awaits (hattended : s.Attended) {i n v : ℕ} {x : Visitor}
    (hx : s.visitors v = some x) (horigin : x.origin = .listener i n)
    (hopen : x.stage.isOpen = true) : s.task i n = some (.busy x.stage) := by
  obtain ⟨l, hl, hserving⟩ := (hattended i n v).mpr ⟨x, hx, horigin, hopen⟩
  simp [State.task, hl, hserving, hx]

/-- A step that touches one listener and its visitor moves no other task. -/
theorem task_frame (hattended : s.Attended) {i n v : ℕ} {x : Visitor}
    (hx : s.visitors v = some x) (horigin : x.origin = .listener i n)
    (hl : ∀ m, m ≠ n → (s'.conns i).listeners[m]? = (s.conns i).listeners[m]?)
    (hv : ∀ w, w ≠ v → s'.visitors w = s.visitors w) {m : ℕ} (hm : m ≠ n) :
    s'.task i m = s.task i m := by
  rw [State.task, hl m hm, State.task]
  cases hlistener : (s.conns i).listeners[m]? with
  | none => rfl
  | some l =>
      cases hstate : l.state with
      | accepting => simp [hstate]
      | ended => simp [hstate]
      | serving w =>
          have hw : w ≠ v := by
            rintro rfl
            obtain ⟨y, hy, horigin', -⟩ := (hattended i m w).mp ⟨l, hlistener, hstate⟩
            obtain rfl : x = y := Option.some.inj (hx.symm.trans hy)
            rw [horigin] at horigin'
            cases horigin'
            exact hm rfl
          simp [hstate, hv w hw]

theorem task_congr {i n : ℕ} (hl : (s'.conns i).listeners = (s.conns i).listeners)
    (hv : s'.visitors = s.visitors) : s'.task i n = s.task i n := by
  rw [State.task, hl, hv, State.task]

/-- One task of session `i` moves by itself. -/
structure TaskMoves (s s' : State) (i n : ℕ) (t t' : Task) : Prop where
  before : s.task i n = some t
  after : s'.task i n = some t'
  others : ∀ m, m ≠ n → s'.task i m = s.task i m
  length : (s'.conns i).listeners.length = (s.conns i).listeners.length
  own : Task.Own (s.conns i).room (s'.conns i).room t t'

/-- A visitor of a listener advances and stays open. -/
theorem taskMoves_advance (stage : Stage) (hattended : s.Attended) {i n v : ℕ}
    {x : Visitor} (hx : s.visitors v = some x) (horigin : x.origin = .listener i n)
    (hopen : x.stage.isOpen = true)
    (hl : (s'.conns i).listeners = (s.conns i).listeners)
    (hv : s'.visitors = Function.update s.visitors v (some { x with stage := stage }))
    (hown : Task.Own (s.conns i).room (s'.conns i).room (.busy x.stage) (.busy stage)) :
    TaskMoves s s' i n (.busy x.stage) (.busy stage) where
  before := task_of_awaits hattended hx horigin hopen
  after := by
    obtain ⟨l, hlistener, hserving⟩ := (hattended i n v).mpr ⟨x, hx, horigin, hopen⟩
    simp [State.task, hl, hlistener, hserving, hv]
  others _ hm := task_frame hattended hx horigin (fun _ _ => by rw [hl])
    (fun w hw => by simp [hv, hw]) hm
  length := by rw [hl]
  own := hown

/-- A visitor of a listener is settled. -/
theorem taskMoves_release (stage : Stage) (hattended : s.Attended) {i n v : ℕ}
    {x : Visitor} (hx : s.visitors v = some x) (horigin : x.origin = .listener i n)
    (hopen : x.stage.isOpen = true)
    (hl : (s'.conns i).listeners = x.origin.touch true i (s.conns i).listeners)
    (hv : s'.visitors = Function.update s.visitors v (some { x with stage := stage }))
    (hown : Task.Own (s.conns i).room (s'.conns i).room (.busy x.stage) .idle) :
    TaskMoves s s' i n (.busy x.stage) .idle where
  before := task_of_awaits hattended hx horigin hopen
  after := by
    obtain ⟨l, hlistener, hserving⟩ := (hattended i n v).mpr ⟨x, hx, horigin, hopen⟩
    simp [State.task, hl, horigin, touch_getElem?, hlistener]
  others m hm := task_frame hattended hx horigin
    (fun m hm => by simp [hl, horigin, touch_getElem?, hm])
    (fun w hw => by simp [hv, hw]) hm
  length := by simp [hl, horigin, Origin.touch]
  own := hown

/-! ## Steps the session can count on -/

/-- The visitor was accepted by a listener of session `i`. -/
def State.OfSession (s : State) (i v : ℕ) : Prop :=
  ∃ x n, s.visitors v = some x ∧ x.origin = .listener i n

/-- Steps that need no other party: the clock, the session itself, its listeners,
and what they do for their visitors. -/
def Own (i : ℕ) (s : State) : Label → Prop
  | .advance _ => True
  | .conn j _ => j = i
  | .unregister j => j = i
  | .retire j _ => j = i
  | .tls v result => result = .timeout ∧ s.OfSession i v
  | .number v => s.OfSession i v
  | .insert v => s.OfSession i v
  | .send v => s.OfSession i v
  | .resume v => s.OfSession i v
  | .unwind v => s.OfSession i v
  | _ => False

/-- The labels among these that move a listener. -/
def Label.ofListener : Label → Bool
  | .advance _ => false
  | .conn _ _ => false
  | .unregister _ => false
  | _ => true

theorem State.Addressed.session_of_origin (h : s.Addressed cfg) {v i n : ℕ}
    {x : Visitor}
    {target : Target} (hx : s.visitors v = some x) (horigin : x.origin = .listener i n)
    (htarget : x.target = some target) : target.session = i := by
  obtain ⟨l, -, heq⟩ := h.arrived hx horigin
  rw [htarget] at heq
  cases heq
  rfl

theorem own_listener (hreach : (relay crates cfg).Reachable s) {i : ℕ} {label : Label}
    (hret : (s.conns i).returned = false) (hown : Own i s label)
    (hlistener : label.ofListener = true)
    (h : s.step crates cfg label = some s') : ∃ n t t', TaskMoves s s' i n t t' := by
  have hattended := attended_of_reachable hreach
  have haddressed := addressed_of_reachable hreach
  have hqueued := queued_of_reachable hreach
  cases label with
  | retire j n =>
      obtain rfl : j = i := hown
      obtain ⟨l, hl, hfree, -, rfl⟩ := retire_cases h
      have hother : ∀ m, m ≠ n → ((s.endListener j n).conns j).listeners[m]? =
          (s.conns j).listeners[m]? := fun m hm => by
        simp [endListener_conns, setListener_conns, modify_getElem?, hm]
      refine ⟨n, .idle, .ended, ?_, ?_, fun m hm => ?_, ?_, .retire ?_⟩
      · simp [State.task, hl, hfree]
      · simp [State.task, endListener_conns, setListener_conns, hl]
      · simp [State.task, hother m hm]
      · simp [endListener_conns, setListener_conns]
      · simp [endListener_conns, setListener_conns, Conn.room]
  | tls v result =>
      obtain ⟨rfl, y, n, hy, horigin⟩ := hown
      obtain ⟨x, since, hx, hstage, ⟨hok, -⟩ | ⟨-, rfl⟩⟩ := tls_cases h
      · cases hok
      obtain rfl : x = y := Option.some.inj (hx.symm.trans hy)
      refine ⟨n, _, _, taskMoves_release (.closed none) hattended hx horigin
        (by simp [hstage, Stage.isOpen]) (by simp [release_conns]) (by simp) ?_⟩
      rw [hstage]
      exact .expire (by simp [release_conns, Conn.room])
  | number v =>
      obtain ⟨y, n, hy, horigin⟩ := hown
      obtain ⟨x, hx, hstage, rfl⟩ := number_cases h
      obtain rfl : x = y := Option.some.inj (hx.symm.trans hy)
      refine ⟨n, _, _, taskMoves_advance (.numbered s.nextConnId) hattended hx horigin
        (by simp [hstage, Stage.isOpen]) rfl rfl ?_⟩
      rw [hstage]
      exact .number rfl
  | insert v =>
      obtain ⟨y, n, hy, horigin⟩ := hown
      obtain ⟨x, k, target, hx, hstage, -, rfl⟩ := insert_cases h
      obtain rfl : x = y := Option.some.inj (hx.symm.trans hy)
      refine ⟨n, _, _, taskMoves_advance (.sending k) hattended hx horigin
        (by simp [hstage, Stage.isOpen]) rfl rfl ?_⟩
      rw [hstage]
      exact .insert rfl
  | send v =>
      obtain ⟨y, n, hy, horigin⟩ := hown
      obtain ⟨x, k, target, hx, htarget, hcases⟩ := send_cases h
      obtain rfl : x = y := Option.some.inj (hx.symm.trans hy)
      obtain rfl := haddressed.session_of_origin hx horigin htarget
      obtain ⟨-, hgone, -⟩ | ⟨hstage, -, hroom, rfl⟩ | ⟨hstage, -, hroom, rfl⟩ := hcases
      · rw [hret] at hgone
        cases hgone
      · refine ⟨n, _, _, taskMoves_release (.announced k) hattended hx horigin
          (by simp [hstage, Stage.isOpen]) (by simp [release_conns]) (by simp) ?_⟩
        rw [hstage]
        refine .send ?_
        simp only [Conn.room, State.setStage_conns, release_conns,
          State.setConn_conns, Function.update_self, List.length_append,
          List.length_singleton] at hroom ⊢
        omega
      · refine ⟨n, _, _, taskMoves_advance (.waiting k) hattended hx horigin
          (by simp [hstage, Stage.isOpen]) (by simp) rfl ?_⟩
        rw [hstage]
        exact .wait hroom (by simpa [Conn.room] using hroom)
  | resume v =>
      obtain ⟨y, n, hy, horigin⟩ := hown
      obtain ⟨x, k, target, hx, htarget, hstage, hcases⟩ := resume_cases h
      obtain rfl : x = y := Option.some.inj (hx.symm.trans hy)
      obtain rfl := haddressed.session_of_origin hx horigin htarget
      obtain ⟨hgone, -⟩ | ⟨-, rfl⟩ := hcases
      · rw [hret] at hgone
        cases hgone
      · have hroom := resume_room (hqueued.granted hx htarget hstage)
          (x.notice target k)
        refine ⟨n, _, _, taskMoves_release (.announced k) hattended hx horigin
          (by simp [hstage, Stage.isOpen]) (by simp [release_conns]) (by simp) ?_⟩
        rw [hstage]
        exact .resume (by simpa [release_conns, Conn.room] using hroom)
  | unwind v =>
      obtain ⟨y, n, hy, horigin⟩ := hown
      obtain ⟨x, k, hx, hstage, -⟩ := unwind_cases h
      obtain rfl : x = y := Option.some.inj (hx.symm.trans hy)
      obtain ⟨target, htarget⟩ :=
        (haddressed.visitor hx).decided (by simp [hstage])
      obtain rfl := haddressed.session_of_origin hx horigin htarget
      rw [hqueued.failed hx htarget hstage] at hret
      cases hret
  | advance ms => cases hlistener
  | conn j action => cases hlistener
  | unregister j => cases hlistener
  | _ => exact hown.elim

/-- The other steps the session can count on move no listener. -/
theorem own_quiet {i : ℕ} {label : Label} (hown : Own i s label)
    (hlistener : label.ofListener = false) (h : s.step crates cfg label = some s') :
    (∀ n, s'.task i n = s.task i n) ∧
      (s'.conns i).listeners.length = (s.conns i).listeners.length ∧
      (s'.conns i).room = (s.conns i).room := by
  cases label with
  | advance ms => cases h; exact ⟨fun _ => rfl, rfl, rfl⟩
  | conn j action =>
      obtain rfl : j = i := hown
      obtain ⟨c, hact, rfl⟩ := conn_cases h
      have hsame := act_channels hact
      refine ⟨fun n => task_congr (by simpa using hsame.listeners) rfl, ?_, ?_⟩
      · simp [hsame.listeners]
      · simp [Conn.room, hsame.queue, hsame.granted]
  | unregister j =>
      obtain rfl : j = i := hown
      obtain ⟨clientId, -, rfl⟩ := unregister_cases h
      refine ⟨fun n => task_congr ?_ (by simp), ?_, ?_⟩ <;>
        simp [moveHandle_conns, Conn.room]
  | _ => cases hlistener

/-! ## Runs without help -/

/-- The phases after the loop has ended by `break`. -/
def ControlPhase.ending : ControlPhase → Bool
  | .stop => true
  | .join _ => true
  | .unregister => true
  | .finish => true
  | .returned false => true
  | _ => false

def OwnStep (crates : Crates) (cfg : RelayConfig) (i : ℕ) (s s' : State) : Prop :=
  ∃ label, Own i s label ∧ s.step crates cfg label = some s'

/-- Steps of the session and its listeners alone lead to its end. -/
def CanFinish (crates : Crates) (cfg : RelayConfig) (i : ℕ) (s : State) : Prop :=
  ∃ s', Relation.ReflTransGen (OwnStep crates cfg i) s s' ∧
    (s'.conns i).returned = true ∧ s'.CleanedUp i

/-- The slots that the listeners of the session still have to get. -/
def State.needed (s : State) (i : ℕ) : ℕ := s.total i Task.slots

theorem OwnStep.reachable {i : ℕ} (h : OwnStep crates cfg i s s')
    (hreach : (relay crates cfg).Reachable s) : (relay crates cfg).Reachable s' := by
  obtain ⟨label, -, hstep⟩ := h
  exact hreach.step hstep

theorem ending_of_looping {phase : ControlPhase} (h : phase.looping = true) :
    phase.ending = false := by
  cases phase <;> first | rfl | cases h

theorem ControlStep.ending {label : Label} {i : ℕ} {phase phase' : ControlPhase}
    (h : ControlStep crates s label i phase phase') (hending : phase.ending = true) :
    phase'.ending = true := by
  cases h with
  | same => exact hending
  | own _ hmove =>
      cases hmove with
      | loop hlooping => rw [ending_of_looping hlooping] at hending; cases hending
      | leave => rfl
      | lost hlost =>
          obtain ⟨_, _, -, rfl⟩ := write_of_losesReply hlost
          cases hending
      | _ => rfl
  | unregister => rfl
  | _ => cases hending

theorem OwnStep.ending {i : ℕ} {clientId : String} {phase : ControlPhase}
    (h : OwnStep crates cfg i s s')
    (hphase : (s.conns i).phase = .control clientId phase)
    (hending : phase.ending = true) : ∃ phase',
      (s'.conns i).phase = .control clientId phase' ∧ phase'.ending = true := by
  obtain ⟨label, -, hstep⟩ := h
  obtain ⟨phase', hsession⟩ := step_session hstep hphase
  exact ⟨phase', hsession.phase_eq, hsession.moves.ending hending⟩

/-- What is needed and what is free change together. -/
theorem OwnStep.needed_add {i : ℕ} (h : OwnStep crates cfg i s s')
    (hreach : (relay crates cfg).Reachable s) (hret : (s.conns i).returned = false) :
    s.needed i + (s'.conns i).room = s'.needed i + (s.conns i).room := by
  obtain ⟨label, hown, hstep⟩ := h
  cases hlistener : label.ofListener with
  | true =>
      obtain ⟨n, t, t', hmoves⟩ := own_listener hreach hret hown hlistener hstep
      have htotal := total_replace Task.slots hmoves.length hmoves.before hmoves.after
        hmoves.others
      have hslots := hmoves.own.slots_add
      simp only [State.needed]
      omega
  | false =>
      obtain ⟨hsame, hlength, hroom⟩ := own_quiet hown hlistener hstep
      rw [State.needed, State.needed, total_congr _ hlength hsame, hroom]

theorem needed_of_cleanedUp {i : ℕ} (h : s.CleanedUp i) : s.needed i = 0 := by
  rw [State.needed, State.total]
  refine Finset.sum_eq_zero fun n _ => ?_
  cases hl : (s.conns i).listeners[n]? with
  | none => simp [State.task, hl]
  | some l => simp [State.task, hl, h.listeners l (List.mem_of_getElem? hl), Task.slots]

theorem cleanedUp_of_ending (hreach : (relay crates cfg).Reachable s) {i : ℕ}
    {clientId : String} {phase : ControlPhase}
    (hphase : (s.conns i).phase = .control clientId phase)
    (hending : phase.ending = true) (hret : (s.conns i).returned = true) :
    s.CleanedUp i := by
  obtain ⟨owner, early, hreturned⟩ := returned_iff.mp hret
  rw [hphase] at hreturned
  cases hreturned
  cases early with
  | true => cases hending
  | false =>
      exact cleanedUp_of_done hreach
        ((orderly_of_reachable hreach i).done.mpr ⟨_, hphase⟩)

/-- The listeners can do with the free slots after a step of the session alone if
and only if they could before. -/
theorem OwnStep.needed_le_iff {i : ℕ} {clientId : String} {phase : ControlPhase}
    (h : OwnStep crates cfg i s s') (hreach : (relay crates cfg).Reachable s)
    (hphase : (s.conns i).phase = .control clientId phase)
    (hending : phase.ending = true) :
    s.needed i ≤ (s.conns i).room ↔ s'.needed i ≤ (s'.conns i).room := by
  cases hret : (s.conns i).returned with
  | false =>
      have hadd := h.needed_add hreach hret
      omega
  | true =>
      obtain ⟨phase', hphase', hending'⟩ := h.ending hphase hending
      have hret' : (s'.conns i).returned = true := by
        obtain ⟨label, -, hstep⟩ := h
        exact Conn.returned_mono hstep hret
      rw [needed_of_cleanedUp (cleanedUp_of_ending hreach hphase hending hret),
        needed_of_cleanedUp
          (cleanedUp_of_ending (h.reachable hreach) hphase' hending' hret')]
      exact iff_of_true (Nat.zero_le _) (Nat.zero_le _)

/-- Slots that are missing now are missing for good. -/
theorem needed_le_of_canFinish {i : ℕ} {clientId : String} {phase : ControlPhase}
    (hreach : (relay crates cfg).Reachable s)
    (hphase : (s.conns i).phase = .control clientId phase)
    (hending : phase.ending = true) (h : CanFinish crates cfg i s) :
    s.needed i ≤ (s.conns i).room := by
  obtain ⟨last, hrun, -, hclean⟩ := h
  induction hrun using Relation.ReflTransGen.head_induction_on generalizing phase with
  | refl => simp [needed_of_cleanedUp hclean]
  | head hstep _ ih =>
      obtain ⟨phase', hphase', hending'⟩ := hstep.ending hphase hending
      exact (hstep.needed_le_iff hreach hphase hending).mpr
        (ih (hstep.reachable hreach) hphase' hending')

/-! ## Enough slots are enough -/

/-- How far the session itself is from its end. -/
def ControlPhase.remaining (listeners : ℕ) : ControlPhase → ℕ
  | .stop => listeners + 4
  | .join next => listeners - next + 3
  | .unregister => 2
  | .finish => 1
  | _ => 0

/-- How far a session is from its end, its listeners included. -/
def State.remaining (s : State) (i : ℕ) : ℕ :=
  s.total i Task.weight +
    match (s.conns i).phase with
    | .control _ phase => phase.remaining (s.conns i).listeners.length
    | _ => 0

/-- A step of the session itself brings it nearer to its end. -/
theorem remaining_lt_of_session {i : ℕ} {clientId : String}
    {phase phase' : ControlPhase}
    {label : Label} (hphase : (s.conns i).phase = .control clientId phase)
    (hphase' : (s'.conns i).phase = .control clientId phase')
    (hown : Own i s label) (hlistener : label.ofListener = false)
    (h : s.step crates cfg label = some s')
    (hlt : phase'.remaining (s.conns i).listeners.length <
      phase.remaining (s.conns i).listeners.length) :
    s'.remaining i < s.remaining i := by
  obtain ⟨hsame, hlength, -⟩ := own_quiet hown hlistener h
  rw [State.remaining, State.remaining, hphase, hphase', total_congr _ hlength hsame,
    hlength]
  exact Nat.add_lt_add_left hlt _

/-- A step of a listener brings the session nearer to its end. -/
theorem remaining_lt_of_listener {i : ℕ} {label : Label}
    (hreach : (relay crates cfg).Reachable s) (hret : (s.conns i).returned = false)
    (hown : Own i s label) (hlistener : label.ofListener = true)
    (hsame : (s'.conns i).phase = (s.conns i).phase)
    (h : s.step crates cfg label = some s') : s'.remaining i < s.remaining i := by
  obtain ⟨n, t, t', hmoves⟩ := own_listener hreach hret hown hlistener h
  have htotal := total_replace Task.weight hmoves.length hmoves.before hmoves.after
    hmoves.others
  have hweight := hmoves.own.weight_lt
  rw [State.remaining, State.remaining, hsame, hmoves.length]
  omega

theorem own_phase {i : ℕ} {clientId : String} {phase : ControlPhase} {label : Label}
    (hphase : (s.conns i).phase = .control clientId phase)
    (hown : Own i s label) (hlistener : label.ofListener = true)
    (h : s.step crates cfg label = some s') :
      (s'.conns i).phase = (s.conns i).phase := by
  obtain ⟨phase', hsession⟩ := step_session h hphase
  rw [hsession.phase_eq, hphase]
  cases hsession.moves with
  | same => rfl
  | own hlabel => subst hlabel; cases hlistener
  | unregister hlabel => subst hlabel; cases hlistener
  | free hlabel => subst hlabel; exact hown.elim
  | take hlabel => subst hlabel; exact hown.elim
  | signal hlabel => subst hlabel; exact hown.elim
  | waited hlabel => subst hlabel; exact hown.elim
  | register hlabel => subst hlabel; exact hown.elim
  | event hlabel => subst hlabel; exact hown.elim
  | bound hlabel => subst hlabel; exact hown.elim

/-- Nobody waits in vain while the free slots are enough. -/
theorem not_waiting (hreach : (relay crates cfg).Reachable s) {i v n : ℕ} {x : Visitor}
    {k : UInt64} (hret : (s.conns i).returned = false)
    (hle : s.needed i ≤ (s.conns i).room) (hx : s.visitors v = some x)
    (horigin : x.origin = .listener i n) : x.stage ≠ .waiting k := by
  intro hstage
  have haddressed := addressed_of_reachable hreach
  have hqueued := queued_of_reachable hreach
  obtain ⟨target, htarget⟩ := (haddressed.visitor hx).decided (by simp [hstage])
  obtain rfl := haddressed.session_of_origin hx horigin htarget
  have hmem := hqueued.waiting hx htarget hstage
  have hfull := hqueued.full _ hret (List.ne_nil_of_mem hmem)
  have htask := task_of_awaits (attended_of_reachable hreach) hx horigin
    (by simp [hstage, Stage.isOpen])
  have hslot := le_total Task.slots htask
  rw [hstage] at hslot
  have hone : 1 ≤ s.needed target.session := hslot
  omega

/-- A listener with a visitor can go on, given time. -/
theorem serving_step (hreach : (relay crates cfg).Reachable s) {i n v : ℕ} {x : Visitor}
    (hret : (s.conns i).returned = false) (hle : s.needed i ≤ (s.conns i).room)
    (hx : s.visitors v = some x) (horigin : x.origin = .listener i n)
    (hopen : x.stage.isOpen = true)
    (hclock : ∀ since, x.stage = .tls since → since + handshakeTimeout ≤ s.now) :
    ∃ label, Own i s label ∧ label.ofListener = true ∧
      (s.step crates cfg label).isSome = true := by
  have haddressed := addressed_of_reachable hreach
  have hattended := attended_of_reachable hreach
  have hmine : s.OfSession i v := ⟨x, n, hx, horigin⟩
  obtain ⟨l, -, htarget⟩ := haddressed.arrived hx horigin
  cases hstage : x.stage with
  | tls since =>
      exact ⟨.tls v .timeout, ⟨rfl, hmine⟩, rfl,
        by simp [State.step, State.tls, hx, hstage, hclock since hstage]⟩
  | reading since =>
      have hnone := (haddressed.visitor hx).reading hstage
      rw [htarget] at hnone
      cases hnone
  | ready =>
      exact ⟨.number v, hmine, rfl, by simp [State.step, State.number, hx, hstage]⟩
  | numbered k =>
      exact ⟨.insert v, hmine, rfl,
        by simp [State.step, State.insert, hx, hstage, htarget]⟩
  | sending k =>
      have hslot := le_total Task.slots (task_of_awaits hattended hx horigin hopen)
      rw [hstage] at hslot
      have hroom : 0 < (s.conns i).room := lt_of_lt_of_le Nat.zero_lt_one
        (le_trans hslot hle)
      exact ⟨.send v, hmine, rfl,
        by simp [State.step, State.send, hx, hstage, htarget, hret, hroom]⟩
  | waiting k => exact absurd hstage (not_waiting hreach hret hle hx horigin)
  | granted k =>
      exact ⟨.resume v, hmine, rfl,
        by simp [State.step, State.resume, hx, hstage, htarget, hret]⟩
  | failed k =>
      have hgone := (queued_of_reachable hreach).failed hx htarget hstage
      rw [hret] at hgone
      cases hgone
  | announced k => rw [hstage] at hopen; cases hopen
  | refused k => rw [hstage] at hopen; cases hopen
  | closed status => rw [hstage] at hopen; cases hopen

/-- A listener that has not ended can be brought nearer to its end. -/
theorem listener_progress (hreach : (relay crates cfg).Reachable s) {i n : ℕ}
    {clientId : String} {phase : ControlPhase} {l : Listener}
    (hphase : (s.conns i).phase = .control clientId phase)
    (hret : (s.conns i).returned = false) (hshut : (s.conns i).shutdown = true)
    (hle : s.needed i ≤ (s.conns i).room)
    (hl : (s.conns i).listeners[n]? = some l) (hlive : l.state ≠ .ended) :
    ∃ s', Relation.ReflTransGen (OwnStep crates cfg i) s s' ∧
      s'.remaining i < s.remaining i := by
  cases hstate : l.state with
  | ended => exact absurd hstate hlive
  | accepting =>
      have hstep : s.step crates cfg (.retire i n) = some (s.endListener i n) := by
        simp [State.step, State.retire, hl, hstate, Conn.shutdownChanged, hshut]
      have hown : Own i s (.retire i n) := rfl
      exact ⟨_, .single ⟨_, hown, hstep⟩, remaining_lt_of_listener hreach hret hown rfl
        (own_phase hphase hown rfl hstep) hstep⟩
  | serving v =>
      obtain ⟨x, hx, horigin, hopen⟩ :=
        (attended_of_reachable hreach i n v).mp ⟨l, hl, hstate⟩
      -- the TLS handshake of the visitor may have to time out first
      obtain ⟨ms, hclock⟩ : ∃ ms, ∀ since, x.stage = .tls since →
          since + handshakeTimeout ≤ s.now + ms := by
        cases hstage : x.stage with
        | tls since =>
            exact ⟨since + handshakeTimeout, fun since' heq => by cases heq; omega⟩
        | _ => exact ⟨0, fun _ heq => by cases heq⟩
      have hwait : OwnStep crates cfg i s { s with now := s.now + ms } :=
        ⟨.advance ms, trivial, rfl⟩
      have hlater := hwait.reachable hreach
      obtain ⟨label, hown, hlistener, hsome⟩ :=
        serving_step hlater hret hle hx horigin hopen hclock
      obtain ⟨s', hstep⟩ := Option.isSome_iff_exists.mp hsome
      have hlt : s'.remaining i < ({ s with now := s.now + ms } : State).remaining i :=
        remaining_lt_of_listener hlater hret hown hlistener
          (own_phase hphase hown hlistener hstep) hstep
      exact ⟨s', .tail (.single hwait) ⟨label, hown, hstep⟩, hlt⟩

/-- A session that has not finished can be brought nearer to its end. -/
theorem session_progress (hreach : (relay crates cfg).Reachable s) {i : ℕ}
    {clientId : String} {phase : ControlPhase}
    (hphase : (s.conns i).phase = .control clientId phase)
    (hending : phase.ending = true) (hret : (s.conns i).returned = false)
    (hle : s.needed i ≤ (s.conns i).room) :
    ∃ s', Relation.ReflTransGen (OwnStep crates cfg i) s s' ∧
      s'.remaining i < s.remaining i := by
  have horderly := orderly_of_reachable hreach i
  have hself : ∀ {label : Label} {s' : State} {phase' : ControlPhase},
      s.step crates cfg label = some s' → Own i s label → label.ofListener = false →
      (s'.conns i).phase = .control clientId phase' →
      phase'.remaining (s.conns i).listeners.length <
        phase.remaining (s.conns i).listeners.length →
      ∃ s', Relation.ReflTransGen (OwnStep crates cfg i) s s' ∧
        s'.remaining i < s.remaining i :=
    fun hstep hown hlistener hphase' hlt => ⟨_, .single ⟨_, hown, hstep⟩,
      remaining_lt_of_session hphase hphase' hown hlistener hstep hlt⟩
  cases phase with
  | stop =>
      have hstep : s.step crates cfg (.conn i .stop) = some (s.setConn i
          { (s.conns i).goto clientId (.join 0) with shutdown := true }) := by
        simp [State.step, Conn.act, hphase]
      exact hself hstep rfl rfl (by simp; rfl) (by simp [ControlPhase.remaining])
  | join next =>
      cases hl : (s.conns i).listeners[next]? with
      | none =>
          have hstep : s.step crates cfg (.conn i .join) = some (s.setConn i
              ((s.conns i).goto clientId .unregister)) := by
            simp [State.step, Conn.act, hphase, hl]
          exact hself hstep rfl rfl (by simp; rfl) (by simp [ControlPhase.remaining])
      | some l =>
          by_cases hended : l.state = .ended
          · have hstep : s.step crates cfg (.conn i .join) = some (s.setConn i
                ((s.conns i).goto clientId (.join (next + 1)))) := by
              simp [State.step, Conn.act, hphase, hl, hended]
            have hlt := (List.getElem?_eq_some_iff.mp hl).1
            refine hself hstep rfl rfl (by simp; rfl) ?_
            simp only [ControlPhase.remaining]
            omega
          · exact listener_progress hreach hphase hret
              (horderly.shutdown hphase rfl) hle
              hl hended
  | unregister =>
      have hstep : (s.step crates cfg (.unregister i)).isSome = true := by
        simp [State.step, State.unregister, hphase]
      obtain ⟨s', hstep⟩ := Option.isSome_iff_exists.mp hstep
      obtain ⟨owner, howner, rfl⟩ := unregister_cases hstep
      rw [hphase] at howner
      cases howner
      exact hself hstep rfl rfl (by simp; rfl) (by simp [ControlPhase.remaining])
  | finish =>
      have hstep : s.step crates cfg (.conn i .finish) = some (s.setConn i
          { (s.conns i).goto clientId (.returned false) with done := true }) := by
        simp [State.step, Conn.act, hphase]
      exact hself hstep rfl rfl (by simp; rfl) (by simp [ControlPhase.remaining])
  | returned early => simp [Conn.returned, hphase] at hret
  | _ => cases hending

theorem ready_kept {i : ℕ} {clientId : String} {phase : ControlPhase}
    (hreach : (relay crates cfg).Reachable s)
    (hphase : (s.conns i).phase = .control clientId phase)
    (hending : phase.ending = true) (hle : s.needed i ≤ (s.conns i).room)
    (hrun : Relation.ReflTransGen (OwnStep crates cfg i) s s') :
    (relay crates cfg).Reachable s' ∧ s'.needed i ≤ (s'.conns i).room ∧
      ∃ phase', (s'.conns i).phase = .control clientId phase' ∧
        phase'.ending = true := by
  induction hrun with
  | refl => exact ⟨hreach, hle, phase, hphase, hending⟩
  | tail _ hstep ih =>
      obtain ⟨hreach, hle, phase, hphase, hending⟩ := ih
      exact ⟨hstep.reachable hreach, (hstep.needed_le_iff hreach hphase hending).mp hle,
        hstep.ending hphase hending⟩

/-- With enough free slots the session finishes, step by step. -/
theorem canFinish_of_needed_le {i : ℕ} {clientId : String} {phase : ControlPhase}
    (hreach : (relay crates cfg).Reachable s)
    (hphase : (s.conns i).phase = .control clientId phase)
    (hending : phase.ending = true) (hle : s.needed i ≤ (s.conns i).room) :
    CanFinish crates cfg i s := by
  induction hremaining : s.remaining i using Nat.strong_induction_on
    generalizing s phase with
  | _ remaining ih =>
      cases hret : (s.conns i).returned with
      | true =>
          exact ⟨s, .refl, hret, cleanedUp_of_ending hreach hphase hending hret⟩
      | false =>
          obtain ⟨next, hrun, hlt⟩ := session_progress hreach hphase hending hret hle
          obtain ⟨hreach', hle', phase', hphase', hending'⟩ :=
            ready_kept hreach hphase hending hle hrun
          obtain ⟨last, hrest, hend⟩ :=
            ih _ (hremaining ▸ hlt) hreach' hphase' hending' hle' rfl
          exact ⟨last, hrun.trans hrest, hend⟩

/-- A session whose loop has ended by `break` can finish without help, and no
listener it awaits waits for a slot, exactly when the free slots of its event
channel are enough for the visitors its listeners are dispatching. -/
theorem canFinish_iff {i : ℕ} {clientId : String} {phase : ControlPhase}
    (hreach : (relay crates cfg).Reachable s)
    (hphase : (s.conns i).phase = .control clientId phase)
    (hending : phase.ending = true) :
    CanFinish crates cfg i s ∧ (∀ n k, s.task i n ≠ some (.busy (.waiting k))) ↔
      s.needed i ≤ (s.conns i).room := by
  constructor
  · exact fun h => needed_le_of_canFinish hreach hphase hending h.1
  · refine fun hle => ⟨canFinish_of_needed_le hreach hphase hending hle, ?_⟩
    intro n k htask
    obtain ⟨l, hl, hbusy⟩ := Option.bind_eq_some_iff.mp htask
    cases hstate : l.state with
    | accepting => rw [hstate] at hbusy; cases hbusy
    | ended => rw [hstate] at hbusy; cases hbusy
    | serving v =>
        rw [hstate] at hbusy
        obtain ⟨x, hx, hstage⟩ := Option.map_eq_some_iff.mp hbusy
        obtain ⟨y, hy, horigin, -⟩ :=
          (attended_of_reachable hreach i n v).mp ⟨l, hl, hstate⟩
        obtain rfl : x = y := Option.some.inj (hx.symm.trans hy)
        cases hret : (s.conns i).returned with
        | false =>
            exact not_waiting hreach hret hle hx horigin (Task.busy.inj hstage)
        | true =>
            have hclean := cleanedUp_of_ending hreach hphase hending hret
            rw [hclean.listeners l (List.mem_of_getElem? hl)] at hstate
            cases hstate

/-- Visitors arrive one after the other while the session reads no event. -/
def crowd (visitors : ℕ) : List Label :=
  (List.range visitors).flatMap fun v => announce 0 0 v

/-- The sixty-fifth visitor waits for a slot, and the session waits for the
listener that dispatches it. -/
theorem session_stuck : ∃ s, (relay sampleCrates sampleConfig).Reachable s ∧
    (s.conns 0).phase = .control "mac" (.join 0) ∧
    s.task 0 0 = some (.busy (.waiting 65)) ∧
    ¬CanFinish sampleCrates sampleConfig 0 s := by
  obtain ⟨s, hreach, hcheck⟩ := sampleLogins_reachable.exists_of_exec
    ([.kick 0, .register 0] ++ openPort 0 "dufs" 8080 ++ crowd 65 ++
      [.conn 0 (.read (some (.bye "quit"))), .conn 0 .stop])
    (fun s : State => decide ((s.conns 0).phase = .control "mac" (.join 0) ∧
      s.task 0 0 = some (.busy (.waiting 65)) ∧ (s.conns 0).room = 0))
    (by decide +kernel)
  obtain ⟨hphase, htask, hroom⟩ := of_decide_eq_true hcheck
  refine ⟨s, hreach, hphase, htask, fun hfinish => ?_⟩
  have hle := needed_le_of_canFinish hreach hphase rfl hfinish
  have hone : 1 ≤ s.needed 0 := le_total Task.slots htask
  omega

/-- A session that ends while its listener has a visitor to announce. -/
theorem canFinish_iff_sample : ∃ s, (relay sampleCrates sampleConfig).Reachable s ∧
    s.task 0 0 = some (.busy .ready) ∧ CanFinish sampleCrates sampleConfig 0 s := by
  obtain ⟨s, hreach, hcheck⟩ := sampleLogins_reachable.exists_of_exec
    ([.kick 0, .register 0] ++ openPort 0 "dufs" 8080 ++
      [.arrive 0 0 0 "203.0.113.7:50000", .conn 0 (.read (some (.bye "quit")))])
    (fun s : State => decide ((s.conns 0).phase = .control "mac" .stop ∧
      s.task 0 0 = some (.busy .ready) ∧ s.needed 0 ≤ (s.conns 0).room))
    (by decide +kernel)
  obtain ⟨hphase, htask, hle⟩ := of_decide_eq_true hcheck
  exact ⟨s, hreach, htask, ((canFinish_iff hreach hphase rfl).mpr hle).1⟩

end Yunpan.Relay
