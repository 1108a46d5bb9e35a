import Yunpan.Relay.Listeners

/-!
# The books of the event channel

A visitor waits for a slot of its session's event channel.  The channel knows who
waits, hands a freed slot to the first of them, and keeps nobody waiting while a
slot is free.
-/

namespace Yunpan.Relay

open Yunpan.Protocol
open Yunpan.Transition

variable {crates : Crates} {cfg : RelayConfig} {s s' : State}

/-- Who waits for a slot is known to the channel, who was handed one has it, and
nobody waits while a slot is free. -/
structure State.Queued (s : State) : Prop where
  waiting : ∀ {v x target k}, s.visitors v = some x → x.target = some target →
    x.stage = .waiting k → v ∈ (s.conns target.session).waiters
  granted : ∀ {v x target k}, s.visitors v = some x → x.target = some target →
    x.stage = .granted k → v ∈ (s.conns target.session).granted
  failed : ∀ {v x target k}, s.visitors v = some x → x.target = some target →
    x.stage = .failed k → (s.conns target.session).returned = true
  waiter : ∀ {i v}, v ∈ (s.conns i).waiters → ∃ x target, s.visitors v = some x ∧
    x.target = some target ∧ target.session = i
  full : ∀ i, (s.conns i).returned = false → (s.conns i).waiters ≠ [] →
    (s.conns i).room = 0

theorem queued_init : State.init.Queued := by
  constructor <;> simp [State.init, Conn.fresh]

/-- The labels of steps on an event channel. -/
def Label.onQueue : Label → Bool
  | .event _ => true
  | .send _ => true
  | .resume _ => true
  | _ => false

/-- The stages in which a sender is inside `send` of the event channel. -/
def Stage.inSend : Stage → Bool
  | .waiting _ => true
  | .granted _ => true
  | .failed _ => true
  | _ => false

theorem step_queue {label : Label} (h : s.step crates cfg label = some s')
    (hlabel : label.onQueue = false) (j : ℕ) :
    (s'.conns j).queue = (s.conns j).queue ∧
      (s'.conns j).granted = (s.conns j).granted ∧
      (s'.conns j).waiters = (s.conns j).waiters := by
  cases step_flow h j with
  | same h => exact ⟨h.1, h.2.1, h.2.2.1⟩
  | opened _ _ _ h => exact ⟨h.1, h.2.1, h.2.2.1⟩
  | taken _ heq => subst heq; cases hlabel
  | handed _ _ heq => subst heq; cases hlabel
  | sent heq => subst heq; cases hlabel
  | parked heq => subst heq; cases hlabel
  | resumed heq => subst heq; cases hlabel

theorem step_inSend {label : Label} (h : s.step crates cfg label = some s')
    (hlabel : label.onQueue = false) {v : ℕ} {x : Visitor}
    (hx : s'.visitors v = some x) (hstage : x.stage.inSend = true) :
    s.visitors v = some x := by
  have hmove := step_visitor h v
  rw [hx] at hmove
  generalize hold : s.visitors v = before at hmove
  cases hmove with
  | same => rfl
  | arrive _ _ hnew => rcases hnew with rfl | rfl <;> cases hstage
  | route _ hnew => rcases hnew with rfl | rfl <;> cases hstage
  | @secured y =>
      by_cases horigin : y.origin = .router <;> simp [horigin, Stage.inSend] at hstage
  | dispatch => cases hstage
  | @next y stage hnext =>
      generalize y.stage = before' at hnext
      cases hnext with
      | close | answer | number | insert | send | resume | unwind => cases hstage
      | _ hlabel' => subst hlabel'; cases hlabel

theorem State.Queued.step_other (hs : s.Queued) (haddressed : s.Addressed cfg)
    {label : Label} (h : s.step crates cfg label = some s')
    (hlabel : label.onQueue = false) : s'.Queued := by
  have hqueue := step_queue h hlabel
  have hroom : ∀ j, (s'.conns j).room = (s.conns j).room := fun j => by
    rw [Conn.room, (hqueue j).1, (hqueue j).2.1, Conn.room]
  constructor
  · intro v x target k hx htarget hstage
    rw [(hqueue _).2.2]
    exact hs.waiting (step_inSend h hlabel hx (by simp [hstage, Stage.inSend]))
      htarget hstage
  · intro v x target k hx htarget hstage
    rw [(hqueue _).2.1]
    exact hs.granted (step_inSend h hlabel hx (by simp [hstage, Stage.inSend]))
      htarget hstage
  · intro v x target k hx htarget hstage
    exact Conn.returned_mono h <|
      hs.failed (step_inSend h hlabel hx (by simp [hstage, Stage.inSend]))
        htarget hstage
  · intro i v hv
    rw [(hqueue i).2.2] at hv
    obtain ⟨x, target, hx, htarget, hsession⟩ := hs.waiter hv
    obtain ⟨y, hy, -, hkept, -⟩ := (hx ▸ step_visitor h v).kept (haddressed.visitor hx)
    exact ⟨y, target, hy, hkept _ htarget, hsession⟩
  · intro i hret hne
    rw [(hqueue i).2.2] at hne
    rw [hroom]
    refine hs.full i ?_ hne
    by_contra hcontra
    rw [Conn.returned_mono h (by simpa using hcontra)] at hret
    cases hret

theorem grant_visitor {v w : ℕ} {y : Visitor} (hy : (s.grant v).visitors w = some y) :
    ∃ x, s.visitors w = some x ∧ y.target = x.target ∧
      ((w = v ∧ y.stage = x.stage.grant) ∨ (w ≠ v ∧ y.stage = x.stage)) := by
  by_cases hw : w = v
  · subst hw
    obtain ⟨x, hx, rfl⟩ := Option.map_eq_some_iff.mp (by simpa using hy)
    exact ⟨x, hx, rfl, Or.inl ⟨rfl, rfl⟩⟩
  · exact ⟨y, by simpa [hw] using hy, rfl, Or.inr ⟨hw, rfl⟩⟩

theorem grant_kept {v w : ℕ} {x : Visitor} (hx : s.visitors w = some x) :
    ∃ y, (s.grant v).visitors w = some y ∧ y.target = x.target := by
  by_cases hw : w = v
  · subst hw
    exact ⟨{ x with stage := x.stage.grant }, by simp [hx], rfl⟩
  · exact ⟨x, by simpa [hw] using hx, rfl⟩

/-- A message was received while nobody waits for the slot it frees. -/
theorem State.Queued.taken (hs : s.Queued) {i : ℕ} {c : Conn}
    (hrunning : (s.conns i).returned = false) (hnil : (s.conns i).waiters = [])
    (hc : c.granted = (s.conns i).granted ∧ c.waiters = []) :
    (s.setConn i c).Queued := by
  constructor
  · intro v x target k hx htarget hstage
    have hold := hs.waiting hx htarget hstage
    by_cases hj : target.session = i
    · simp [hj, hnil] at hold
    · simpa [hj] using hold
  · intro v x target k hx htarget hstage
    have hold := hs.granted hx htarget hstage
    by_cases hj : target.session = i
    · simpa [hj, hc.1] using hold
    · simpa [hj] using hold
  · intro v x target k hx htarget hstage
    have hold := hs.failed hx htarget hstage
    by_cases hj : target.session = i
    · rw [hj, hrunning] at hold
      cases hold
    · simpa [hj] using hold
  · intro j v hv
    by_cases hj : j = i
    · simp [hj, hc.2] at hv
    · exact hs.waiter (by simpa [hj] using hv)
  · intro j hret hne
    by_cases hj : j = i
    · simp [hj, hc.2] at hne
    · simpa [hj] using hs.full j (by simpa [hj] using hret) (by simpa [hj] using hne)

/-- The slot that a received message frees goes to the first waiting sender. -/
theorem State.Queued.handed (hs : s.Queued) {i v : ℕ} {c : Conn}
    (hrunning : (s.conns i).returned = false)
    (hc : c.granted = v :: (s.conns i).granted ∧ (s.conns i).waiters = v :: c.waiters)
    (hroom : c.room = (s.conns i).room) : ((s.setConn i c).grant v).Queued := by
  obtain ⟨hgranted, hwaiters⟩ := hc
  have hmine : ∀ {x target}, s.visitors v = some x → x.target = some target →
      target.session = i := by
    intro x target hx htarget
    have hv : v ∈ (s.conns i).waiters := by simp [hwaiters]
    obtain ⟨x', target', hx', htarget', hsession⟩ := hs.waiter hv
    rw [hx] at hx'
    cases hx'
    rw [htarget] at htarget'
    cases htarget'
    exact hsession
  constructor
  · intro w y target k hy htarget hstage
    obtain ⟨x, hx, hkept, ⟨rfl, hnew⟩ | ⟨hw, hnew⟩⟩ := grant_visitor hy
    · rw [hnew] at hstage
      cases hbefore : x.stage <;> rw [hbefore] at hstage <;> cases hstage
    · have hold := hs.waiting hx (hkept ▸ htarget) (hnew ▸ hstage)
      by_cases hj : target.session = i
      · rw [hj, hwaiters] at hold
        simpa [hj, hw] using hold
      · simpa [hj] using hold
  · intro w y target k hy htarget hstage
    obtain ⟨x, hx, hkept, ⟨rfl, -⟩ | ⟨hw, hnew⟩⟩ := grant_visitor hy
    · simp [hmine hx (hkept ▸ htarget), hgranted]
    · have hold := hs.granted hx (hkept ▸ htarget) (hnew ▸ hstage)
      by_cases hj : target.session = i
      · rw [hj] at hold
        simp [hj, hgranted, hold]
      · simpa [hj] using hold
  · intro w y target k hy htarget hstage
    obtain ⟨x, hx, hkept, hnew⟩ := grant_visitor hy
    have hbefore : x.stage = .failed k := by
      obtain ⟨-, hnew⟩ | ⟨-, hnew⟩ := hnew
      · rw [hnew] at hstage
        cases hx : x.stage <;> rw [hx] at hstage <;> cases hstage
        rfl
      · rw [← hnew, hstage]
    have hold := hs.failed hx (hkept ▸ htarget) hbefore
    by_cases hj : target.session = i
    · rw [hj, hrunning] at hold
      cases hold
    · simpa [hj] using hold
  · intro j w hw
    have hold : w ∈ (s.conns j).waiters := by
      by_cases hj : j = i
      · subst hj
        rw [hwaiters]
        exact List.mem_cons_of_mem _ (by simpa using hw)
      · simpa [hj] using hw
    obtain ⟨x, target, hx, htarget, hsession⟩ := hs.waiter hold
    obtain ⟨y, hy, hkept⟩ := grant_kept (s := s.setConn i c) (v := v) hx
    exact ⟨y, target, hy, hkept.trans htarget, hsession⟩
  · intro j hret hne
    by_cases hj : j = i
    · subst hj
      have hzero := hs.full j hrunning (by simp [hwaiters])
      simpa [hroom] using hzero
    · simpa [hj] using hs.full j (by simpa [hj] using hret) (by simpa [hj] using hne)

theorem State.Queued.event (hs : s.Queued) {i : ℕ} (h : s.event i = some s') :
    s'.Queued := by
  obtain ⟨clientId, msg, queue, hphase, hqueue, hcases⟩ := event_cases h
  have hrunning : (s.conns i).returned = false := by simp [Conn.returned, hphase]
  obtain ⟨hnil, rfl⟩ | ⟨v, waiters, hwaiters, rfl⟩ := hcases
  · exact hs.taken hrunning hnil ⟨rfl, hnil⟩
  · refine hs.handed hrunning ⟨rfl, hwaiters⟩ ?_
    simp only [Conn.room, hqueue, List.length_cons]
    omega

/-- A sender advances: it may join the waiting senders or give up its slot, and
touches nobody else's place in the channel. -/
theorem State.Queued.sender (hs : s.Queued) {v : ℕ} {x : Visitor} {target : Target}
    (stage : Stage) (hx : s.visitors v = some x) (htarget : x.target = some target)
    (hv : s'.visitors = Function.update s.visitors v (some { x with stage := stage }))
    (hret : ∀ j, (s'.conns j).returned = (s.conns j).returned)
    (hothers : ∀ j w, w ≠ v →
      (w ∈ (s'.conns j).waiters ↔ w ∈ (s.conns j).waiters) ∧
        (w ∈ (s'.conns j).granted ↔ w ∈ (s.conns j).granted))
    (hown : ∀ j, v ∈ (s'.conns j).waiters → v ∈ (s.conns j).waiters ∨
      j = target.session)
    (hfull : ∀ j, (s.conns j).returned = false → (s'.conns j).waiters ≠ [] →
      (s'.conns j).room = 0)
    (hwaiting : ∀ k, stage = .waiting k → v ∈ (s'.conns target.session).waiters)
    (hgranted : ∀ k, stage ≠ .granted k)
    (hfailed : ∀ k, stage = .failed k → (s.conns target.session).returned = true) :
    s'.Queued := by
  have hcases : ∀ {w y target'}, s'.visitors w = some y → y.target = some target' →
      (w = v ∧ y.stage = stage ∧ target' = target) ∨
      (w ≠ v ∧ s.visitors w = some y) := by
    intro w y target' hy htarget'
    by_cases hw : w = v
    · subst hw
      rw [hv, Function.update_self, Option.some.injEq] at hy
      subst hy
      exact Or.inl ⟨rfl, rfl, Option.some.inj (htarget'.symm.trans htarget)⟩
    · exact Or.inr ⟨hw, by simpa [hv, hw] using hy⟩
  constructor
  · intro w y target' k hy htarget' hstage
    obtain ⟨rfl, hnew, rfl⟩ | ⟨hw, hold⟩ := hcases hy htarget'
    · exact hwaiting k (hnew ▸ hstage)
    · exact (hothers _ w hw).1.mpr (hs.waiting hold htarget' hstage)
  · intro w y target' k hy htarget' hstage
    obtain ⟨rfl, hnew, rfl⟩ | ⟨hw, hold⟩ := hcases hy htarget'
    · exact absurd (hnew ▸ hstage) (hgranted k)
    · exact (hothers _ w hw).2.mpr (hs.granted hold htarget' hstage)
  · intro w y target' k hy htarget' hstage
    rw [hret]
    obtain ⟨rfl, hnew, rfl⟩ | ⟨hw, hold⟩ := hcases hy htarget'
    · exact hfailed k (hnew ▸ hstage)
    · exact hs.failed hold htarget' hstage
  · intro j w hw
    by_cases hself : w = v
    · subst hself
      refine ⟨{ x with stage := stage }, target, by simp [hv], htarget, ?_⟩
      rcases hown j hw with hold | hj
      · obtain ⟨x', target', hx', htarget', hsession⟩ := hs.waiter hold
        rw [hx] at hx'
        cases hx'
        rw [htarget] at htarget'
        cases htarget'
        exact hsession
      · exact hj.symm
    · obtain ⟨y, target', hy, htarget', hsession⟩ :=
        hs.waiter ((hothers j w hself).1.mp hw)
      exact ⟨y, target', by simpa [hv, hself] using hy, htarget', hsession⟩
  · intro j hrunning hne
    exact hfull j ((hret j).symm.trans hrunning) hne

theorem State.Queued.send (hs : s.Queued) {v : ℕ} (h : s.send v = some s') :
    s'.Queued := by
  obtain ⟨x, k, target, hx, htarget,
    ⟨-, hret, rfl⟩ | ⟨-, hret, hroom, rfl⟩ | ⟨-, hret, hroom, rfl⟩⟩ := send_cases h
  · exact hs.sender (.failed k) hx htarget rfl (fun _ => rfl)
      (fun _ _ _ => ⟨Iff.rfl, Iff.rfl⟩) (fun _ => Or.inl) hs.full (by simp) (by simp)
      (fun _ _ => hret)
  · have hnil : (s.conns target.session).waiters = [] := by
      by_contra hne
      exact absurd (hs.full _ hret hne) hroom.ne'
    refine hs.sender (.announced k) hx htarget (by simp) (fun j => ?_)
      (fun j w _ => ?_) (fun j => ?_) (fun j hrunning hne => ?_) (by simp) (by simp)
      (by simp)
    · by_cases hj : j = target.session <;> simp [release_conns, Conn.returned, hj]
    · by_cases hj : j = target.session <;> simp [release_conns, hj]
    · by_cases hj : j = target.session <;> simp [release_conns, hj]
    · by_cases hj : j = target.session
      · simp [release_conns, hj, hnil] at hne
      · have := hs.full j hrunning (by simpa [release_conns, hj] using hne)
        simpa [release_conns, hj, Conn.room] using this
  · refine hs.sender (.waiting k) hx htarget rfl (fun j => ?_)
      (fun j w hw => ?_) (fun j => ?_) (fun j hrunning hne => ?_) (by simp) (by simp)
      (by simp)
    · by_cases hj : j = target.session <;> simp [Conn.returned, hj]
    · by_cases hj : j = target.session <;> simp [hj, hw]
    · by_cases hj : j = target.session <;> simp [hj]
    · by_cases hj : j = target.session
      · subst hj
        simpa [Conn.room] using hroom
      · have := hs.full j hrunning (by simpa [hj] using hne)
        simpa [hj, Conn.room] using this

/-- A sender that gives up its slot has filled it, or the receiver is gone. -/
theorem resume_room {c : Conn} {v : ℕ} (hv : v ∈ c.granted) (msg : ServerMsg) :
    Conn.room { c with granted := c.granted.erase v, queue := c.queue ++ [msg] } =
      c.room := by
  have hpos := List.length_pos_of_mem hv
  simp only [Conn.room, List.length_append, List.length_singleton,
    List.length_erase_of_mem hv]
  omega

theorem State.Queued.resume (hs : s.Queued) {v : ℕ} (h : s.resume v = some s') :
    s'.Queued := by
  obtain ⟨x, k, target, hx, htarget, hstage, ⟨hret, rfl⟩ | ⟨hret, rfl⟩⟩ :=
    resume_cases h
  · refine hs.sender (.failed k) hx htarget rfl (fun j => ?_) (fun j w hw => ?_)
      (fun j => ?_) (fun j hrunning hne => ?_) (by simp) (by simp) (fun _ _ => hret)
    · by_cases hj : j = target.session <;> simp [Conn.returned, hj]
    · by_cases hj : j = target.session <;> simp [hj, List.mem_erase_of_ne hw]
    · by_cases hj : j = target.session <;> simp [hj]
    · by_cases hj : j = target.session
      · rw [hj, hret] at hrunning
        cases hrunning
      · simpa [hj] using hs.full j hrunning (by simpa [hj] using hne)
  · have hslot := hs.granted hx htarget hstage
    refine hs.sender (.announced k) hx htarget (by simp) (fun j => ?_)
      (fun j w hw => ?_) (fun j => ?_) (fun j hrunning hne => ?_) (by simp) (by simp)
      (by simp)
    · by_cases hj : j = target.session <;> simp [release_conns, Conn.returned, hj]
    · by_cases hj : j = target.session <;>
        simp [release_conns, hj, List.mem_erase_of_ne hw]
    · by_cases hj : j = target.session <;> simp [release_conns, hj]
    · by_cases hj : j = target.session
      · subst hj
        have hzero := hs.full _ hrunning (by simpa [release_conns] using hne)
        rw [← resume_room hslot (x.notice target k)] at hzero
        simpa [release_conns, Conn.room] using hzero
      · have := hs.full j hrunning (by simpa [release_conns, hj] using hne)
        simpa [release_conns, hj, Conn.room] using this

theorem State.Queued.step (hs : s.Queued) (haddressed : s.Addressed cfg)
    {label : Label} (h : s.step crates cfg label = some s') : s'.Queued := by
  cases hlabel : label.onQueue with
  | false => exact hs.step_other haddressed h hlabel
  | true =>
      cases label with
      | event i => exact hs.event h
      | send v => exact hs.send h
      | resume v => exact hs.resume h
      | _ => cases hlabel

theorem queued_of_reachable (h : (relay crates cfg).Reachable s) : s.Queued :=
  h.invariant queued_init fun _ _ _ hreach hinv hstep =>
    hinv.step (addressed_of_reachable hreach) hstep

end Yunpan.Relay
