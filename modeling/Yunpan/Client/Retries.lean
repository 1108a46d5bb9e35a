import Mathlib.Algebra.Group.Nat.Defs
import Yunpan.Client.Lifecycle

/-!
# How failures are counted

The loop numbers its failures and doubles the wait between them.  Both start again
only after a session that ended well: a session that was online and is then lost goes
on with the count that it was started with.
-/

namespace Yunpan.Client

open Yunpan.Protocol Yunpan.Transition

/-- The wait after `n` failures in a row before this one: it doubles up to a limit. -/
def delay (start limit n : ℕ) : ℕ := min (2 ^ n * start) limit

/-- Doubling the wait and cutting it off again goes one failure on. -/
theorem delay_succ (start limit n : ℕ) :
    min (delay start limit n * 2) limit = delay start limit (n + 1) := by
  have hpow : 2 ^ (n + 1) * start = 2 ^ n * start * 2 := by
    rw [Nat.pow_succ, Nat.mul_right_comm]
  rw [delay, delay, hpow]
  omega

/-- How a session ended that the loop goes on after: with an error before or after it
was online, or by a `Bye` after or before it was online. -/
inductive Outcome where
  | failed
  | lost
  | bye
  | earlyBye
  deriving DecidableEq

def RelayStatus.isOnline : RelayStatus → Bool
  | .online _ => true
  | _ => false

/-- `Online` was published since the present session began. -/
def Runner.reachedOnline (r : Runner) : Bool :=
  (r.published.takeWhile (· ≠ .connecting)).any RelayStatus.isOnline

/-- The outcome that a step of the loop looks at. -/
def Tunnel.outcome (t : Tunnel) : TunnelLabel → Option Outcome
  | .act .finish =>
      if t.runner.shutdown then none
      else
        match t.runner.phase with
        | .session (.ended none) =>
            some (if t.runner.reachedOnline then .bye else .earlyBye)
        | .session (.ended (some error)) =>
            if error.isFatal then none
            else some (if t.runner.reachedOnline then .lost else .failed)
        | _ => none
  | _ => none

/-- The outcomes of a run, newest first. -/
def outcomes (history : List (Tunnel × TunnelLabel)) : List Outcome :=
  history.filterMap fun entry => entry.1.outcome entry.2

/-- The failures since the last session that was online, or since the start.  The loss
of a session that was online is the first of a new row; a session ended by `Bye` is no
failure, and ends the row only if it was online. -/
def consecutive : List Outcome → ℕ
  | [] => 0
  | .failed :: earlier => consecutive earlier + 1
  | .lost :: _ => 1
  | .bye :: _ => 0
  | .earlyBye :: earlier => consecutive earlier

/-- The session that comes next is the first or follows one that was ended by `Bye`. -/
def afresh : List Outcome → Bool
  | [] => true
  | .bye :: _ => true
  | .earlyBye :: _ => true
  | _ => false

/-- Sessions that were online and are lost, and sessions ended by `Bye` before they
were online, come only first or right after a session ended by `Bye`. -/
def Fair : List Outcome → Prop
  | [] => True
  | .lost :: earlier => afresh earlier = true ∧ Fair earlier
  | .earlyBye :: earlier => afresh earlier = true ∧ Fair earlier
  | _ :: earlier => Fair earlier

theorem consecutive_of_afresh {outs : List Outcome} (hfair : Fair outs)
    (hafresh : afresh outs = true) : consecutive outs = 0 := by
  induction outs with
  | nil => rfl
  | cons out earlier ih =>
      cases out with
      | bye => rfl
      | earlyBye => exact ih hfair.2 hfair.1
      | _ => cases hafresh

theorem Fair.earlier {out : Outcome} {outs : List Outcome} (h : Fair (out :: outs)) :
    Fair outs := by
  cases out with
  | lost => exact h.2
  | earlyBye => exact h.2
  | _ => exact h

/-- The wait after the `n`-th failure in a row, in milliseconds. -/
def waitAfter (n : ℕ) : ℕ := delay backoffStartSecs backoffMaxSecs (n - 1) * 1000

example : (List.range' 1 7).map waitAfter =
    [1000, 2000, 4000, 8000, 16000, 30000, 30000] := rfl

/-- What has to follow the `n`-th failure in a row. -/
structure Announced (n : ℕ) (error : SessionError) (t t' : Tunnel) : Prop where
  published : ∃ attempt : UInt32, attempt.toNat = n ∧
    t'.runner.published = .retrying error attempt :: t.runner.published
  sleeps : t'.runner.phase = .sleeping (t.now + waitAfter n)
  wakes : ∀ hmac cfg now, (t'.runner.step hmac cfg now .wake).isSome = true ↔
    t.now + waitAfter n ≤ now

/-! ## The counters follow the outcomes -/

/-- The counters after so many failures in a row; the number wraps around. -/
structure Counted (n : ℕ) (r : Runner) : Prop where
  attempt : r.attempt.toNat = n % 2 ^ 32
  backoff : r.backoff = delay backoffStartSecs backoffMaxSecs n

theorem counted_zero {r : Runner} (hattempt : r.attempt = 0)
    (hbackoff : r.backoff = backoffStartSecs) : Counted 0 r where
  attempt := by rw [hattempt]; rfl
  backoff := by rw [hbackoff]; rfl

section Steps

variable {hmac : Hmac} {cfg : ClientConfig} {t t' : Tunnel}

theorem outcomes_cons {history : List (Tunnel × TunnelLabel)} {label : TunnelLabel}
    {out : Outcome} (h : t.outcome label = some out) :
    outcomes ((t, label) :: history) = out :: outcomes history := by
  simp [outcomes, h]

theorem outcomes_of_none {history : List (Tunnel × TunnelLabel)} {label : TunnelLabel}
    (h : t.outcome label = none) :
    outcomes ((t, label) :: history) = outcomes history := by
  simp [outcomes, h]

/-- What the outcomes so far ask is asked of those before, too. -/
theorem Fair.before {history : List (Tunnel × TunnelLabel)} {label : TunnelLabel}
    (h : Fair (outcomes ((t, label) :: history))) : Fair (outcomes history) := by
  cases hout : t.outcome label with
  | none => rwa [outcomes_of_none hout] at h
  | some out => exact (outcomes_cons hout ▸ h).earlier

/-- The outcome of a session that failed. -/
theorem Tunnel.outcome_failed {error : SessionError}
    (hphase : t.runner.phase = .session (.ended (some error)))
    (hfatal : error.isFatal = false) (hrunning : t.runner.shutdown = false) :
    t.outcome (.act .finish) =
      some (if t.runner.reachedOnline then .lost else .failed) := by
  simp [Tunnel.outcome, hphase, hfatal, hrunning]

theorem Tunnel.outcome_of_ne {label : RunLabel} (h : label ≠ .finish) :
    t.outcome (.act label) = none := by
  cases label with
  | finish => exact absurd rfl h
  | _ => rfl

/-- A failure raises both counters by one. -/
theorem Counted.retry {n : ℕ} {r : Runner} (h : Counted n r)
    (now : ℕ) (error : SessionError) : Counted (n + 1) (r.retry now error) where
  attempt := by
    have hone : (1 : UInt32).toNat = 1 := rfl
    change (r.attempt + 1).toNat = (n + 1) % 2 ^ 32
    rw [UInt32.toNat_add, h.attempt, hone]
    omega
  backoff := by
    change min (r.backoff * 2) backoffMaxSecs = _
    rw [h.backoff]
    exact delay_succ _ _ _

/-- The count that goes with the outcomes so far and one more failure. -/
theorem counted_failure {history : List (Tunnel × TunnelLabel)} {error : SessionError}
    (h : Counted (consecutive (outcomes history)) t.runner)
    (hfair : Fair (outcomes ((t, .act .finish) :: history)))
    (hphase : t.runner.phase = .session (.ended (some error)))
    (hfatal : error.isFatal = false) (hrunning : t.runner.shutdown = false) :
    ∃ n, consecutive (outcomes ((t, .act .finish) :: history)) = n + 1 ∧
      Counted n t.runner := by
  have houtcome := Tunnel.outcome_failed hphase hfatal hrunning
  cases honline : t.runner.reachedOnline with
  | true =>
      rw [honline, if_pos rfl] at houtcome
      rw [outcomes_cons houtcome] at hfair ⊢
      have hnone := consecutive_of_afresh hfair.earlier hfair.1
      exact ⟨0, rfl, hnone ▸ h⟩
  | false =>
      rw [honline, if_neg (by decide)] at houtcome
      rw [outcomes_cons houtcome]
      exact ⟨_, rfl, h⟩

/-- A step that looks at no outcome and leaves the counters alone. -/
theorem Counted.unchanged {history : List (Tunnel × TunnelLabel)} {label : TunnelLabel}
    (h : Counted (consecutive (outcomes history)) t.runner)
    (hnone : t.outcome label = none) (hattempt : t'.runner.attempt = t.runner.attempt)
    (hbackoff : t'.runner.backoff = t.runner.backoff) :
    Counted (consecutive (outcomes ((t, label) :: history))) t'.runner := by
  rw [outcomes_of_none hnone]
  exact ⟨hattempt ▸ h.attempt, hbackoff ▸ h.backoff⟩

theorem SessionMove.ne_finish {stage : SessionStage} {label : RunLabel}
    {next : SessionStage × Option RelayStatus}
    (h : SessionMove hmac cfg stage label next) :
    label ≠ .finish := by
  cases h <;> simp

theorem Counted.step {history : List (Tunnel × TunnelLabel)} {label : TunnelLabel}
    (h : Counted (consecutive (outcomes history)) t.runner)
    (hfair : Fair (outcomes ((t, label) :: history)))
    (hstep : t.step hmac cfg label = some t') :
    Counted (consecutive (outcomes ((t, label) :: history))) t'.runner := by
  obtain ⟨ms, rfl, rfl⟩ | ⟨l, r', rfl, hmove, rfl⟩ := Tunnel.step_cases hstep
  · exact h.unchanged rfl rfl rfl
  · cases hmove with
    | begun => exact h.unchanged rfl rfl rfl
    | notBegun => exact h.unchanged rfl rfl rfl
    | session _ hmove =>
        exact h.unchanged (Tunnel.outcome_of_ne hmove.ne_finish) rfl rfl
    | interrupted => exact h.unchanged rfl rfl rfl
    | left _ hshutdown =>
      exact h.unchanged (by simp [Tunnel.outcome, hshutdown]) rfl rfl
    | again hphase hrunning =>
        have hended : t.outcome (.act .finish) =
            some (if t.runner.reachedOnline then .bye else .earlyBye) := by
          simp [Tunnel.outcome, hphase, hrunning]
        have hzero : consecutive (outcomes ((t, .act .finish) :: history)) = 0 := by
          cases honline : t.runner.reachedOnline with
          | true =>
              rw [honline, if_pos rfl] at hended
              rw [outcomes_cons hended]
              rfl
          | false =>
              rw [honline, if_neg (by decide)] at hended
              rw [outcomes_cons hended] at hfair ⊢
              exact consecutive_of_afresh hfair rfl
        rw [hzero]
        exact counted_zero rfl rfl
    | fatal hphase hrunning =>
        refine h.unchanged ?_ rfl rfl
        simp [Tunnel.outcome, hphase, SessionError.isFatal]
    | retry hphase hfatal hrunning =>
        obtain ⟨n, hn, hcounted⟩ := counted_failure h hfair hphase hfatal hrunning
        rw [hn]
        exact hcounted.retry _ _
    | woken => exact h.unchanged rfl rfl rfl
    | stop => exact h.unchanged rfl rfl rfl
    | drop => exact h.unchanged rfl rfl rfl

/-- The branch of the loop that a failed session leads to. -/
theorem Tunnel.step_failed {error : SessionError}
    (h : t.step hmac cfg (.act .finish) = some t')
    (hphase : t.runner.phase = .session (.ended (some error)))
    (hfatal : error.isFatal = false) (hrunning : t.runner.shutdown = false) :
    t' = { t with runner := t.runner.retry t.now error } := by
  obtain ⟨ms, hlabel, -⟩ | ⟨l, r', hlabel, hmove, rfl⟩ := Tunnel.step_cases h
  · cases hlabel
  · cases hlabel
    cases hmove with
    | session _ hmove => exact absurd rfl hmove.ne_finish
    | left _ hshutdown => exact absurd (hshutdown.symm.trans hrunning) (by decide)
    | again hphase' => cases hphase.symm.trans hphase'
    | fatal hphase' =>
        cases hphase.symm.trans hphase'
        cases hfatal
    | retry hphase' =>
        cases hphase.symm.trans hphase'
        rfl

theorem Announced.of_sleeping {n : ℕ} {error : SessionError}
    (hpublished : ∃ attempt : UInt32, attempt.toNat = n ∧
      t'.runner.published = .retrying error attempt :: t.runner.published)
    (hsleeps : t'.runner.phase = .sleeping (t.now + waitAfter n)) :
    Announced n error t t' where
  published := hpublished
  sleeps := hsleeps
  wakes hmac cfg now := by simp [Runner.step, hsleeps]

theorem counted_of_run {history : List (Tunnel × TunnelLabel)}
    (hrun : (spawned hmac cfg).Run history t)
    (hfair : Fair (outcomes history)) :
    Counted (consecutive (outcomes history)) t.runner := by
  induction hrun with
  | start => exact counted_zero rfl rfl
  | snoc hrun hstep ih => exact (ih hfair.before).step hfair hstep

end Steps

/-- In a run whose sessions are lost after they were online, or ended by `Bye` before
they were, only first or right after a `Bye`, the `n`-th failure in a row is announced
as such, whatever happened before. -/
theorem failures_announced (hmac : Hmac) (cfg : ClientConfig)
    (history : List (Tunnel × TunnelLabel)) (t t' : Tunnel) (error : SessionError)
    (hrun : (spawned hmac cfg).Run ((t, .act .finish) :: history) t')
    (hfair : Fair (outcomes ((t, .act .finish) :: history)))
    (hroom : consecutive (outcomes ((t, .act .finish) :: history)) < 2 ^ 32)
    (hphase : t.runner.phase = .session (.ended (some error)))
    (hfatal : error.isFatal = false) (hrunning : t.runner.shutdown = false) :
    Announced (consecutive (outcomes ((t, .act .finish) :: history))) error t t' := by
  cases hrun with
  | snoc hearlier hstep =>
      obtain ⟨n, hn, hcounted⟩ := counted_failure (counted_of_run hearlier hfair.before)
        hfair hphase hfatal hrunning
      have hretry := hcounted.retry t.now error
      rw [hn] at hroom ⊢
      rw [Tunnel.step_failed hstep hphase hfatal hrunning]
      apply Announced.of_sleeping
        ⟨_, hretry.attempt.trans (Nat.mod_eq_of_lt hroom), rfl⟩
      change RunPhase.sleeping (t.now + t.runner.backoff * 1000) = _
      rw [waitAfter, hcounted.backoff, Nat.add_sub_cancel]

/-! ## Fixed runs -/

/-- The steps of a session that comes online. -/
def comesOnline : List TunnelLabel :=
  [.act .begin, .act (.connected true), .act (.written true),
    .act (.read (some (.challenge "00"))), .act (.written true),
    .act (.read (some (.authOk "yunpan-relay/0.1.0" 15))), .act (.written true),
    .act (.read (some (.bindOk "share" 8080 none)))]

/-- Steps in which no session ends. -/
theorem outcomes_append {steps history : List (Tunnel × TunnelLabel)}
    {labels : List TunnelLabel} (hlabels : steps.map Prod.snd = labels.reverse)
    (hquiet : .act .finish ∉ labels) : outcomes (steps ++ history) = outcomes history := by
  have hnone : ∀ entry ∈ steps, entry.1.outcome entry.2 = none := by
    intro entry hentry
    have hmem : entry.2 ∈ labels := by
      rw [← List.mem_reverse, ← hlabels]
      exact List.mem_map_of_mem hentry
    cases hlabel : entry.2 with
    | elapse ms => rfl
    | act label =>
        apply Tunnel.outcome_of_ne
        rintro rfl
        exact hquiet (hlabel ▸ hmem)
  rw [outcomes, List.filterMap_append, List.filterMap_eq_nil_iff.mpr hnone]
  rfl

/-- What `homeClient` shows while it is online. -/
def homeOnline : RelayStatus := .online "http://relay.example.com:8080"

/-- Three sessions of a run when they have ended: the first found no relay, the second
was ended by the relay, the third is lost after it was online. -/
def unreached : Tunnel where
  now := 0
  runner := ⟨.session (.ended (some .connect)), 1, 0, false, false,
    [.connecting, .connecting]⟩

def dismissed : Tunnel where
  now := 1000
  runner := ⟨.session (.ended none), 2, 1, false, false,
    [homeOnline, .connecting, .retrying .connect 1, .connecting, .connecting]⟩

def cutOff : Tunnel where
  now := 1000
  runner := ⟨.session (.ended (some .read)), 1, 0, false, false,
    [homeOnline, .connecting, homeOnline, .connecting, .retrying .connect 1, .connecting,
      .connecting]⟩

/-- The loss of a session that was online is announced as the first failure. -/
theorem failures_announced_sample : ∃ history t',
    (spawned Sha256.hmac homeClient).Run ((cutOff, .act .finish) :: history) t' ∧
      outcomes ((cutOff, .act .finish) :: history) = [.lost, .bye, .failed] ∧
      Announced 1 .read cutOff t' := by
  have hfirst :
      (spawned Sha256.hmac homeClient).exec (spawned Sha256.hmac homeClient).init
        [.act .begin, .act (.connected false)] = some unreached := rfl
  have hsecond : (spawned Sha256.hmac homeClient).exec
      ⟨0, unreached.runner.retry 0 .connect⟩ ([.elapse 1000, .act .wake] ++ comesOnline ++
        [.act (.read (some (.bye "moved")))]) = some dismissed := rfl
  have hthird : (spawned Sha256.hmac homeClient).exec
      ⟨1000, { dismissed.runner with phase := .top, attempt := 0, backoff := 1 }⟩
      (comesOnline ++ [.act (.read none)]) = some cutOff := rfl
  obtain ⟨first, hrun, hlabels⟩ := System.Run.start.of_exec hfirst
  have hrun : (spawned Sha256.hmac homeClient).Run
      ((unreached, .act .finish) :: (first ++ []))
      ⟨0, unreached.runner.retry 0 .connect⟩ := hrun.snoc rfl
  obtain ⟨second, hrun, hlabels'⟩ := hrun.of_exec hsecond
  have hrun : (spawned Sha256.hmac homeClient).Run
      ((dismissed, .act .finish) :: (second ++
        (unreached, .act .finish) :: (first ++ [])))
      ⟨1000, { dismissed.runner with phase := .top, attempt := 0, backoff := 1 }⟩ :=
    hrun.snoc rfl
  obtain ⟨third, hrun, hlabels''⟩ := hrun.of_exec hthird
  have hrun : (spawned Sha256.hmac homeClient).Run
      ((cutOff, .act .finish) :: (third ++ (dismissed, .act .finish) :: (second ++
        (unreached, .act .finish) :: (first ++ []))))
      ⟨1000, cutOff.runner.retry 1000 .read⟩ := hrun.snoc rfl
  have houts : outcomes ((cutOff, .act .finish) :: (third ++
      (dismissed, .act .finish) :: (second ++
        (unreached, .act .finish) :: (first ++ [])))) = [.lost, .bye, .failed] := by
    have hlost : cutOff.outcome (.act .finish) = some .lost := by decide
    have hbye : dismissed.outcome (.act .finish) = some .bye := by decide
    have hfailed : unreached.outcome (.act .finish) = some .failed := by decide
    rw [outcomes_cons hlost, outcomes_append hlabels'' (by simp [comesOnline]),
      outcomes_cons hbye, outcomes_append hlabels' (by simp [comesOnline]),
      outcomes_cons hfailed, outcomes_append hlabels (by simp)]
    rfl
  have hannounced := failures_announced _ _ _ _ _ _ hrun
    (by rw [houts]; exact ⟨rfl, trivial⟩) (by rw [houts]; decide) rfl rfl rfl
  rw [houts] at hannounced
  exact ⟨_, _, hrun, houts, hannounced⟩

/-- Two attempts fail, the third comes online and is lost: the loss is announced as the
third failure, and followed by four seconds instead of one. -/
theorem loss_counted_on : ∃ history t t',
    (spawned Sha256.hmac homeClient).Run ((t, .act .finish) :: history) t' ∧
      t.outcome (.act .finish) = some .lost ∧
      t'.runner.published.head? = some (.retrying .read 3) ∧
      t'.runner.phase = .sleeping (t.now + 4000) ∧
      ¬Announced (consecutive (outcomes ((t, .act .finish) :: history)))
        .read t t' := by
  have hexec :
      (spawned Sha256.hmac homeClient).exec (spawned Sha256.hmac homeClient).init
      ([.act .begin, .act (.connected false), .act .finish, .elapse 1000, .act .wake,
        .act .begin, .act (.connected false), .act .finish, .elapse 2000, .act .wake] ++
        comesOnline ++ [.act (.read none)]) =
      some ⟨3000, ⟨.session (.ended (some .read)), 4, 2, false, false,
        [.online "http://relay.example.com:8080", .connecting, .retrying .connect 2,
          .connecting, .retrying .connect 1, .connecting, .connecting]⟩⟩ := rfl
  obtain ⟨history, hrun, -⟩ := System.Run.start.of_exec hexec
  rw [List.append_nil] at hrun
  have hrun' : (spawned Sha256.hmac homeClient).Run ((_, .act .finish) :: history) _ :=
    hrun.snoc rfl
  refine ⟨_, _, _, hrun', rfl, rfl, rfl, fun h => ?_⟩
  have hwait : 3000 + 4 * 1000 = 3000 + waitAfter 1 := RunPhase.sleeping.inj h.sleeps
  revert hwait
  decide

end Yunpan.Client
