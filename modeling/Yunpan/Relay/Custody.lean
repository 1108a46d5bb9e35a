import Yunpan.Relay.Isolation

/-!
# How a waiting visitor leaves the pairing table

An entry should leave by being joined to its own client, by age, or because its
own notice could not be queued.  `splice` takes an entry out before it compares
the owner, so there is one more way out: a data connection of another client
that names the entry's number.  Whether a run keeps its promise to waiting
visitors is therefore a question about the numbers its data connections name.
-/

namespace Yunpan.Relay

open Yunpan.Protocol
open Yunpan.Transition

variable {crates : Crates} {cfg : RelayConfig} {s s' : State}

/-- The ways in which an entry may leave the table. -/
inductive LeavesFairly (s s' : State) (label : Label) (k : UInt64) (p : Pending) :
    Prop
  | joined {i : ℕ} : label = .splice i →
      (s.conns i).phase = .data p.clientId k → (s'.conns i).joined = some p.stream →
      LeavesFairly s s' label k p
  | swept : label = .sweep → pairTimeoutSecs ≤ (s.now - p.since) / 1000 →
      LeavesFairly s s' label k p
  | unannounced {x : Visitor} : label = .unwind p.stream →
      s.visitors p.stream = some x → x.stage = .failed k →
      LeavesFairly s s' label k p

/-- Every entry stays as it is, with its stream, or leaves fairly. -/
def KeepsCustody (crates : Crates) (cfg : RelayConfig) (s : State) (label : Label) :
    Prop :=
  ∀ s', s.step crates cfg label = some s' → ∀ k p, s.pending k = some p →
    s'.pending k = some p ∨ LeavesFairly s s' label k p

/-- A data connection that reaches `splice` names no entry of another client. -/
def NamesOwn (s : State) : Label → Prop
  | .splice i => ∀ clientId k p, (s.conns i).phase = .data clientId k →
      s.pending k = some p → p.clientId = clientId
  | _ => True

theorem keepsCustody_of_namesOwn (hreach : (relay crates cfg).Reachable s)
    (hcount : s.numbered ≤ 2 ^ 64) {label : Label} (hnames : NamesOwn s label) :
    KeepsCustody crates cfg s label := by
  intro s' hstep k p hp
  have hconsistent := table_consistent hreach hcount
  have haddressed := addressed_of_reachable hreach
  have hslot : s.table.slots k = some (p.stream, p.clientId) := by
    simp [State.table, hp]
  cases hlabel : label.onTable with
  | false =>
      left
      rw [(step_table hstep hlabel).1, hp]
  | true =>
      cases label with
      | sweep =>
          cases hstep
          by_cases hage : (s.now - p.since) / 1000 < pairTimeoutSecs
          · left
            simp [State.sweepPending, hp, hage]
          · exact Or.inr (.swept rfl (Nat.le_of_not_lt hage))
      | number v =>
          obtain ⟨x, -, -, rfl⟩ := number_cases hstep
          exact Or.inl hp
      | insert v =>
          exact Or.inl (insert_keeps hreach hcount hstep hp)
      | unwind v =>
          obtain ⟨x, k', hx, hstage, rfl⟩ := unwind_cases hstep
          by_cases hk : k = k'
          · subst hk
            obtain ⟨target, htarget⟩ :=
              (haddressed.visitor hx).decided (by simp [hstage])
            have hticket : (s.table.tickets v).key? = some k :=
              key_of_connId haddressed
                (by simp [State.connId?, hx, Visitor.connId?, hstage])
            have hsame : v = p.stream := hconsistent.key_unique hticket
              (by rw [hconsistent.slot_deposited hslot]; rfl)
            subst hsame
            exact Or.inr (.unannounced rfl hx hstage)
          · left
            simpa [hk] using hp
      | splice i =>
          obtain ⟨clientId, k', hphase, ⟨-, rfl⟩ | ⟨p', hp', hcases⟩⟩ :=
            splice_cases hstep
          · exact Or.inl hp
          by_cases hk : k = k'
          · subst hk
            obtain rfl : p = p' := Option.some.inj (hp.symm.trans hp')
            obtain rfl := hnames clientId k p hphase hp
            obtain ⟨-, rfl⟩ | ⟨hother, -⟩ := hcases
            · exact Or.inr (.joined rfl hphase (by simp))
            · exact absurd rfl hother
          · left
            obtain ⟨-, rfl⟩ | ⟨-, rfl⟩ := hcases <;> simpa [hk] using hp
      | _ => cases hlabel

theorem namesOwn_of_keepsCustody {label : Label}
    (hstep : s.step crates cfg label = some s')
    (hkeeps : KeepsCustody crates cfg s label) : NamesOwn s label := by
  cases label with
  | splice i =>
      intro clientId k p hphase hp
      obtain ⟨clientId', k', hphase', hcases⟩ := splice_cases hstep
      rw [hphase] at hphase'
      cases hphase'
      have hgone : s'.pending k = none := by
        obtain ⟨hnone, rfl⟩ | ⟨p', -, ⟨-, rfl⟩ | ⟨-, rfl⟩⟩ := hcases
        · exact hnone
        · simp
        · simp
      rcases hkeeps s' hstep k p hp with hkept | ⟨heq, hown, -⟩ | ⟨heq, -⟩ | ⟨heq, -, -⟩
      · rw [hgone] at hkept
        cases hkept
      · cases heq
        rw [hphase] at hown
        cases hown
        rfl
      · cases heq
      · cases heq
  | _ => trivial

theorem numbered_le_of_step (hreach : (relay crates cfg).Reachable s)
    {label : Label} (hstep : s.step crates cfg label = some s') :
    s.numbered ≤ s'.numbered := by
  have hfollows := table_follows hreach hstep
  unfold System.Follows at hfollows
  cases hmove : tableMove cfg s label with
  | none =>
      rw [hmove] at hfollows
      exact (congrArg PairingTable.Table.next hfollows).ge
  | some move =>
      rw [hmove] at hfollows
      exact PairingTable.next_le_of_step hfollows

/-- In a run with fewer than `2 ^ 64` visitors the waiting visitors of every
client are safe exactly when every data connection names a number of its own. -/
theorem custody_iff {history : List (State × Label)}
    (hrun : (relay crates cfg).Run history s) (hcount : s.numbered < 2 ^ 64) :
    System.Always (KeepsCustody crates cfg) history ↔
      System.Always NamesOwn history := by
  have hbound := hrun.always_le (f := State.numbered)
    fun _ _ _ hreach hstep => numbered_le_of_step hreach hstep
  have hsteps : System.Always (fun s label => s.numbered ≤ 2 ^ 64 →
      (KeepsCustody crates cfg s label ↔ NamesOwn s label)) history :=
    hrun.forall_steps fun s label s' hreach hstep hle =>
      ⟨namesOwn_of_keepsCustody hstep, keepsCustody_of_namesOwn hreach hle⟩
  have hiff : ∀ entry ∈ history,
      KeepsCustody crates cfg entry.1 entry.2 ↔ NamesOwn entry.1 entry.2 :=
    fun entry hentry => hsteps entry hentry ((hbound entry hentry).trans hcount.le)
  exact forall₂_congr hiff

/-- The handshakes of `mac`'s control connection and of a data connection of `pc`
that names the number `mac`'s visitor will get. -/
def rivalLogins : State :=
  (State.init.setConn 0
    (Conn.loggedIn Sha256.hmac (.control "mac") "mac-0123456789abcdef"
    (Vector.replicate 32 0))).setConn 1
      (Conn.loggedIn Sha256.hmac (.data "pc" 1) "pc-0123456789abcdef"
      (Vector.replicate 32 1))

theorem rivalLogins_reachable :
    (relay sampleCrates sampleConfig).Reachable rivalLogins :=
  Reachable.login _ _
    (Reachable.login _ _ System.Reachable.init rfl (by decide +kernel))
    rfl (by decide +kernel)

theorem rival_splice_reachable : ∃ s, (relay sampleCrates sampleConfig).Reachable s ∧
    s.numbered = 1 ∧ (∃ p, s.pending 1 = some p ∧ p.clientId = "mac") ∧
    (s.conns 1).phase = .data "pc" 1 := by
  obtain ⟨s, hreach, hcheck⟩ := rivalLogins_reachable.exists_of_exec
    ([.kick 0, .register 0] ++ openPort 0 "dufs" 8080 ++ announce 0 0 0)
    (fun s : State => decide (s.numbered = 1 ∧
      (s.pending 1).map Pending.clientId = some "mac" ∧
      (s.conns 1).phase = .data "pc" 1)) (by decide +kernel)
  obtain ⟨hnumbered, hpending, hphase⟩ := of_decide_eq_true hcheck
  obtain ⟨p, hp, hown⟩ := Option.map_eq_some_iff.mp hpending
  exact ⟨s, hreach, hnumbered, ⟨p, hp, hown⟩, hphase⟩

/-- A data connection of `pc` drops the visitor of `mac`. -/
theorem custody_lost : ∃ history s, (relay sampleCrates sampleConfig).Run history s ∧
    s.numbered < 2 ^ 64 ∧
    ¬System.Always (KeepsCustody sampleCrates sampleConfig) history := by
  obtain ⟨s, ⟨history, hrun⟩, hnumbered, ⟨p, hp, hown⟩, hphase⟩ :=
    rival_splice_reachable
  have hstep : ∃ s', s.step sampleCrates sampleConfig (.splice 1) = some s' ∧
      s'.numbered = s.numbered := by
    simp [State.step, State.splice, hphase, hp, hown]
  obtain ⟨s', hstep, hsame⟩ := hstep
  have hrun' : (relay sampleCrates sampleConfig).Run ((s, .splice 1) :: history) s' :=
    hrun.snoc hstep
  refine ⟨_, s', hrun', by rw [hsame, hnumbered]; decide, fun hkeeps => ?_⟩
  have hnames := namesOwn_of_keepsCustody hstep (System.always_cons.mp hkeeps).1
  have := hnames "pc" 1 p hphase hp
  rw [hown] at this
  exact absurd this (by decide)

/-- A run in which `mac` claims its own visitor. -/
theorem custody_iff_sample : ∃ history s,
    (relay sampleCrates sampleConfig).Run history s ∧
    (s.conns 1).joined = some 0 ∧
    (System.Always (KeepsCustody sampleCrates sampleConfig) history ↔
      System.Always NamesOwn history) := by
  obtain ⟨s, ⟨history, hrun⟩, hnumbered, hjoined, -⟩ := sample_reachable
  exact ⟨history, s, hrun, hjoined, custody_iff hrun (by simp [hnumbered])⟩

end Yunpan.Relay
