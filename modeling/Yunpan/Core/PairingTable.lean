import Yunpan.Core.Transition
import Yunpan.Core.Update
import Mathlib.Data.Set.Function
import Mathlib.Order.Interval.Set.Defs

/-!
# A pairing table with numbered tickets

Tickets of different owners draw numbers from one counter, wait in one table
under the key of their number, and are handed to claimants that name an owner
and a key.  An entry may also expire, or be withdrawn by the ticket's own
task.  Looking an entry up and checking whose it is are not one action here:
a claim removes whatever lies under the key, and hands it over only when the
owner fits.  The facts below say what such a table guarantees as long as the
counter has not come round.
-/

namespace Yunpan.PairingTable

open Yunpan.Transition

/-- How far a ticket has come. -/
inductive Phase (Key Owner : Type*) where
  | absent
  | waiting (owner : Owner)
  | numbered (owner : Owner) (key : Key)
  | deposited (owner : Owner) (key : Key)

variable {Key Owner Ticket Claimant : Type*}

def Phase.key? : Phase Key Owner → Option Key
  | .absent => none
  | .waiting _ => none
  | .numbered _ key => some key
  | .deposited _ key => some key

/-- `next` counts the numbers handed out; `given` remembers what a claimant
received and under which owner and key it asked. -/
@[ext]
structure Table (Key Owner Ticket Claimant : Type*) where
  next : ℕ
  slots : Key → Option (Ticket × Owner)
  tickets : Ticket → Phase Key Owner
  given : Claimant → Option (Ticket × Owner × Key)

inductive Label (Key Owner Ticket Claimant : Type*) where
  | arrive (ticket : Ticket) (owner : Owner)
  | number (ticket : Ticket)
  | deposit (ticket : Ticket)
  | withdraw (ticket : Ticket)
  | claim (claimant : Claimant) (owner : Owner) (key : Key)
  | expire (keep : Key → Bool)

def Table.empty : Table Key Owner Ticket Claimant where
  next := 0
  slots := fun _ => none
  tickets := fun _ => .absent
  given := fun _ => none

/-- What the table guarantees: keys come from numbers already handed out and
are not shared, an entry lies where its ticket was deposited, and what was
given away has left the table and was given once. -/
structure Consistent (key : ℕ → Key)
    (s : Table Key Owner Ticket Claimant) : Prop where
  key_drawn : ∀ {ticket k}, (s.tickets ticket).key? = some k →
    ∃ n < s.next, key n = k
  key_unique : ∀ {ticket ticket' k}, (s.tickets ticket).key? = some k →
    (s.tickets ticket').key? = some k → ticket = ticket'
  slot_deposited : ∀ {k ticket owner}, s.slots k = some (ticket, owner) →
    s.tickets ticket = .deposited owner k
  given_deposited : ∀ {claimant ticket owner k},
    s.given claimant = some (ticket, owner, k) →
    s.tickets ticket = .deposited owner k
  given_gone : ∀ {claimant ticket owner k owner' k'},
    s.given claimant = some (ticket, owner, k) →
    s.slots k' ≠ some (ticket, owner')
  given_once : ∀ {claimant claimant' ticket owner owner' k k'},
    s.given claimant = some (ticket, owner, k) →
    s.given claimant' = some (ticket, owner', k') → claimant = claimant'

variable {key : ℕ → Key} {s s' : Table Key Owner Ticket Claimant}

theorem consistent_empty :
    Consistent key (Table.empty : Table Key Owner Ticket Claimant) where
  key_drawn := by intro _ _ h; simp [Table.empty, Phase.key?] at h
  key_unique := by intro _ _ _ h; simp [Table.empty, Phase.key?] at h
  slot_deposited := by intro _ _ _ h; simp [Table.empty] at h
  given_deposited := by intro _ _ _ _ h; simp [Table.empty] at h
  given_gone := by intro _ _ _ _ _ _ h; simp [Table.empty] at h
  given_once := by intro _ _ _ _ _ _ _ h; simp [Table.empty] at h

/-- The key about to be drawn is nobody's, while the counter stays below a
bound up to which keys are distinct. -/
theorem Consistent.key_fresh {bound : ℕ} (h : Consistent key s)
    (hkey : Set.InjOn key (Set.Iio bound)) (hnext : s.next < bound)
    (ticket : Ticket) : (s.tickets ticket).key? ≠ some (key s.next) := by
  intro hdrawn
  obtain ⟨n, hn, heq⟩ := h.key_drawn hdrawn
  have : n = s.next := hkey (hn.trans hnext) hnext heq
  omega

/-- A number is deposited into an empty slot: nothing is ever overwritten. -/
theorem Consistent.slot_empty_of_numbered (h : Consistent key s)
    {ticket : Ticket} {owner : Owner} {k : Key}
    (hticket : s.tickets ticket = .numbered owner k) : s.slots k = none := by
  cases hslot : s.slots k with
  | none => rfl
  | some entry =>
      obtain ⟨other, owner'⟩ := entry
      have hother := h.slot_deposited hslot
      have : ticket = other := h.key_unique (k := k) (by rw [hticket]; rfl)
        (by rw [hother]; rfl)
      subst this
      rw [hticket] at hother
      cases hother

/-- What has been numbered but not deposited was not given to anybody. -/
theorem Consistent.not_given_of_numbered (h : Consistent key s)
    {ticket : Ticket} {owner owner' : Owner} {k k' : Key} {claimant : Claimant}
    (hticket : s.tickets ticket = .numbered owner k) :
    s.given claimant ≠ some (ticket, owner', k') := by
  intro hgiven
  have := h.given_deposited hgiven
  rw [hticket] at this
  cases this

section Step

variable [DecidableEq Key] [DecidableEq Owner] [DecidableEq Ticket]
variable [DecidableEq Claimant]

def Table.step (key : ℕ → Key) (s : Table Key Owner Ticket Claimant) :
    Label Key Owner Ticket Claimant → Option (Table Key Owner Ticket Claimant)
  | .arrive ticket owner =>
      match s.tickets ticket with
      | .absent =>
          some { s with tickets := Function.update s.tickets ticket (.waiting owner) }
      | _ => none
  | .number ticket =>
      match s.tickets ticket with
      | .waiting owner =>
          some { s with
            next := s.next + 1
            tickets := Function.update s.tickets ticket
              (.numbered owner (key s.next)) }
      | _ => none
  | .deposit ticket =>
      match s.tickets ticket with
      | .numbered owner k =>
          some { s with
            slots := Function.update s.slots k (some (ticket, owner))
            tickets := Function.update s.tickets ticket (.deposited owner k) }
      | _ => none
  | .withdraw ticket =>
      match s.tickets ticket with
      | .deposited _ k => some { s with slots := Function.update s.slots k none }
      | _ => none
  | .claim claimant owner k =>
      match s.given claimant, s.slots k with
      | some _, _ => none
      | none, none => some s
      | none, some (ticket, owner') =>
          some { s with
            slots := Function.update s.slots k none
            given := if owner' = owner
              then Function.update s.given claimant (some (ticket, owner, k))
              else s.given }
  | .expire keep =>
      some { s with slots := fun k => if keep k then s.slots k else none }

/-- The table as a transition system. -/
def system (key : ℕ → Key) : System (Table Key Owner Ticket Claimant)
    (Label Key Owner Ticket Claimant) where
  init := Table.empty
  step := Table.step key

theorem next_le_of_step {label : Label Key Owner Ticket Claimant}
    (hstep : s.step key label = some s') : s.next ≤ s'.next := by
  cases label <;> simp only [Table.step] at hstep
  all_goals
    first
      | (split at hstep <;> cases hstep <;> simp)
      | (cases hstep; simp)

omit [DecidableEq Key] [DecidableEq Owner] [DecidableEq Ticket]
  [DecidableEq Claimant] in
/-- Emptying slots keeps the table consistent. -/
theorem Consistent.of_slots_subset (h : Consistent key s)
    {slots : Key → Option (Ticket × Owner)}
    (hsub : ∀ k entry, slots k = some entry → s.slots k = some entry) :
    Consistent key { s with slots := slots } where
  key_drawn := h.key_drawn
  key_unique := h.key_unique
  slot_deposited := fun hslot => h.slot_deposited (hsub _ _ hslot)
  given_deposited := h.given_deposited
  given_gone := fun hgiven hslot => h.given_gone hgiven (hsub _ _ hslot)
  given_once := h.given_once

omit [DecidableEq Key] [DecidableEq Owner] [DecidableEq Claimant] in
theorem Consistent.arrive (h : Consistent key s) {ticket : Ticket}
    {owner : Owner} (hticket : s.tickets ticket = .absent) :
    Consistent key { s with
      tickets := Function.update s.tickets ticket (.waiting owner) } := by
  have hother : ∀ {t : Ticket} {k : Key},
      (Function.update s.tickets ticket (.waiting owner) t).key? = some k →
        (s.tickets t).key? = some k := by
    intro t k hk
    rcases update_cases (rfl : Function.update s.tickets ticket _ t = _) with
      ⟨-, hnew⟩ | ⟨-, hold⟩
    · rw [← hnew] at hk
      cases hk
    · rwa [hold]
  have hkept : ∀ {t : Ticket} {o : Owner} {k : Key},
      s.tickets t = .deposited o k →
        Function.update s.tickets ticket (.waiting owner) t = .deposited o k := by
    intro t o k hdep
    have ht : t ≠ ticket := by
      rintro rfl
      rw [hticket] at hdep
      cases hdep
    rw [Function.update_of_ne ht, hdep]
  exact
    { key_drawn := fun hk => h.key_drawn (hother hk)
      key_unique := fun hk hk' => h.key_unique (hother hk) (hother hk')
      slot_deposited := fun hslot => hkept (h.slot_deposited hslot)
      given_deposited := fun hgiven => hkept (h.given_deposited hgiven)
      given_gone := h.given_gone
      given_once := h.given_once }

omit [DecidableEq Key] [DecidableEq Owner] [DecidableEq Claimant] in
theorem Consistent.number {bound : ℕ} (h : Consistent key s)
    (hkey : Set.InjOn key (Set.Iio bound)) (hnext : s.next < bound)
    {ticket : Ticket} {owner : Owner}
    (hticket : s.tickets ticket = .waiting owner) :
    Consistent key { s with
      next := s.next + 1
      tickets := Function.update s.tickets ticket
        (.numbered owner (key s.next)) } := by
  have hcases : ∀ {t : Ticket} {k : Key},
      (Function.update s.tickets ticket (.numbered owner (key s.next)) t).key? =
          some k →
        (t = ticket ∧ k = key s.next) ∨
          (t ≠ ticket ∧ (s.tickets t).key? = some k) := by
    intro t k hk
    by_cases ht : t = ticket
    · subst ht
      left
      simpa [Phase.key?, eq_comm] using hk
    · right
      exact ⟨ht, by simpa [Function.update_of_ne ht] using hk⟩
  have hkept : ∀ {t : Ticket} {o : Owner} {k : Key},
      s.tickets t = .deposited o k →
        Function.update s.tickets ticket (.numbered owner (key s.next)) t =
          .deposited o k := by
    intro t o k hdep
    have ht : t ≠ ticket := by
      rintro rfl
      rw [hticket] at hdep
      cases hdep
    rw [Function.update_of_ne ht, hdep]
  refine
    { key_drawn := ?_
      key_unique := ?_
      slot_deposited := fun hslot => hkept (h.slot_deposited hslot)
      given_deposited := fun hgiven => hkept (h.given_deposited hgiven)
      given_gone := h.given_gone
      given_once := h.given_once }
  · intro t k hk
    rcases hcases hk with ⟨-, rfl⟩ | ⟨-, hold⟩
    · exact ⟨s.next, Nat.lt_succ_self _, rfl⟩
    · obtain ⟨n, hn, heq⟩ := h.key_drawn hold
      exact ⟨n, Nat.lt_succ_of_lt hn, heq⟩
  · intro t t' k hk hk'
    rcases hcases hk with ⟨rfl, rfl⟩ | ⟨-, hold⟩ <;>
      rcases hcases hk' with ⟨rfl, heq⟩ | ⟨-, hold'⟩
    · rfl
    · exact absurd hold' (h.key_fresh hkey hnext _)
    · subst heq
      exact absurd hold (h.key_fresh hkey hnext _)
    · exact h.key_unique hold hold'

omit [DecidableEq Owner] [DecidableEq Claimant] in
theorem Consistent.deposit (h : Consistent key s) {ticket : Ticket}
    {owner : Owner} {k : Key} (hticket : s.tickets ticket = .numbered owner k) :
    Consistent key { s with
      slots := Function.update s.slots k (some (ticket, owner))
      tickets := Function.update s.tickets ticket (.deposited owner k) } := by
  have hsame : ∀ {t : Ticket} {k' : Key},
      (Function.update s.tickets ticket (.deposited owner k) t).key? = some k' →
        (s.tickets t).key? = some k' := by
    intro t k' hk
    by_cases ht : t = ticket
    · subst ht
      rw [hticket]
      simpa [Phase.key?] using hk
    · simpa [Function.update_of_ne ht] using hk
  have hkept : ∀ {t : Ticket} {o : Owner} {k' : Key},
      s.tickets t = .deposited o k' →
        Function.update s.tickets ticket (.deposited owner k) t =
          .deposited o k' := by
    intro t o k' hdep
    have ht : t ≠ ticket := by
      rintro rfl
      rw [hticket] at hdep
      cases hdep
    rw [Function.update_of_ne ht, hdep]
  refine
    { key_drawn := fun hk => h.key_drawn (hsame hk)
      key_unique := fun hk hk' => h.key_unique (hsame hk) (hsame hk')
      slot_deposited := ?_
      given_deposited := fun hgiven => hkept (h.given_deposited hgiven)
      given_gone := ?_
      given_once := h.given_once }
  · intro k' t o hslot
    rcases update_cases hslot with ⟨rfl, hnew⟩ | ⟨-, hold⟩
    · cases hnew
      simp
    · exact hkept (h.slot_deposited hold)
  · intro claimant t o k' o' k'' hgiven hslot
    rcases update_cases hslot with ⟨-, hnew⟩ | ⟨-, hold⟩
    · cases hnew
      exact h.not_given_of_numbered hticket hgiven
    · exact h.given_gone hgiven hold

omit [DecidableEq Owner] [DecidableEq Ticket] in
/-- Handing an entry to the claimant that named its owner and key. -/
theorem Consistent.hand_over (h : Consistent key s) {claimant : Claimant}
    {ticket : Ticket} {owner : Owner} {k : Key}
    (hnew : s.given claimant = none) (hslot : s.slots k = some (ticket, owner)) :
    Consistent key { s with
      slots := Function.update s.slots k none
      given := Function.update s.given claimant (some (ticket, owner, k)) } := by
  have hdep := h.slot_deposited hslot
  have hcases : ∀ {c : Claimant} {t : Ticket} {o : Owner} {k' : Key},
      Function.update s.given claimant (some (ticket, owner, k)) c =
          some (t, o, k') →
        (c = claimant ∧ t = ticket ∧ o = owner ∧ k' = k) ∨
          (c ≠ claimant ∧ s.given c = some (t, o, k')) := by
    intro c t o k' hgiven
    by_cases hc : c = claimant
    · subst hc
      left
      simpa [eq_comm] using hgiven
    · right
      exact ⟨hc, by simpa [Function.update_of_ne hc] using hgiven⟩
  refine
    { key_drawn := h.key_drawn
      key_unique := h.key_unique
      slot_deposited := fun hs => h.slot_deposited (update_none_eq_some hs).2
      given_deposited := ?_
      given_gone := ?_
      given_once := ?_ }
  · intro c t o k' hgiven
    rcases hcases hgiven with ⟨-, rfl, rfl, rfl⟩ | ⟨-, hold⟩
    · exact hdep
    · exact h.given_deposited hold
  · intro c t o k' o' k'' hgiven hs
    obtain ⟨hk, hold⟩ := update_none_eq_some hs
    rcases hcases hgiven with ⟨-, rfl, rfl, rfl⟩ | ⟨-, hgold⟩
    · have hsame := h.slot_deposited hold
      rw [hdep] at hsame
      cases hsame
      exact hk rfl
    · exact h.given_gone hgold hold
  · intro c c' t o o' k' k'' hgiven hgiven'
    rcases hcases hgiven with ⟨rfl, rfl, rfl, rfl⟩ | ⟨-, hold⟩ <;>
      rcases hcases hgiven' with ⟨rfl, ht, -, -⟩ | ⟨-, hold'⟩
    · rfl
    · exact absurd hslot (h.given_gone hold')
    · subst ht
      exact absurd hslot (h.given_gone hold)
    · exact h.given_once hold hold'

/-- One step keeps the table consistent while the counter stays within the
bound. -/
theorem Consistent.step {bound : ℕ} (h : Consistent key s)
    (hkey : Set.InjOn key (Set.Iio bound))
    {label : Label Key Owner Ticket Claimant}
    (hstep : s.step key label = some s') (hnext : s'.next ≤ bound) :
    Consistent key s' := by
  cases label with
  | arrive ticket owner =>
      simp only [Table.step] at hstep
      split at hstep
      case h_1 hticket =>
        cases hstep
        exact h.arrive hticket
      case h_2 => cases hstep
  | number ticket =>
      simp only [Table.step] at hstep
      split at hstep
      case h_1 owner hticket =>
        cases hstep
        exact h.number hkey hnext hticket
      case h_2 => cases hstep
  | deposit ticket =>
      simp only [Table.step] at hstep
      split at hstep
      case h_1 owner k hticket =>
        cases hstep
        exact h.deposit hticket
      case h_2 => cases hstep
  | withdraw ticket =>
      simp only [Table.step] at hstep
      split at hstep
      case h_1 =>
        cases hstep
        exact h.of_slots_subset fun _ _ hs => (update_none_eq_some hs).2
      case h_2 => cases hstep
  | claim claimant owner k =>
      simp only [Table.step] at hstep
      split at hstep
      case h_1 => cases hstep
      case h_2 => cases hstep; exact h
      case h_3 ticket owner' hnew hslot =>
        cases hstep
        split
        case isTrue howner =>
          subst howner
          exact h.hand_over hnew hslot
        case isFalse =>
          exact h.of_slots_subset fun _ _ hs => (update_none_eq_some hs).2
  | expire keep =>
      cases hstep
      refine h.of_slots_subset fun k entry hslot => ?_
      by_cases hk : keep k <;> simp_all

theorem Run.consistent {bound : ℕ} (hkey : Set.InjOn key (Set.Iio bound))
    {history : List (Table Key Owner Ticket Claimant ×
      Label Key Owner Ticket Claimant)}
    (hrun : (system key).Run history s) (hnext : s.next ≤ bound) :
    Consistent key s := by
  induction hrun with
  | start => exact consistent_empty
  | snoc hrun hstep ih =>
      have hle := next_le_of_step hstep
      exact (ih (hle.trans hnext)).step hkey hstep hnext

end Step

end Yunpan.PairingTable
