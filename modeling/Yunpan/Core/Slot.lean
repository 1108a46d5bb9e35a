import Yunpan.Core.Transition
import Yunpan.Core.Update

/-!
# A slot behind a lock

A slot holds at most one running resource.  Operations take the lock one at a time:
each takes the old resource out and waits until it is retired; starting then makes a
new one, which can fail, and puts it in.  Resources move on by themselves meanwhile,
and operations go on whether or not their callers still wait for them.
-/

namespace Yunpan.Slot

open Yunpan.Transition

/-- A kind of resource: how one begins and moves, how it is retired, and when it is in
the way of a new one. -/
structure Kind (Arg Made Res Move : Type) where
  fresh : Arg → Made → Res
  step : Res → Move → Option Res
  retire : Res → Option Res
  retired : Res → Bool
  live : Res → Bool
  blocks : Arg → Res → Bool

/-- What an operation is asked for. -/
inductive Request (Arg : Type) where
  | start (arg : Arg)
  | stop
  deriving DecidableEq

inductive Outcome (Error : Type) where
  | stored (id : ℕ)
  | failed (error : Error)
  | blocked (id : ℕ)
  | stopped
  deriving DecidableEq

inductive Status (Arg Error : Type) where
  | waiting (request : Request Arg)
  | holding
  | ended (outcome : Outcome Error)
  deriving DecidableEq

/-- How far the operation that has the lock is. -/
inductive Stage where
  | locked
  | retiring (old : ℕ)
  | making
  deriving DecidableEq

structure Holder (Arg : Type) where
  op : ℕ
  request : Request Arg
  stage : Stage
  deriving DecidableEq

structure State (Arg Res Error : Type) where
  ops : List (Status Arg Error)
  holder : Option (Holder Arg)
  slot : Option ℕ
  resources : List Res
  last : Option (ℕ × Outcome Error)
  deriving DecidableEq

inductive Label (Arg Made Move Error : Type) where
  | call (request : Request Arg)
  | acquire (op : ℕ)
  | take
  | retired
  | make (answer : Except Error Made)
  | resource (id : ℕ) (move : Move)

variable {Arg Made Res Move Error : Type}

namespace State

def empty : State Arg Res Error where
  ops := []
  holder := none
  slot := none
  resources := []
  last := none

variable (s : State Arg Res Error)

def call (request : Request Arg) : State Arg Res Error :=
  { s with ops := s.ops ++ [.waiting request] }

def acquire (op : ℕ) : Option (State Arg Res Error) :=
  match s.ops[op]?, s.holder with
  | some (.waiting request), none =>
      some { s with
        ops := s.ops.set op .holding
        holder := some ⟨op, request, .locked⟩ }
  | _, _ => none

def release (op : ℕ) (outcome : Outcome Error) : State Arg Res Error :=
  { s with
    ops := s.ops.set op (.ended outcome)
    holder := none
    last := some (op, outcome) }

/-- The old resource is gone: go on to make a new one, or stop here. -/
def proceed (holder : Holder Arg) : State Arg Res Error :=
  match holder.request with
  | .start _ => { s with holder := some { holder with stage := .making } }
  | .stop => s.release holder.op .stopped

/-- Take the old resource out and have it retire. -/
def take (kind : Kind Arg Made Res Move) : Option (State Arg Res Error) := do
  let holder ← s.holder
  if holder.stage = .locked then
    match s.slot with
    | none => some (s.proceed holder)
    | some old =>
        let res ← s.resources[old]?
        let res ← kind.retire res
        some { s with
          holder := some { holder with stage := .retiring old }
          slot := none
          resources := s.resources.set old res }
  else none

def afterRetired (kind : Kind Arg Made Res Move) : Option (State Arg Res Error) := do
  let holder ← s.holder
  match holder.stage with
  | .retiring old =>
      let res ← s.resources[old]?
      if kind.retired res then some (s.proceed holder) else none
  | _ => none

/-- Make the new resource: an error is what goes wrong apart from the resources that
are there already. -/
def make (kind : Kind Arg Made Res Move) (answer : Except Error Made) :
    Option (State Arg Res Error) := do
  let holder ← s.holder
  match holder.stage, holder.request with
  | .making, .start arg =>
      match answer with
      | .error error => some (s.release holder.op (.failed error))
      | .ok made =>
          match s.resources.findIdx? (kind.blocks arg) with
          | some id => some (s.release holder.op (.blocked id))
          | none =>
              let id := s.resources.length
              some { s.release holder.op (.stored id) with
                slot := some id
                resources := s.resources ++ [kind.fresh arg made] }
  | _, _ => none

def moveResource (kind : Kind Arg Made Res Move) (id : ℕ) (move : Move) :
    Option (State Arg Res Error) := do
  let res ← s.resources[id]?
  let res ← kind.step res move
  some { s with resources := s.resources.set id res }

/-- How the operation has ended. -/
def outcome (op : ℕ) : Option (Outcome Error) :=
  match s.ops[op]? with
  | some (.ended outcome) => some outcome
  | _ => none

def step (kind : Kind Arg Made Res Move) : Label Arg Made Move Error →
    Option (State Arg Res Error)
  | .call request => some (s.call request)
  | .acquire op => s.acquire op
  | .take => s.take kind
  | .retired => s.afterRetired kind
  | .make answer => s.make kind answer
  | .resource id move => s.moveResource kind id move

end State

def slot (kind : Kind Arg Made Res Move) (Error : Type) :
    System (State Arg Res Error) (Label Arg Made Move Error) where
  init := .empty
  step s label := s.step kind label

/-! ## What a step does -/

variable {kind : Kind Arg Made Res Move} {s s' : State Arg Res Error}
  {label : Label Arg Made Move Error}

/-- The old resource is out of the way of the operation that has the lock. -/
inductive Cleared (kind : Kind Arg Made Res Move) (s : State Arg Res Error) :
    Stage → Prop
  | empty (hslot : s.slot = none) : Cleared kind s .locked
  | retired {old : ℕ} {res : Res} (hres : s.resources[old]? = some res)
      (hretired : kind.retired res = true) : Cleared kind s (.retiring old)

inductive Steps (kind : Kind Arg Made Res Move) (s : State Arg Res Error) :
    Label Arg Made Move Error → State Arg Res Error → Prop
  | call (request : Request Arg) : Steps kind s (.call request) (s.call request)
  | acquire {op : ℕ} {request : Request Arg}
      (hop : s.ops[op]? = some (.waiting request))
      (hfree : s.holder = none) :
      Steps kind s (.acquire op) { s with
        ops := s.ops.set op .holding
        holder := some ⟨op, request, .locked⟩ }
  | takeOut {holder : Holder Arg} {old : ℕ} {res res' : Res}
      (hholder : s.holder = some holder)
      (hlocked : holder.stage = .locked) (hslot : s.slot = some old)
      (hres : s.resources[old]? = some res) (hretire : kind.retire res = some res') :
      Steps kind s .take { s with
        holder := some { holder with stage := .retiring old }
        slot := none
        resources := s.resources.set old res' }
  | proceed {label : Label Arg Made Move Error} {holder : Holder Arg}
      (hlabel : label = .take ∨ label = .retired) (hholder : s.holder = some holder)
      (hcleared : Cleared kind s holder.stage) : Steps kind s label (s.proceed holder)
  | fail {holder : Holder Arg} {arg : Arg} (error : Error)
      (hholder : s.holder = some holder)
      (hmaking : holder.stage = .making) (hrequest : holder.request = .start arg) :
      Steps kind s (.make (.error error)) (s.release holder.op (.failed error))
  | block {holder : Holder Arg} {arg : Arg} {made : Made} {id : ℕ} {res : Res}
      (hholder : s.holder = some holder) (hmaking : holder.stage = .making)
      (hrequest : holder.request = .start arg) (hres : s.resources[id]? = some res)
      (hblocks : kind.blocks arg res = true) :
      Steps kind s (.make (.ok made)) (s.release holder.op (.blocked id))
  | store {holder : Holder Arg} {arg : Arg} {made : Made}
      (hholder : s.holder = some holder)
      (hmaking : holder.stage = .making) (hrequest : holder.request = .start arg) :
      Steps kind s (.make (.ok made))
        { s.release holder.op (.stored s.resources.length) with
        slot := some s.resources.length
        resources := s.resources ++ [kind.fresh arg made] }
  | resource {id : ℕ} {move : Move} {res res' : Res}
      (hres : s.resources[id]? = some res)
      (hstep : kind.step res move = some res') :
      Steps kind s (.resource id move) { s with resources := s.resources.set id res' }

theorem steps_of_step (h : s.step kind label = some s') : Steps kind s label s' := by
  cases label with
  | call request =>
      cases h
      exact .call request
  | acquire op =>
      change s.acquire op = some s' at h
      unfold State.acquire at h
      split at h
      case h_1 request hop hfree =>
        cases h
        exact .acquire hop hfree
      case h_2 => cases h
  | take =>
      obtain ⟨holder, hholder, h⟩ := Option.bind_eq_some_iff.mp h
      split at h
      case isTrue hlocked =>
        cases hslot : s.slot with
        | none =>
            rw [hslot] at h
            cases h
            refine .proceed (Or.inl rfl) hholder ?_
            rw [hlocked]
            exact .empty hslot
        | some old =>
            rw [hslot] at h
            obtain ⟨res, hres, h⟩ := Option.bind_eq_some_iff.mp h
            obtain ⟨res', hretire, h⟩ := Option.bind_eq_some_iff.mp h
            cases h
            exact .takeOut hholder hlocked hslot hres hretire
      case isFalse => cases h
  | retired =>
      obtain ⟨holder, hholder, h⟩ := Option.bind_eq_some_iff.mp h
      split at h
      case h_1 old hstage =>
        obtain ⟨res, hres, h⟩ := Option.bind_eq_some_iff.mp h
        split at h
        case isTrue hretired =>
          cases h
          refine .proceed (Or.inr rfl) hholder ?_
          rw [hstage]
          exact .retired hres hretired
        case isFalse => cases h
      case h_2 => cases h
  | make answer =>
      obtain ⟨holder, hholder, h⟩ := Option.bind_eq_some_iff.mp h
      split at h
      case h_1 arg hmaking hrequest =>
        cases answer with
        | error error =>
            cases h
            exact .fail error hholder hmaking hrequest
        | ok made =>
            cases hfind : s.resources.findIdx? (kind.blocks arg) with
            | some id =>
                simp only [hfind] at h
                cases h
                obtain ⟨hlt, hblocks, -⟩ := List.findIdx?_eq_some_iff_getElem.mp hfind
                exact .block hholder hmaking hrequest
                  (List.getElem?_eq_getElem hlt) hblocks
            | none =>
                simp only [hfind] at h
                cases h
                exact .store hholder hmaking hrequest
      case h_2 => cases h
  | resource id move =>
      obtain ⟨res, hres, h⟩ := Option.bind_eq_some_iff.mp h
      obtain ⟨res', hstep, h⟩ := Option.bind_eq_some_iff.mp h
      cases h
      exact .resource hres hstep

/-! ## The invariant -/

/-- What has to be known of a kind of resource: one that is retired is not live, and
one that is not live stays so. -/
structure Kind.Lawful (kind : Kind Arg Made Res Move) (Good : Res → Prop) : Prop where
  fresh : ∀ arg made, Good (kind.fresh arg made)
  step : ∀ {res move res'}, Good res → kind.step res move = some res' → Good res'
  retire : ∀ {res res'}, Good res → kind.retire res = some res' → Good res'
  retired : ∀ {res}, Good res → kind.retired res = true → kind.live res = false
  dead : ∀ {res move res'}, Good res → kind.live res = false →
    kind.step res move = some res' → kind.live res' = false
  blocks : ∀ {arg res}, kind.blocks arg res = true → kind.live res = true

structure State.Sound (kind : Kind Arg Made Res Move) (Good : Res → Prop)
    (s : State Arg Res Error) : Prop where
  good : ∀ {id : ℕ} {res}, s.resources[id]? = some res → Good res
  holding : ∀ {holder}, s.holder = some holder → s.ops[holder.op]? = some .holding
  live : ∀ {id : ℕ} {res}, s.resources[id]? = some res → kind.live res = true →
    s.slot = some id ∨ ∃ holder, s.holder = some holder ∧ holder.stage = .retiring id
  present : ∀ {id}, s.slot = some id → ∃ res, s.resources[id]? = some res
  emptied : ∀ {holder}, s.holder = some holder → holder.stage ≠ .locked → s.slot = none
  stored : (∀ holder, s.holder = some holder → holder.stage = .locked) →
    ∀ id, s.slot = some id ↔ ∃ op, s.last = some (op, .stored id)
  unblocked : ∀ op id : ℕ, s.ops[op]? ≠ some (.ended (.blocked id))

variable {Good : Res → Prop}

theorem State.sound_empty : (State.empty : State Arg Res Error).Sound kind Good where
  good := by simp [State.empty]
  holding := by simp [State.empty]
  live := by simp [State.empty]
  present := by simp [State.empty]
  emptied := by simp [State.empty]
  stored := by simp [State.empty]
  unblocked := by simp [State.empty]

namespace State.Sound

/-- The slot is empty, and no resource is live. -/
def Vacant (kind : Kind Arg Made Res Move) (s : State Arg Res Error) : Prop :=
  s.slot = none ∧ ∀ {id : ℕ} {res}, s.resources[id]? = some res → kind.live res = false

/-- What may be live is what the operation that has the lock waits for. -/
theorem vacant_of_holder (hs : s.Sound kind Good) {holder : Holder Arg}
    (hholder : s.holder = some holder) (hslot : s.slot = none)
    (hretiring : ∀ {id res}, holder.stage = .retiring id → s.resources[id]? = some res →
      kind.live res = false) : Vacant kind s := by
  refine ⟨hslot, fun {id res} hres => ?_⟩
  by_contra hlive
  rw [Bool.not_eq_false] at hlive
  obtain hid | ⟨holder', hholder', hstage⟩ := hs.live hres hlive
  · rw [hslot] at hid
    cases hid
  · rw [hholder] at hholder'
    cases hholder'
    rw [hretiring hstage hres] at hlive
    cases hlive

theorem vacant_of_making (hs : s.Sound kind Good) {holder : Holder Arg}
    (hholder : s.holder = some holder) (hmaking : holder.stage = .making) :
    Vacant kind s := by
  have hslot : s.slot = none := hs.emptied hholder (by rw [hmaking]; simp)
  refine hs.vacant_of_holder hholder hslot fun hretiring => ?_
  rw [hmaking] at hretiring
  cases hretiring

theorem vacant_of_cleared (hkind : kind.Lawful Good) (hs : s.Sound kind Good)
    {holder : Holder Arg} (hholder : s.holder = some holder)
    (hcleared : Cleared kind s holder.stage) : Vacant kind s := by
  generalize hstage : holder.stage = stage at hcleared
  cases hcleared with
  | empty hslot =>
      refine hs.vacant_of_holder hholder hslot fun hretiring => ?_
      rw [hstage] at hretiring
      cases hretiring
  | retired hres hretired =>
      have hslot : s.slot = none := hs.emptied hholder (by rw [hstage]; simp)
      refine hs.vacant_of_holder hholder hslot fun hretiring hres' => ?_
      rw [hstage] at hretiring
      cases hretiring
      rw [hres] at hres'
      cases hres'
      exact hkind.retired (hs.good hres) hretired

/-- An operation ends without a new resource. -/
theorem release (hs : s.Sound kind Good) (hvacant : Vacant kind s) (op : ℕ)
    {outcome : Outcome Error} (hstored : ∀ id, outcome ≠ .stored id)
    (hblocked : ∀ id, outcome ≠ .blocked id) :
    (s.release op outcome).Sound kind Good where
  good := hs.good
  holding := by simp [State.release]
  live hres hlive := by
    rw [hvacant.2 hres] at hlive
    cases hlive
  present := hs.present
  emptied := by simp [State.release]
  stored _ id := by
    have hslot : s.slot = none := hvacant.1
    simp [State.release, hslot, hstored]
  unblocked op' id := by
    by_cases hop : op' = op
    · subst hop
      by_cases hlt : op' < s.ops.length <;> simp [State.release, hlt, hblocked]
    · simpa [State.release, Ne.symm hop] using hs.unblocked op' id

theorem proceed (hs : s.Sound kind Good) (hvacant : Vacant kind s) {holder : Holder Arg}
    (hholder : s.holder = some holder) : (s.proceed holder).Sound kind Good := by
  unfold State.proceed
  cases holder.request with
  | stop => exact hs.release hvacant _ (by simp) (by simp)
  | start arg =>
      refine { hs with holding := ?_, live := ?_, emptied := ?_, stored := ?_ }
      · rintro _ ⟨⟩
        have hop := hs.holding hholder
        exact hop
      · intro id res hres hlive
        rw [hvacant.2 hres] at hlive
        cases hlive
      · intro _ _ _
        exact hvacant.1
      · intro hlocked
        cases hlocked _ rfl

theorem step (hkind : kind.Lawful Good) (hs : s.Sound kind Good)
    (h : Steps kind s label s') :
    s'.Sound kind Good := by
  cases h with
  | call request =>
      refine { hs with holding := fun hholder => ?_, unblocked := fun op id => ?_ }
      · have hop := hs.holding hholder
        obtain ⟨hlt, -⟩ := List.getElem?_eq_some_iff.mp hop
        rw [State.call, List.getElem?_append_left hlt]
        exact hop
      · intro hop
        obtain hmem | hmem := List.mem_append.mp (List.mem_of_getElem? hop)
        · obtain ⟨op', hop'⟩ := List.mem_iff_getElem?.mp hmem
          exact hs.unblocked op' id hop'
        · cases List.mem_singleton.mp hmem
  | @acquire op request hop hfree =>
      obtain ⟨hlt, -⟩ := List.getElem?_eq_some_iff.mp hop
      refine { hs with
        holding := ?_, live := ?_, emptied := ?_, stored :=
          fun _ => ?_, unblocked := ?_ }
      · rintro _ ⟨⟩
        simp [hlt]
      · intro id res hres hlive
        obtain hslot | ⟨holder, hholder, -⟩ := hs.live hres hlive
        · exact Or.inl hslot
        · rw [hfree] at hholder
          cases hholder
      · rintro _ ⟨⟩ hstage
        exact absurd rfl hstage
      · apply hs.stored
        rw [hfree]
        rintro holder ⟨⟩
      · intro op' id
        by_cases hsame : op' = op
        · subst hsame
          simp [hlt]
        · simpa [Ne.symm hsame] using hs.unblocked op' id
  | @takeOut holder old res res' hholder hlocked hslot hres hretire =>
      obtain ⟨hlt, -⟩ := List.getElem?_eq_some_iff.mp hres
      refine { hs with
        good := ?_, holding := ?_, live := ?_, present := by simp,
        emptied := fun _ _ => rfl, stored := ?_ }
      · intro id res'' hid
        obtain ⟨rfl, rfl⟩ | ⟨-, hold⟩ := set_cases hid
        · exact hkind.retire (hs.good hres) hretire
        · exact hs.good hold
      · rintro _ ⟨⟩
        have hop := hs.holding hholder
        exact hop
      · intro id res'' hid hlive
        obtain ⟨rfl, -⟩ | ⟨hne, hold⟩ := set_cases hid
        · exact Or.inr ⟨_, rfl, rfl⟩
        · obtain hid | ⟨holder', hholder', hstage⟩ := hs.live hold hlive
          · rw [hslot] at hid
            cases hid
            exact absurd rfl hne
          · rw [hholder] at hholder'
            cases hholder'
            rw [hlocked] at hstage
            cases hstage
      · intro hunlocked
        cases hunlocked _ rfl
  | proceed _ hholder hcleared =>
      exact hs.proceed (hs.vacant_of_cleared hkind hholder hcleared) hholder
  | fail error hholder hmaking hrequest =>
      exact hs.release (hs.vacant_of_making hholder hmaking) _ (by simp) (by simp)
  | block hholder hmaking hrequest hres hblocks =>
      -- what blocks is live, and nothing is
      have hlive := hkind.blocks hblocks
      rw [(hs.vacant_of_making hholder hmaking).2 hres] at hlive
      cases hlive
  | @store holder arg made hholder hmaking hrequest =>
      have hvacant := hs.vacant_of_making hholder hmaking
      have hop := hs.holding hholder
      obtain ⟨hlt, -⟩ := List.getElem?_eq_some_iff.mp hop
      constructor
      case good =>
        intro id res hid
        obtain hmem | hmem := List.mem_append.mp (List.mem_of_getElem? hid)
        · obtain ⟨id', hold⟩ := List.mem_iff_getElem?.mp hmem
          exact hs.good hold
        · rw [List.mem_singleton.mp hmem]
          exact hkind.fresh arg made
      case holding => simp [State.release]
      case live =>
        intro id res hid hlive
        obtain hlt | heq | hgt := Nat.lt_trichotomy id s.resources.length
        · rw [List.getElem?_append_left hlt] at hid
          rw [hvacant.2 hid] at hlive
          cases hlive
        · exact Or.inl (congrArg some heq.symm)
        · have hlength : (s.resources ++ [kind.fresh arg made]).length ≤ id := by
            simp only [List.length_append, List.length_singleton]
            omega
          rw [List.getElem?_eq_none hlength] at hid
          cases hid
      case present =>
        rintro _ ⟨⟩
        exact ⟨_, List.getElem?_concat_length⟩
      case emptied => simp [State.release]
      case stored =>
        intro _ id
        simp [State.release]
      case unblocked =>
        intro op id
        by_cases hsame : op = holder.op
        · subst hsame
          simp [State.release, hlt]
        · simpa [State.release, Ne.symm hsame] using hs.unblocked op id
  | @resource id move res res' hres hstep =>
      refine { hs with good := ?_, live := ?_, present := fun hslot => ?_ }
      · intro id' res'' hid
        obtain ⟨rfl, rfl⟩ | ⟨-, hold⟩ := set_cases hid
        · exact hkind.step (hs.good hres) hstep
        · exact hs.good hold
      · intro id' res'' hid hlive
        obtain ⟨rfl, rfl⟩ | ⟨-, hold⟩ := set_cases hid
        · apply hs.live hres
          by_contra hdead
          rw [Bool.not_eq_true] at hdead
          rw [hkind.dead (hs.good hres) hdead hstep] at hlive
          cases hlive
        · exact hs.live hold hlive
      · obtain ⟨old, hold⟩ := hs.present hslot
        obtain ⟨hlt, -⟩ := List.getElem?_eq_some_iff.mp hold
        exact ⟨_, List.getElem?_eq_getElem (by simpa using hlt)⟩

/-- At every moment at most one resource is live. -/
theorem live_unique (hs : s.Sound kind Good) {i j : ℕ} {res res' : Res}
    (hi : s.resources[i]? = some res) (hlive : kind.live res = true)
    (hj : s.resources[j]? = some res') (hlive' : kind.live res' = true) : i = j := by
  have hbusy : ∀ {id holder}, s.slot = some id → s.holder = some holder →
      holder.stage = .locked := by
    intro id holder hslot hholder
    by_contra hstage
    rw [hs.emptied hholder hstage] at hslot
    cases hslot
  obtain hi | ⟨holder, hholder, hstage⟩ := hs.live hi hlive <;>
    obtain hj | ⟨holder', hholder', hstage'⟩ := hs.live hj hlive'
  · exact Option.some.inj (hi.symm.trans hj)
  · rw [hbusy hi hholder'] at hstage'
    cases hstage'
  · rw [hbusy hj hholder] at hstage
    cases hstage
  · rw [hholder] at hholder'
    cases hholder'
    rw [hstage] at hstage'
    cases hstage'
    rfl

end State.Sound

theorem sound_of_reachable (hkind : kind.Lawful Good)
    (h : (slot kind Error).Reachable s) :
    s.Sound kind Good :=
  h.invariant State.sound_empty fun _ _ _ _ hs hstep =>
    hs.step hkind (steps_of_step hstep)

/-! ## One operation after the other -/

/-- Every operation has ended. -/
def State.Settled (s : State Arg Res Error) : Prop :=
  ∀ {op : ℕ} {status}, s.ops[op]? = some status → ∃ outcome, status = .ended outcome

/-- An operation ends as its request allows. -/
def Outcome.Fits (request : Request Arg) : Outcome Error → Prop
  | .stopped => request = .stop
  | _ => ∃ arg, request = .start arg

/-- How far the operation is. -/
inductive State.Progress (s : State Arg Res Error) (op : ℕ)
    (request : Request Arg) : Prop
  | waiting (hop : s.ops[op]? = some (.waiting request))
  | holding {stage : Stage} (hop : s.ops[op]? = some .holding)
      (hholder : s.holder = some ⟨op, request, stage⟩)
  | ended {outcome : Outcome Error} (hop : s.ops[op]? = some (.ended outcome))
      (hlast : s.last = some (op, outcome)) (hfits : outcome.Fits request)

/-- Every operation but one has ended. -/
structure State.Only (s : State Arg Res Error) (op : ℕ) (request : Request Arg) :
    Prop where
  others : ∀ {op' : ℕ} {status}, op' ≠ op → s.ops[op']? = some status →
    ∃ outcome, status = .ended outcome
  progress : s.Progress op request

theorem State.Settled.call (h : s.Settled) (request : Request Arg) :
    (s.call request).Only s.ops.length request where
  others := by
    intro op' status hne hop
    have hlt : op' < s.ops.length := by
      obtain ⟨hlt, -⟩ := List.getElem?_eq_some_iff.mp hop
      simp only [State.call, List.length_append, List.length_singleton] at hlt
      omega
    rw [State.call, List.getElem?_append_left hlt] at hop
    exact h hop
  progress := .waiting (by simp [State.call])

theorem State.Settled.no_holder (h : s.Settled) (hs : s.Sound kind Good) :
    s.holder = none := by
  by_contra hholder
  obtain ⟨holder, hholder⟩ := Option.ne_none_iff_exists'.mp hholder
  obtain ⟨outcome, ⟨⟩⟩ := h (hs.holding hholder)

/-- Once all operations have ended, only resources move. -/
theorem State.Settled.step_cases (h : s.Settled) (hs : s.Sound kind Good)
    (hlabel : ∀ request, label ≠ .call request) (hstep : s.step kind label = some s') :
    ∃ id move res res', s.resources[id]? = some res ∧ kind.step res move = some res' ∧
      s' = { s with resources := s.resources.set id res' } := by
  have hfree := h.no_holder hs
  cases steps_of_step hstep with
  | call request => exact absurd rfl (hlabel request)
  | acquire hop _ => obtain ⟨outcome, ⟨⟩⟩ := h hop
  | resource hres hmove => exact ⟨_, _, _, _, hres, hmove, rfl⟩
  | takeOut hholder _ _ _ _ =>
      rw [hfree] at hholder
      cases hholder
  | proceed _ hholder _ =>
      rw [hfree] at hholder
      cases hholder
  | fail _ hholder _ _ =>
      rw [hfree] at hholder
      cases hholder
  | block hholder _ _ _ _ =>
      rw [hfree] at hholder
      cases hholder
  | store hholder _ _ =>
      rw [hfree] at hholder
      cases hholder

theorem State.Settled.step (h : s.Settled) (hs : s.Sound kind Good)
    (hlabel : ∀ request, label ≠ .call request) (hstep : s.step kind label = some s') :
    s'.Settled ∧ s'.slot = s.slot := by
  obtain ⟨id, move, res, res', -, -, rfl⟩ := h.step_cases hs hlabel hstep
  exact ⟨h, rfl⟩

/-- A resource that is live was live before. -/
theorem State.Settled.live_of_step (h : s.Settled) (hkind : kind.Lawful Good)
    (hs : s.Sound kind Good) (hlabel : ∀ request, label ≠ .call request)
    (hstep : s.step kind label = some s') {id : ℕ} {res' : Res}
    (hres' : s'.resources[id]? = some res') (hlive : kind.live res' = true) :
    ∃ res, s.resources[id]? = some res ∧ kind.live res = true := by
  obtain ⟨moved, move, res, new, hres, hmove, rfl⟩ := h.step_cases hs hlabel hstep
  obtain ⟨rfl, rfl⟩ | ⟨-, hold⟩ := set_cases hres'
  · refine ⟨res, hres, ?_⟩
    by_contra hdead
    rw [Bool.not_eq_true] at hdead
    rw [hkind.dead (hs.good hres) hdead hmove] at hlive
    cases hlive
  · exact ⟨res', hold, hlive⟩

/-- The operation that has the lock is the one that has not ended. -/
theorem State.Only.holder {op : ℕ} {request : Request Arg} (h : s.Only op request)
    (hs : s.Sound kind Good) {holder : Holder Arg} (hholder : s.holder = some holder) :
    ∃ stage, holder = ⟨op, request, stage⟩ := by
  have hholding := hs.holding hholder
  have hop : holder.op = op := by
    by_contra hne
    obtain ⟨outcome, ⟨⟩⟩ := h.others hne hholding
  rw [hop] at hholding
  cases h.progress with
  | waiting hwaiting =>
      rw [hholding] at hwaiting
      cases hwaiting
  | holding _ hholder' =>
      rw [hholder] at hholder'
      cases hholder'
      exact ⟨_, rfl⟩
  | ended hended _ _ =>
      rw [hholding] at hended
      cases hended

theorem State.Only.release {op : ℕ} {request : Request Arg} (h : s.Only op request)
    (hop : s.ops[op]? = some .holding) {outcome : Outcome Error}
    (hfits : outcome.Fits request) :
    (s.release op outcome).Only op request where
  others := by
    intro op' status hne hop'
    rw [State.release, List.getElem?_set_ne (Ne.symm hne)] at hop'
    exact h.others hne hop'
  progress := by
    obtain ⟨hlt, -⟩ := List.getElem?_eq_some_iff.mp hop
    exact .ended (by simp [State.release, hlt]) rfl hfits

theorem State.Only.step {op : ℕ} {request : Request Arg} (h : s.Only op request)
    (hs : s.Sound kind Good) (hlabel : ∀ request, label ≠ .call request)
    (hstep : s.step kind label = some s') : s'.Only op request := by
  cases steps_of_step hstep with
  | call request => exact absurd rfl (hlabel request)
  | @acquire op' request' hop hfree =>
      have hsame : op' = op := by
        by_contra hne
        obtain ⟨outcome, ⟨⟩⟩ := h.others hne hop
      subst hsame
      obtain ⟨hlt, -⟩ := List.getElem?_eq_some_iff.mp hop
      refine ⟨fun hne hop' => ?_, ?_⟩
      · rw [List.getElem?_set_ne (Ne.symm hne)] at hop'
        exact h.others hne hop'
      · cases h.progress with
        | waiting hwaiting =>
            rw [hop] at hwaiting
            cases hwaiting
            exact .holding (by simp [hlt]) rfl
        | holding hholding _ =>
            rw [hop] at hholding
            cases hholding
        | ended hended _ _ =>
            rw [hop] at hended
            cases hended
  | takeOut hholder hlocked hslot hres hretire =>
      obtain ⟨stage, rfl⟩ := h.holder hs hholder
      have hop := hs.holding hholder
      exact ⟨h.others, .holding hop rfl⟩
  | proceed _ hholder hcleared =>
      obtain ⟨stage, rfl⟩ := h.holder hs hholder
      have hop := hs.holding hholder
      cases request with
      | start arg => exact ⟨h.others, .holding hop rfl⟩
      | stop => exact h.release hop rfl
  | fail error hholder hmaking hrequest =>
      obtain ⟨stage, rfl⟩ := h.holder hs hholder
      exact h.release (hs.holding hholder) ⟨_, hrequest⟩
  | block hholder hmaking hrequest hres hblocks =>
      obtain ⟨stage, rfl⟩ := h.holder hs hholder
      exact h.release (hs.holding hholder) ⟨_, hrequest⟩
  | store hholder hmaking hrequest =>
      obtain ⟨stage, rfl⟩ := h.holder hs hholder
      have hfits : (Outcome.stored s.resources.length : Outcome Error).Fits request :=
        ⟨_, hrequest⟩
      have hreleased := h.release (hs.holding hholder) hfits
      refine ⟨hreleased.others, ?_⟩
      cases hreleased.progress with
      | waiting hop => exact .waiting hop
      | holding hop hholder' => exact .holding hop hholder'
      | ended hop hlast hfits => exact .ended hop hlast hfits
  | resource hres hstep =>
      refine ⟨h.others, ?_⟩
      cases h.progress with
      | waiting hop => exact .waiting hop
      | holding hop hholder => exact .holding hop hholder
      | ended hop hlast hfits => exact .ended hop hlast hfits

theorem State.outcome_eq_some_iff {op : ℕ} {outcome : Outcome Error} :
    s.outcome op = some outcome ↔ s.ops[op]? = some (.ended outcome) := by
  unfold State.outcome
  split
  case h_1 found hop => simp [hop]
  case h_2 hother =>
    constructor
    · rintro ⟨⟩
    · intro hop
      exact absurd hop (hother outcome)

theorem State.Only.settled {op : ℕ} {request : Request Arg} (h : s.Only op request)
    {outcome : Outcome Error} (houtcome : s.outcome op = some outcome) : s.Settled := by
  rw [State.outcome_eq_some_iff] at houtcome
  intro op' status hop'
  by_cases hsame : op' = op
  · subst hsame
    rw [houtcome] at hop'
    cases hop'
    exact ⟨outcome, rfl⟩
  · exact h.others hsame hop'

/-- When the one operation has ended, the slot holds what it has stored. -/
theorem State.Only.slot_iff {op : ℕ} {request : Request Arg} (h : s.Only op request)
    (hs : s.Sound kind Good) {outcome : Outcome Error}
    (houtcome : s.outcome op = some outcome) :
    outcome.Fits request ∧ ∀ id, s.slot = some id ↔ outcome = .stored id := by
  have hsettled : s.Settled := h.settled houtcome
  have hfree := hsettled.no_holder hs
  rw [State.outcome_eq_some_iff] at houtcome
  cases h.progress with
  | waiting hop =>
      rw [houtcome] at hop
      cases hop
  | holding hop _ =>
      rw [houtcome] at hop
      cases hop
  | ended hop hlast hfits =>
      rw [houtcome] at hop
      cases hop
      refine ⟨hfits, fun id => ?_⟩
      rw [hs.stored (by simp [hfree]) id, hlast]
      simp

end Yunpan.Slot
