import Yunpan.Desktop.Calm

/-!
# The window and the engine agree

In a calm run the window shows what the engine does: whether something is shared, and,
through a task that carries it over, what the tunnel reports.
-/

namespace Yunpan.Desktop

open Yunpan.Transition Yunpan.Protocol Yunpan.Dufs Yunpan.Client

/-! ## Conditions on tunnels and their forwarders -/

/-- The tunnel in the slot does not give up by itself. -/
def Persists (hmac : Hmac) (w : Window) : WindowLabel → Prop
  | .tunnel (.resource id move) => w.tunnelSlot.slot = some id →
      ∀ t ∈ w.tunnelSlot.resources[id]?, ∀ t' ∈ (tunnelKind hmac).step t move,
        t'.over = false
  | _ => True

instance (hmac : Hmac) (w : Window) (label : WindowLabel) :
    Decidable (Persists hmac w label) := by
  unfold Persists
  split <;> infer_instance

/-- No forwarder of a former tunnel comes with its last status after the next tunnel
was stored. -/
def Prompt (w : Window) : WindowLabel → Prop
  | .forward f => ∀ entry ∈ w.forwarders[f]?, ∀ forwarder ∈ entry,
      ∀ id ∈ w.tunnelSlot.slot, forwarder.tunnel = id
  | _ => True

instance (w : Window) : (label : WindowLabel) → Decidable (Prompt w label)
  | .forward f => inferInstanceAs (Decidable (∀ entry ∈ w.forwarders[f]?, _))
  | .configure _ | .switchTab _ | .pressStart | .pressStop | .tray | .autoStart | .poll _
  | .share _ | .tunnel _ => isTrue trivial

namespace Window

variable {inUse : InUse} {hmac : Hmac} {cfg : AppConfig} {w w' : Window}
    {label : WindowLabel}

/-- Once a forwarder of the tunnel in the slot has seen every status, the window shows
the latest one. -/
def Shown (w : Window) : Prop :=
  ∀ (id : ℕ) (t : Tunnel) (f : ℕ) (forwarder : Forwarder),
    w.tunnelSlot.slot = some id → w.tunnelSlot.resources[id]? = some t →
    w.forwarders[f]? = some (some forwarder) → forwarder.tunnel = id →
    forwarder.seen = t.runner.published.length → w.relayState = latest t

/-! ## Tunnels that do not give up -/

/-- The task of the tunnel in the slot is still there. -/
def Persistent (w : Window) : Prop :=
  ∀ id t, w.tunnelSlot.slot = some id → w.tunnelSlot.resources[id]? = some t →
    t.over = false

theorem Persistent.step (hs : w.Persistent) (hcond : Persists hmac w label)
    (h : w.step inUse hmac label = some w') : w'.Persistent := by
  obtain hcalls | ⟨_, slot, -, rfl⟩ | ⟨slotLabel, slot, rfl, hslot, rfl⟩ :=
    calls_or_moves h
  · intro id t
    obtain hsame | ⟨request, hcall⟩ := hcalls.tunnel
    · rw [hsame]
      exact hs id t
    · rw [hcall]
      exact hs id t
  · exact hs
  · intro id t hid ht
    cases Slot.steps_of_step hslot with
    | call request => exact hs id t hid ht
    | acquire _ _ => exact hs id t hid ht
    | takeOut _ _ _ _ _ => cases hid
    | @proceed _ holder _ _ _ =>
        unfold Slot.State.proceed at hid ht
        cases hrequest : holder.request <;> rw [hrequest] at hid ht <;>
          exact hs id t hid ht
    | fail _ _ _ _ => exact hs id t hid ht
    | block _ _ _ _ _ => exact hs id t hid ht
    | @store _ tunnelCfg made _ _ _ =>
        cases hid
        rw [List.getElem?_concat_length] at ht
        cases ht
        rfl
    | @resource moved move res res' hres hmove =>
        obtain ⟨rfl, rfl⟩ | ⟨-, hold⟩ := set_cases ht
        · exact hcond hid res hres t hmove
        · exact hs id t hid hold

/-! ## What the forwarders have seen -/

/-- A tunnel publishes by adding to what was published. -/
theorem published_suffix {t t' : Tunnel} {move : ℕ × RunLabel}
    (h : (tunnelKind hmac).step t move = some t') :
    t.runner.published <:+ t'.runner.published := by
  obtain ⟨now, label⟩ := move
  have hmove : t.move hmac now label = some t' := by
    cases label <;> first | exact h | cases h
  obtain ⟨runner, hstep, rfl⟩ := Option.map_eq_some_iff.mp hmove
  cases Runner.step_cases hstep with
  | session => exact List.suffix_append _ _
  | begun _ hpublished => exact hpublished ▸ List.suffix_cons _ _
  | outside _ hpublishes =>
      obtain hsame | ⟨status, hnew, -⟩ := hpublishes
      · exact hsame ▸ List.suffix_rfl
      · exact hnew ▸ List.suffix_cons _ _
  | handle _ _ hpublished => exact hpublished ▸ List.suffix_rfl

/-- The forwarders belong to tunnels that were made, have seen no more than these
published, and show the latest status when they have seen everything. -/
structure Kept (w : Window) : Prop where
  known : ∀ {f : ℕ} {forwarder : Forwarder}, w.forwarders[f]? = some (some forwarder) →
    forwarder.tunnel < w.tunnelSlot.resources.length
  behind : ∀ {f : ℕ} {forwarder : Forwarder} {t : Tunnel},
    w.forwarders[f]? = some (some forwarder) →
    w.tunnelSlot.resources[forwarder.tunnel]? = some t →
    forwarder.seen ≤ t.runner.published.length
  begun : ∀ {id : ℕ} {t : Tunnel}, w.tunnelSlot.resources[id]? = some t →
    t.runner.published ≠ []
  shown : w.Shown

theorem kept_init : (Window.init cfg).Kept := by
  constructor <;> simp [init, Slot.State.empty, Shown]

/-- The tunnels go on, nobody forwards, and the window still shows what it showed unless
the slot was emptied. -/
theorem Kept.still (hs : w.Kept)
    (hforwarders : ∀ {f : ℕ} {forwarder : Forwarder}, w'.forwarders[f]? = some (some forwarder) →
      w.forwarders[f]? = some (some forwarder))
    (hlength : w'.tunnelSlot.resources.length = w.tunnelSlot.resources.length)
    (hgrown : ∀ {id : ℕ} {t' : Tunnel}, w'.tunnelSlot.resources[id]? = some t' →
      ∃ t, w.tunnelSlot.resources[id]? = some t ∧
        t.runner.published <:+ t'.runner.published)
    (hslot : ∀ {id}, w'.tunnelSlot.slot = some id →
      w.tunnelSlot.slot = some id ∧ w'.relayState = w.relayState) : w'.Kept where
  known hf := hlength ▸ hs.known (hforwarders hf)
  behind hf ht' := by
    obtain ⟨t, ht, hsuffix⟩ := hgrown ht'
    exact (hs.behind (hforwarders hf) ht).trans hsuffix.length_le
  begun ht' hnil := by
    obtain ⟨t, ht, hsuffix⟩ := hgrown ht'
    rw [hnil, List.suffix_nil] at hsuffix
    exact hs.begun ht hsuffix
  shown := by
    rintro id t' f forwarder hid ht' hf rfl hseen
    obtain ⟨hid, hsame⟩ := hslot hid
    obtain ⟨t, ht, hsuffix⟩ := hgrown ht'
    have hle := hs.behind (hforwarders hf) ht
    have hall : t.runner.published = t'.runner.published :=
      hsuffix.eq_of_length (by have := hsuffix.length_le; omega)
    rw [hsame, hs.shown _ t f forwarder hid ht (hforwarders hf) rfl (by rw [hall, hseen])]
    rw [latest, latest, hall]

/-- The tunnels' side is as it was, and so is what is shown. -/
theorem Kept.congr (hs : w.Kept)
    (hforwarders : ∀ {f : ℕ} {forwarder : Forwarder}, w'.forwarders[f]? = some (some forwarder) →
      w.forwarders[f]? = some (some forwarder))
    (hresources : w'.tunnelSlot.resources = w.tunnelSlot.resources)
    (hslot : w'.tunnelSlot.slot = w.tunnelSlot.slot)
    (hshown : w'.relayState = w.relayState ∨ w.tunnelSlot.slot = none) : w'.Kept := by
  refine hs.still hforwarders (by rw [hresources])
    (fun ht => ⟨_, hresources ▸ ht, List.suffix_rfl⟩) fun hid => ?_
  rw [hslot] at hid
  exact ⟨hid, hshown.resolve_right (by simp [hid])⟩

/-- The new forwarder, whose tunnel is the one in the slot, has its first status shown. -/
theorem Kept.tunnelStarted (hs : w.Kept) {k : ℕ} {scope : Scope}
    {outcome : Slot.Outcome Empty}
    (hslot : ∀ id, w.tunnelSlot.slot = some id ↔ outcome = .stored id) :
    (w.tunnelStarted k scope outcome).Kept := by
  have hsame : (w.endTask k).Kept := hs.congr id rfl rfl (Or.inl rfl)
  cases outcome with
  | stored id =>
      unfold Window.tunnelStarted
      cases ht : w.tunnelSlot.resources[id]? with
      | none => simpa only [ht] using hsame
      | some t =>
          have hcases : ∀ {f : ℕ} {forwarder : Forwarder},
              (w.forwarders ++ [some ⟨scope, id, 1⟩])[f]? = some (some forwarder) →
                w.forwarders[f]? = some (some forwarder) ∨ forwarder = ⟨scope, id, 1⟩ :=
            fun hf => (append_cases hf).imp_right Option.some.inj
          obtain ⟨hlt, -⟩ := List.getElem?_eq_some_iff.mp ht
          simp only [ht]
          refine ⟨fun hf => ?_, fun hf ht' => ?_, hs.begun, ?_⟩
          · obtain hold | rfl := hcases hf
            · exact hs.known hold
            · exact hlt
          · obtain hold | rfl := hcases hf
            · exact hs.behind hold ht'
            · exact List.length_pos_iff.mpr (hs.begun ht')
          · intro id' t' f forwarder hid ht' _ _ _
            obtain rfl : id = id' := by
              have hstored := (hslot id').mp hid
              cases hstored
              rfl
            obtain rfl : t = t' := Option.some.inj (ht.symm.trans ht')
            rfl
  | _ => exact hsame

theorem Kept.beginStart (hs : w.Kept) (k : ℕ) (scope : Scope) :
    (w.beginStart k scope).Kept := by
  unfold Window.beginStart
  split <;> exact hs.congr id rfl rfl (Or.inl rfl)

/-- Whatever is shown about the relay while there is no tunnel. -/
theorem Kept.shareStarted (hs : w.Kept) (hempty : w.tunnelSlot.slot = none) {k : ℕ}
    {scope : Scope} {cfg : AppConfig} {outcome : Slot.Outcome String} :
    (w.shareStarted k scope cfg outcome).Kept := by
  unfold Window.shareStarted
  split
  case h_1 => exact hs.congr id rfl rfl (Or.inr hempty)
  case h_2 =>
    split
    case isTrue => split <;> exact hs.congr id rfl rfl (Or.inr hempty)
    case isFalse => exact hs.congr id rfl rfl (Or.inr hempty)

theorem Kept.poll (hs : w.Kept) (hsteady : w.Steady) (hslots : w.Slots inUse hmac)
    {k : ℕ} (h : w.poll k = some w') : w'.Kept := by
  unfold Window.poll at h
  split at h
  case h_1 scope phase htask =>
    obtain ⟨-, hfits⟩ := hsteady.work htask
    cases phase with
    | start =>
        cases h
        exact hs.beginStart k scope
    | startingShare cfg op =>
        obtain ⟨outcome, -, rfl⟩ := Option.map_eq_some_iff.mp h
        cases hfits with
        | startingShare _ _ hempty => exact hs.shareStarted hempty
    | startingTunnel op =>
        obtain ⟨outcome, houtcome, rfl⟩ := Option.map_eq_some_iff.mp h
        cases hfits with
        | startingTunnel _ _ _ htunnel =>
            exact hs.tunnelStarted (htunnel.slot_iff hslots.tunnel houtcome).2
    | stop =>
        cases h
        exact hs.congr id rfl rfl (Or.inl rfl)
    | stoppingTunnel op =>
        obtain ⟨outcome, -, rfl⟩ := Option.map_eq_some_iff.mp h
        exact hs.congr id rfl rfl (Or.inl rfl)
    | stoppingShare op =>
        obtain ⟨outcome, -, rfl⟩ := Option.map_eq_some_iff.mp h
        cases hfits with
        | stoppingShare _ _ hempty => exact hs.congr id rfl rfl (Or.inr hempty)
  case h_2 => cases h

/-- The pages' own forwarders are cancelled, the others go on. -/
theorem Kept.switchTab (hs : w.Kept) (tab : Tab) : (w.switchTab tab).Kept := by
  unfold Window.switchTab
  split
  case isTrue =>
    refine hs.congr (fun {f forwarder} hf => ?_) rfl rfl (Or.inl rfl)
    rw [List.getElem?_map, Option.map_eq_some_iff] at hf
    obtain ⟨entry, hentry, hfilter⟩ := hf
    rw [hentry, (Option.filter_eq_some_iff.mp hfilter).1]
  case isFalse => exact hs.congr id rfl rfl (Or.inl rfl)

/-- The forwarder of the tunnel in the slot shows what the tunnel published last. -/
theorem Kept.forward (hs : w.Kept) {f : ℕ} (hprompt : Prompt w (.forward f))
    (h : w.forward f = some w') : w'.Kept := by
  obtain ⟨forwarder, hforwarder, h⟩ := Option.bind_eq_some_iff.mp h
  obtain ⟨t, ht, h⟩ := Option.bind_eq_some_iff.mp h
  have hf : w.forwarders[f]? = some (some forwarder) :=
    Option.join_eq_some_iff.mp hforwarder
  split at h
  case isTrue =>
    cases h
    refine ⟨fun hg => ?_, fun hg ht' => ?_, hs.begun, ?_⟩
    · obtain ⟨-, heq⟩ | ⟨-, hold⟩ := set_cases hg
      · cases heq
        have hlt := hs.known hf
        exact hlt
      · exact hs.known hold
    · obtain ⟨-, heq⟩ | ⟨-, hold⟩ := set_cases hg
      · cases heq
        rw [ht] at ht'
        cases ht'
        exact Nat.le_refl _
      · exact hs.behind hold ht'
    · intro id t' g forwarder' hid ht' _ _ _
      obtain rfl : forwarder.tunnel = id := hprompt _ hf forwarder rfl id hid
      obtain rfl : t = t' := Option.some.inj (ht.symm.trans ht')
      rfl
  case isFalse =>
    split at h <;> cases h
    refine hs.congr (fun hg => ?_) rfl rfl (Or.inl rfl)
    obtain ⟨-, heq⟩ | ⟨-, hold⟩ := set_cases hg
    · cases heq
    · exact hold

/-- The tunnels' operations: what is published grows, and a new tunnel has no forwarder
yet. -/
theorem Kept.tunnel (hs : w.Kept)
    {label : Slot.Label ClientConfig Unit (ℕ × RunLabel) Empty} {slot : TunnelSlot}
    (h : w.tunnelSlot.step (tunnelKind hmac) label = some slot) :
    ({ w with tunnelSlot := slot } : Window).Kept := by
  have hgrown : ∀ {old : ℕ} {res res' : Tunnel},
      w.tunnelSlot.resources[old]? = some res →
      res.runner.published <:+ res'.runner.published →
      ∀ {id : ℕ} {t' : Tunnel}, (w.tunnelSlot.resources.set old res')[id]? = some t' →
        ∃ t, w.tunnelSlot.resources[id]? = some t ∧
          t.runner.published <:+ t'.runner.published := by
    intro old res res' hres hsuffix id t' ht'
    obtain ⟨rfl, rfl⟩ | ⟨-, hold⟩ := set_cases ht'
    · exact ⟨res, hres, hsuffix⟩
    · exact ⟨t', hold, List.suffix_rfl⟩
  cases Slot.steps_of_step h with
  | call request => exact hs.congr id rfl rfl (Or.inl rfl)
  | acquire => exact hs.congr id rfl rfl (Or.inl rfl)
  | @takeOut _ old res res' _ _ _ hres hretire =>
      have hstop : res.move hmac 0 .stop = some res' := hretire
      have hsuffix : res.runner.published <:+ res'.runner.published := by
        cases hstop
        exact List.suffix_rfl
      exact hs.still id (List.length_set ..) (hgrown hres hsuffix)
        fun hid => by cases hid
  | @proceed _ holder =>
      cases hrequest : holder.request <;> simp only [Slot.State.proceed, hrequest] <;>
        exact hs.congr id rfl rfl (Or.inl rfl)
  | fail => exact hs.congr id rfl rfl (Or.inl rfl)
  | block => exact hs.congr id rfl rfl (Or.inl rfl)
  | @store _ cfg made =>
      refine ⟨fun hf => ?_, fun {f forwarder t} hf ht => ?_, fun {id t} ht => ?_, ?_⟩
      · exact (hs.known hf).trans_le (by simp)
      · have hold := hs.known hf
        rw [List.getElem?_append_left hold] at ht
        exact hs.behind hf ht
      · obtain hold | rfl := append_cases ht
        · exact hs.begun hold
        · exact List.cons_ne_nil _ _
      · rintro id t f forwarder hid _ hf rfl _
        have hold := hs.known hf
        have hnew : w.tunnelSlot.resources.length = forwarder.tunnel :=
          Option.some.inj hid
        omega
  | @resource old move res res' hres hmove =>
      exact hs.still id (List.length_set ..) (hgrown hres (published_suffix hmove))
        fun hid => ⟨hid, rfl⟩

theorem Kept.step (hs : w.Kept) (hsteady : w.Steady) (hslots : w.Slots inUse hmac)
    (hprompt : Prompt w label) (h : w.step inUse hmac label = some w') : w'.Kept := by
  cases label with
  | configure cfg =>
      cases h
      exact hs.congr id rfl rfl (Or.inl rfl)
  | switchTab tab =>
      cases h
      exact hs.switchTab tab
  | pressStart =>
      change (if w.tab = .share then some (w.spawnTask .shareView .start)
        else none) = _ at h
      split at h <;> cases h
      exact hs.congr id rfl rfl (Or.inl rfl)
  | pressStop =>
      change (if w.tab = .share then some (w.spawnTask .shareView .stop)
        else none) = _ at h
      split at h <;> cases h
      exact hs.congr id rfl rfl (Or.inl rfl)
  | tray =>
      cases h
      unfold Window.tray
      split <;> exact hs.congr id rfl rfl (Or.inl rfl)
  | autoStart =>
      have hs' : ({ w with autoStarted := true } : Window).Kept :=
        hs.congr id rfl rfl (Or.inl rfl)
      have hauto : w.autoStart = some w' := h
      unfold Window.autoStart at hauto
      split at hauto
      case isTrue => cases hauto
      case isFalse =>
        dsimp only at hauto
        split at hauto <;> cases hauto
        · have hspawned : (({ w with autoStarted := true } : Window).spawnTask .app
              .start).Kept := hs'.congr id rfl rfl (Or.inl rfl)
          exact hspawned.beginStart w.tasks.length .app
        · exact hs'
  | poll k => exact hs.poll hsteady hslots h
  | forward f => exact hs.forward hprompt h
  | share label =>
      obtain ⟨-, slot, -, rfl⟩ := share_cases h
      exact hs.congr id rfl rfl (Or.inl rfl)
  | tunnel label =>
      obtain ⟨-, slot, hslot, rfl⟩ := tunnel_cases h
      exact hs.tunnel hslot

/-- In calm runs, whenever no `do_start` or `do_stop` is running, the window and the
engine agree, and a task is alive that carries the changes of the tunnel into the window.
If no forwarder of a former tunnel comes late, the window shows the latest status as soon
as that task has seen it. -/
theorem window_agrees {history : List (Window × WindowLabel)}
    (hrun : (window inUse hmac cfg).Run history w) (hcalm : System.Always Calm history)
    (hidle : w.Idle) :
    w.Agrees ∧ w.Followed ∧
      (System.Always (Persists hmac) history →
        ∀ id, w.tunnelSlot.slot = some id → w.Forwarded id) ∧
      (System.Always Prompt history → w.Shown) := by
  have hslots := slots_of_reachable hrun.reachable
  have hsteady : w.Steady := hrun.invariant_of_always hcalm steady_init
    fun _ _ _ hreach hs hcond hstep => hs.step (slots_of_reachable hreach) hcond hstep
  obtain ⟨-, -, hagrees, hfollowed⟩ := hsteady.rest hidle
  refine ⟨hagrees, hfollowed, fun halways id hid => ?_, fun hprompt => ?_⟩
  · have hpersistent : w.Persistent := hrun.invariant_of_always halways
      (by rintro id t ⟨⟩) fun _ _ _ _ hs hcond hstep => hs.step hcond hstep
    obtain ⟨t, ht⟩ := hslots.tunnel.present hid
    exact hfollowed _ _ hid ht (hpersistent id t hid ht)
  · have hsteadies : System.Always (fun w _ => w.Steady) history :=
      hrun.forall_of_always hcalm steady_init
        (fun _ _ _ hreach hs hcond hstep => hs.step (slots_of_reachable hreach) hcond
          hstep) fun _ _ hs _ => hs
    have hboth : System.Always (fun w label => w.Steady ∧ Prompt w label) history :=
      fun entry hentry => ⟨hsteadies entry hentry, hprompt entry hentry⟩
    have hkept : w.Kept := hrun.invariant_of_always hboth kept_init
      fun _ _ _ hreach hs hcond hstep =>
        hs.step hcond.1 (slots_of_reachable hreach) hcond.2 hstep
    exact hkept.shown

/-! ## Runs on fixed inputs -/

def sampleCfg : AppConfig := { AppConfig.default with servePath := "/srv/share" }

def relayedCfg : AppConfig :=
  { sampleCfg with
    relay := { RelaySettings.default with
      enabled := true
      host := "relay.example.com"
      clientId := "mac"
      token := "mac-0123456789abcdef" } }

/-- The tray starts the share and its tunnel; the relay cannot be reached, and the
window, whose page was left, says so. -/
def startedByTray : List WindowLabel :=
  [.tray, .poll 0, .share (.acquire 0), .share .take,
    .share (.make (.ok ["http://192.168.1.5:5000"])), .poll 0, .tunnel (.acquire 0),
    .tunnel .take, .tunnel (.make (.ok ())), .poll 0, .tunnel (.resource 0 (0, .begin)),
    .forward 0, .switchTab .relay, .tunnel (.resource 0 (0, .connected false)),
    .tunnel (.resource 0 (0, .finish)), .forward 0]

/-- Back on the share page, the button stops both. -/
def stoppedByButton : List WindowLabel :=
  [.switchTab .share, .pressStop, .poll 1, .tunnel (.acquire 1), .tunnel .take,
    .tunnel (.resource 0 (0, .interrupted)), .tunnel .retired, .poll 1,
    .share (.acquire 1), .share .take, .share (.resource 0 (.leave 0)),
    .share (.resource 0 .join), .share (.resource 0 .returns), .share .retired, .poll 1,
    .forward 0, .forward 0]

/-- A tunnel's change of status is carried over after the page was left, and a stop
empties both slots. -/
theorem window_agrees_sample : ∃ before w after w',
    (window (fun _ _ => true) (fun _ _ => []) relayedCfg).Run before w ∧
      w.tab = .relay ∧ w.relayState = .retrying .connect 1 ∧ w.Agrees ∧ w.Forwarded 0 ∧
      w.Shown ∧
    (window (fun _ _ => true) (fun _ _ => []) relayedCfg).Run (after ++ before) w' ∧
      w'.share = .stopped ∧ w'.Agrees := by
  have hexec : ((((window (fun _ _ => true) (fun _ _ => []) relayedCfg).restrict
      fun w label => Calm w label ∧ Persists (fun _ _ => []) w label ∧
        Prompt w label).exec
      (window (fun _ _ => true) (fun _ _ => []) relayedCfg).init startedByTray).any fun w =>
        decide (w.Idle ∧ w.tab = .relay ∧ w.relayState = .retrying .connect 1 ∧
          w.tunnelSlot.slot = some 0) &&
        (((window (fun _ _ => true) (fun _ _ => []) relayedCfg).restrict
          fun w label => Calm w label ∧ Persists (fun _ _ => []) w label ∧
            Prompt w label).exec w stoppedByButton).any fun w' =>
              decide (w'.Idle ∧ w'.share = .stopped)) = true := by
    decide +kernel
  obtain ⟨w, hw, hcheck⟩ := (Option.any_eq_true _ _).mp hexec
  obtain ⟨hthere, hafter⟩ := Bool.and_eq_true_iff.mp hcheck
  obtain ⟨hidle, htab, hstate, hslot⟩ := of_decide_eq_true hthere
  obtain ⟨w', hw', hcheck'⟩ := (Option.any_eq_true _ _).mp hafter
  obtain ⟨hidle', hstopped⟩ := of_decide_eq_true hcheck'
  obtain ⟨before, hrun, hall, -⟩ := System.Run.start.exec_restrict System.Always.nil hw
  obtain ⟨after, hrun', hall', -⟩ := hrun.exec_restrict hall hw'
  obtain ⟨hagrees, -, hforwarded, hshown⟩ :=
    window_agrees hrun (hall.mono fun _ _ h => h.1) hidle
  have hagrees' := (window_agrees hrun' (hall'.mono fun _ _ h => h.1) hidle').1
  exact ⟨_, w, after, w', hrun, htab, hstate, hagrees,
    hforwarded (hall.mono fun _ _ h => h.2.1) 0 hslot,
    hshown (hall.mono fun _ _ h => h.2.2), hrun', hstopped, hagrees'⟩

/-- The page is left while the share starts: the share runs, and the window says for
ever that it is starting. -/
theorem left_at_starting :
    ∃ w, (window (fun _ _ => true) (fun _ _ => []) sampleCfg).Reachable w ∧ w.Idle ∧
      w.share = .starting ∧ w.shareSlot.slot = some 0 ∧ ¬w.Agrees := by
  have hexec : (((window (fun _ _ => true) (fun _ _ => []) sampleCfg).exec
      (window (fun _ _ => true) (fun _ _ => []) sampleCfg).init
      [.pressStart, .poll 0, .switchTab .relay, .share (.acquire 0), .share .take,
        .share (.make (.ok ["http://192.168.1.5:5000"]))]).any
      fun w => w.Idle ∧ w.share = .starting ∧ w.shareSlot.slot = some 0) = true := by
    decide +kernel
  obtain ⟨w, hreach, hcheck⟩ := System.Reachable.init.exists_of_exec _ _ hexec
  obtain ⟨hidle, hstarting, hslot⟩ := of_decide_eq_true hcheck
  exact ⟨w, hreach, hidle, hstarting, hslot, fun hagrees => hagrees.settled hstarting⟩

end Window

end Yunpan.Desktop
