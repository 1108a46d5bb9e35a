import Yunpan.Core.Mirror

/-!
# The log page

Every thread may log: it pushes its line into a ring of 500 and then raises a sequence
number.  The page takes a snapshot when it opens and then the number, and from there on
looks at the number every second and takes another snapshot when it has changed.
-/

namespace Yunpan.Desktop

open Yunpan.Transition Yunpan.Mirror

/-! ## The bus -/

/-- `log::Level`. -/
inductive LogLevel where
  | error
  | warn
  | info
  | debug
  | trace
  deriving DecidableEq

def LogLevel.toNat : LogLevel → ℕ
  | .error => 1
  | .warn => 2
  | .info => 3
  | .debug => 4
  | .trace => 5

structure LogLine where
  level : LogLevel
  time : String
  text : String
  deriving DecidableEq

/-- `CAPACITY`. -/
def logCapacity : ℕ := 500

/-- `BUF`, oldest line in front, and `SEQ`. -/
structure LogBus where
  buf : List LogLine
  seq : UInt64

/-- `BusLogger::enabled`. -/
def logEnabled (level : LogLevel) : Bool := level.toNat ≤ LogLevel.info.toNat

/-- What `log` does with the lock on the buffer. -/
def LogBus.push (bus : LogBus) (line : LogLine) : LogBus :=
  { bus with buf := Mirror.push logCapacity bus.buf line }

/-- `SEQ.fetch_add`. -/
def LogBus.count (bus : LogBus) : LogBus := { bus with seq := bus.seq + 1 }

/-- `snapshot`, newest line first. -/
def LogBus.snapshot (bus : LogBus) : List LogLine := bus.buf.reverse

/-! ## Threads that log and a page -/

/-- Where a thread stands in `log`. -/
inductive LogCall where
  | idle
  | formatted (line : LogLine)
  | pushed
  deriving DecidableEq

/-- Where `LogsView` stands: its `lines` are there but its future has not run, it sleeps,
or it has read a new number and not yet taken the snapshot. -/
inductive LogsPage where
  | closed
  | opened
  | waiting (lastSeq : UInt64)
  | renewing (lastSeq : UInt64)
  deriving DecidableEq

structure Logs where
  bus : LogBus
  calls : ℕ → LogCall
  page : LogsPage
  lines : List LogLine

inductive LogsLabel where
  | log (thread : ℕ) (level : LogLevel) (time text : String)
  | push (thread : ℕ)
  | count (thread : ℕ)
  | opens
  | note
  | poll
  | renew
  | close

def Logs.setCall (s : Logs) (thread : ℕ) (call : LogCall) : Logs :=
  { s with calls := Function.update s.calls thread call }

def Logs.step (s : Logs) : LogsLabel → Option Logs
  | .log thread level time text =>
      match s.calls thread with
      | .idle =>
          if logEnabled level then some (s.setCall thread (.formatted ⟨level, time, text⟩))
          else some s
      | _ => none
  | .push thread =>
      match s.calls thread with
      | .formatted line =>
          some { s.setCall thread .pushed with bus := s.bus.push line }
      | _ => none
  | .count thread =>
      match s.calls thread with
      | .pushed => some { s.setCall thread .idle with bus := s.bus.count }
      | _ => none
  | .opens =>
      match s.page with
      | .closed => some { s with page := .opened, lines := s.bus.snapshot }
      | _ => none
  | .note =>
      match s.page with
      | .opened => some { s with page := .waiting s.bus.seq }
      | _ => none
  | .poll =>
      match s.page with
      | .waiting lastSeq =>
          if s.bus.seq ≠ lastSeq then some { s with page := .renewing s.bus.seq }
          else some s
      | _ => none
  | .renew =>
      match s.page with
      | .renewing lastSeq =>
          some { s with page := .waiting lastSeq, lines := s.bus.snapshot }
      | _ => none
  -- the page is left while it sleeps, never between two lines of its future
  | .close =>
      match s.page with
      | .opened | .waiting _ => some { s with page := .closed, lines := [] }
      | _ => none

/-- What a step does, branch by branch. -/
inductive Logs.Moves (s : Logs) : LogsLabel → Logs → Prop
  | formatted {thread : ℕ} {level : LogLevel} {time text : String} :
      s.calls thread = .idle → logEnabled level = true →
      Moves s (.log thread level time text)
        (s.setCall thread (.formatted ⟨level, time, text⟩))
  | ignored {thread : ℕ} {level : LogLevel} {time text : String} :
      Moves s (.log thread level time text) s
  | pushed {thread : ℕ} {line : LogLine} : s.calls thread = .formatted line →
      Moves s (.push thread) { s.setCall thread .pushed with bus := s.bus.push line }
  | counted {thread : ℕ} : s.calls thread = .pushed →
      Moves s (.count thread) { s.setCall thread .idle with bus := s.bus.count }
  | opened : s.page = .closed →
      Moves s .opens { s with page := .opened, lines := s.bus.snapshot }
  | noted : s.page = .opened → Moves s .note { s with page := .waiting s.bus.seq }
  | same : s.page = .waiting s.bus.seq → Moves s .poll s
  | changed {lastSeq : UInt64} : s.page = .waiting lastSeq → s.bus.seq ≠ lastSeq →
      Moves s .poll { s with page := .renewing s.bus.seq }
  | renewed {lastSeq : UInt64} : s.page = .renewing lastSeq →
      Moves s .renew { s with page := .waiting lastSeq, lines := s.bus.snapshot }
  | closed : s.page = .opened ∨ (∃ lastSeq, s.page = .waiting lastSeq) →
      Moves s .close { s with page := .closed, lines := [] }

theorem Logs.step_cases {s s' : Logs} {label : LogsLabel} (h : s.step label = some s') :
    s.Moves label s' := by
  cases label <;> simp only [Logs.step] at h
  case log thread level time text =>
    split at h
    case h_1 hidle =>
      split at h
      case isTrue henabled => cases h; exact .formatted hidle henabled
      case isFalse => cases h; exact .ignored
    case h_2 => cases h
  case push thread =>
    split at h
    case h_1 line hcall => cases h; exact .pushed hcall
    case h_2 => cases h
  case count thread =>
    split at h
    case h_1 hcall => cases h; exact .counted hcall
    case h_2 => cases h
  case opens =>
    split at h
    case h_1 hpage => cases h; exact .opened hpage
    case h_2 => cases h
  case note =>
    split at h
    case h_1 hpage => cases h; exact .noted hpage
    case h_2 => cases h
  case poll =>
    split at h
    case h_1 lastSeq hpage =>
      split at h
      case isTrue hseq => cases h; exact .changed hpage hseq
      case isFalse hseq =>
        cases h
        exact .same (by rw [not_not.mp hseq, hpage])
    case h_2 => cases h
  case renew =>
    split at h
    case h_1 lastSeq hpage => cases h; exact .renewed hpage
    case h_2 => cases h
  case close =>
    split at h
    case h_1 hpage => cases h; exact .closed (Or.inl hpage)
    case h_2 lastSeq hpage => cases h; exact .closed (Or.inr ⟨lastSeq, hpage⟩)
    case h_3 => cases h

/-! ## What a reader of the run can see -/

/-- The program and what it does not keep itself: all lines that were pushed, newest
first, how many are counted, how many there were when the page took its snapshot, and how
many were counted when it read the number that it goes by. -/
structure Watched where
  logs : Logs
  pushed : List LogLine
  counted : ℕ
  copied : ℕ
  read : ℕ

def Watched.observe (w : Watched) (logs : Logs) : LogsLabel → Watched
  | .push thread =>
      match w.logs.calls thread with
      | .formatted line => { w with logs, pushed := line :: w.pushed }
      | _ => { w with logs }
  | .count _ => { w with logs, counted := w.counted + 1 }
  | .opens | .renew => { w with logs, copied := w.pushed.length }
  | .note => { w with logs, read := w.counted }
  | .poll =>
      if logs.page = w.logs.page then { w with logs } else { w with logs, read := w.counted }
  | _ => { w with logs }

def Watched.step (w : Watched) (label : LogsLabel) : Option Watched :=
  (w.logs.step label).map fun logs => w.observe logs label

/-- A fresh process. -/
def Logs.init : Logs where
  bus := ⟨[], 0⟩
  calls _ := .idle
  page := .closed
  lines := []

def logging : System Watched LogsLabel where
  init := ⟨Logs.init, [], 0, 0, 0⟩
  step := Watched.step

/-- No log call is in progress. -/
def Logs.Idle (s : Logs) : Prop := ∀ thread, s.calls thread = .idle

def LogsLabel.begins : LogsLabel → Bool
  | .log _ _ _ _ => true
  | _ => false

/-- The first number that the page reads counts no line that its snapshot lacks, and
between two numbers that it reads the counting does not come round to the same one. -/
def InTime (w : Watched) : LogsLabel → Prop
  | .note => w.counted ≤ w.copied
  | .poll => (w.counted - w.read) % 2 ^ 64 = 0 → w.counted = w.read
  | _ => True

instance (w : Watched) : (label : LogsLabel) → Decidable (InTime w label)
  | .note => inferInstanceAs (Decidable (w.counted ≤ w.copied))
  | .poll => inferInstanceAs (Decidable (_ → _))
  | .log _ _ _ _ | .push _ | .count _ | .opens | .renew | .close => .isTrue trivial

/-- After a poll during and since which no log call was in progress, the page shows the
snapshot. -/
def Fresh (history : List (Watched × LogsLabel)) (w : Watched) : Prop :=
  ∀ later first earlier, history = later ++ (first, .poll) :: earlier →
    first.logs.Idle → (∀ entry ∈ later, entry.2.begins = false) →
    (∃ lastSeq, w.logs.page = .waiting lastSeq) → w.logs.lines = w.logs.bus.snapshot

variable {w w' : Watched} {label : LogsLabel}

theorem Watched.step_cases (h : w.step label = some w') :
    ∃ logs, w.logs.Moves label logs ∧ w' = w.observe logs label := by
  obtain ⟨logs, hlogs, rfl⟩ := Option.map_eq_some_iff.mp h
  exact ⟨logs, Logs.step_cases hlogs, rfl⟩

/-! ## The ring, the number and the page -/

/-- What the program keeps of all that. -/
structure Watched.Shows (w : Watched) : Prop where
  buf : w.logs.bus.buf.reverse = w.pushed.take logCapacity
  seq : w.logs.bus.seq = UInt64.ofNat w.counted
  lastSeq : ∀ lastSeq, w.logs.page = .waiting lastSeq ∨ w.logs.page = .renewing lastSeq →
    lastSeq = UInt64.ofNat w.read
  copied : w.copied ≤ w.pushed.length
  lines : w.logs.page ≠ .closed →
    w.logs.lines = (asOf w.pushed w.copied).take logCapacity

theorem shows_init : logging.init.Shows := by
  constructor <;> simp [logging, Logs.init]

theorem Watched.Shows.step (hw : w.Shows) (h : w.step label = some w') : w'.Shows := by
  obtain ⟨hbuf, hseq, hlast, hcopied, hlines⟩ := hw
  have hsnapshot : w.logs.bus.snapshot =
      (asOf w.pushed w.pushed.length).take logCapacity := by
    rw [asOf_length, LogBus.snapshot, hbuf]
  obtain ⟨logs, hmove, rfl⟩ := Watched.step_cases h
  cases hmove with
  | formatted => exact ⟨hbuf, hseq, hlast, hcopied, hlines⟩
  | ignored => exact ⟨hbuf, hseq, hlast, hcopied, hlines⟩
  | @pushed thread line hcall =>
      simp only [Watched.observe, hcall]
      refine ⟨?_, hseq, hlast, Nat.le_succ_of_le hcopied, fun hpage => ?_⟩
      · exact reverse_push (by decide) hbuf line
      · rw [asOf_cons hcopied]
        exact hlines hpage
  | counted =>
      refine ⟨hbuf, ?_, hlast, hcopied, hlines⟩
      change w.logs.bus.seq + 1 = UInt64.ofNat (w.counted + 1)
      rw [hseq, UInt64.ofNat_add]
      rfl
  | opened => exact ⟨hbuf, hseq, by simp [Watched.observe], Nat.le_refl _,
      fun _ => hsnapshot⟩
  | noted =>
      refine ⟨hbuf, hseq, fun lastSeq hpage => ?_, hcopied, fun _ => hlines (by simp [*])⟩
      obtain rfl : w.logs.bus.seq = lastSeq := by simpa [Watched.observe] using hpage
      exact hseq
  | same =>
      rw [Watched.observe, if_pos rfl]
      exact ⟨hbuf, hseq, hlast, hcopied, hlines⟩
  | @changed lastSeq hpage =>
      rw [Watched.observe, if_neg (by simp [hpage])]
      refine ⟨hbuf, hseq, fun lastSeq hpage => ?_, hcopied, fun _ => hlines (by simp [*])⟩
      obtain rfl : w.logs.bus.seq = lastSeq := by simpa using hpage
      exact hseq
  | @renewed lastSeq hpage =>
      refine ⟨hbuf, hseq, fun lastSeq' hpage' => ?_, Nat.le_refl _, fun _ => hsnapshot⟩
      obtain rfl : lastSeq = lastSeq' := by simpa [Watched.observe] using hpage'
      exact hlast lastSeq (Or.inr hpage)
  | closed => exact ⟨hbuf, hseq, by simp [Watched.observe], hcopied,
      fun hopen => absurd rfl hopen⟩

theorem shows_of_reachable (h : logging.Reachable w) : w.Shows := by
  apply h.invariant
  · exact shows_init
  · intro s label s' _ hs hstep
    exact hs.step hstep

/-! ## The page as a reader of a board -/

def LogsPage.phase : LogsPage → Phase
  | .closed => .closed
  | .opened => .opened
  | .waiting _ => .waiting
  | .renewing _ => .renewing

/-- The lines are the items, and a thread between its push and its count is a writer
whose item is not counted. -/
def Watched.board (w : Watched) : Board ℕ LogLine where
  items := w.pushed
  counted := w.counted
  uncounted := {thread | w.logs.calls thread = .pushed}
  phase := w.logs.page.phase
  copied := w.copied
  read := w.read

def Watched.event (w : Watched) : LogsLabel → Option (Event ℕ LogLine)
  | .log _ _ _ _ => none
  | .push thread =>
      match w.logs.calls thread with
      | .formatted line => some (.add thread line)
      | _ => none
  | .count thread => some (.count thread)
  | .opens => some .opens
  | .note => some .note
  | .poll => some .poll
  | .renew => some .renew
  | .close => some .close

/-- A call that comes to another place than behind its push is no writer there. -/
theorem uncounted_update {calls : ℕ → LogCall} {thread : ℕ} {call : LogCall}
    (h : call ≠ .pushed) : {other | Function.update calls thread call other = .pushed} =
      {other | calls other = .pushed} \ {thread} := by
  ext other
  by_cases hother : other = thread <;> simp [hother, h]

theorem uncounted_pushed (calls : ℕ → LogCall) (thread : ℕ) :
    {other | Function.update calls thread .pushed other = .pushed} =
      insert thread {other | calls other = .pushed} := by
  ext other
  by_cases hother : other = thread <;> simp [hother]

/-- The page follows the board, whose counter shows a count in 64 bits. -/
theorem follows_board (hw : w.Shows) (h : w.step label = some w') :
    System.Follows (Mirror.board ℕ LogLine UInt64.ofNat) Watched.board Watched.event
      w label w' := by
  obtain ⟨logs, hmove, rfl⟩ := Watched.step_cases h
  cases hmove with
  | @formatted thread level time text hidle =>
      have hnot : thread ∉ {other | w.logs.calls other = .pushed} := by simp [hidle]
      have hsame : {other | Function.update w.logs.calls thread
            (.formatted ⟨level, time, text⟩) other = .pushed} =
          {other | w.logs.calls other = .pushed} := by
        rw [uncounted_update (by simp), Set.sdiff_singleton_eq_self hnot]
      exact congrArg (fun uncounted => { w.board with uncounted }) hsame
  | ignored => rfl
  | @pushed thread line hcall =>
      have hnot : thread ∉ {other | w.logs.calls other = .pushed} := by simp [hcall]
      simp only [System.Follows, Watched.event, Watched.observe, hcall]
      refine (Board.step_add UInt64.ofNat hnot line).trans (congrArg some ?_)
      exact congrArg (fun uncounted => { w.board with items := line :: w.pushed, uncounted })
        (uncounted_pushed w.logs.calls thread).symm
  | @counted thread hcall =>
      have hidle : LogCall.idle ≠ .pushed := nofun
      refine (Board.step_count UInt64.ofNat hcall).trans (congrArg some ?_)
      exact congrArg (fun uncounted =>
          { w.board with counted := w.counted + 1, uncounted })
        (uncounted_update hidle).symm
  | opened hpage => exact Board.step_opens UInt64.ofNat (congrArg LogsPage.phase hpage)
  | noted hpage => exact Board.step_note UInt64.ofNat (congrArg LogsPage.phase hpage)
  | same hpage =>
      have hface : UInt64.ofNat w.counted = UInt64.ofNat w.read :=
        hw.seq.symm.trans (hw.lastSeq _ (Or.inl hpage))
      rw [Watched.observe, if_pos rfl]
      exact Board.step_poll_same UInt64.ofNat (congrArg LogsPage.phase hpage) hface
  | @changed lastSeq hpage hseq =>
      have hface : UInt64.ofNat w.counted ≠ UInt64.ofNat w.read := by
        rwa [← hw.seq, ← hw.lastSeq _ (Or.inl hpage)]
      rw [Watched.observe, if_neg (by simp [hpage])]
      exact Board.step_poll_changed UInt64.ofNat (congrArg LogsPage.phase hpage) hface
  | @renewed lastSeq hpage => exact Board.step_renew UInt64.ofNat (congrArg LogsPage.phase hpage)
  | closed hpage =>
      apply Board.step_close UInt64.ofNat
      obtain hpage | ⟨lastSeq, hpage⟩ := hpage
      · exact Or.inl (congrArg LogsPage.phase hpage)
      · exact Or.inr (congrArg LogsPage.phase hpage)

theorem board_init : logging.init.board = (Mirror.board ℕ LogLine UInt64.ofNat).init := by
  simp [logging, Logs.init, Watched.board, Mirror.board, LogsPage.phase]

theorem board_run {history : List (Watched × LogsLabel)} (h : logging.Run history w) :
    (Mirror.board ℕ LogLine UInt64.ofNat).Run
      (System.abstractHistory Watched.board Watched.event history) w.board :=
  h.abstract board_init fun _ _ _ hs hstep => follows_board (shows_of_reachable hs) hstep

/-- What the page sees in time the reader of the board does. -/
theorem keepsUp_of_inTime {event : Event ℕ LogLine} (h : InTime w label)
    (hevent : w.event label = some event) : KeepsUp UInt64.ofNat w.board event := by
  cases label with
  | note => cases hevent; exact h
  | poll =>
      cases hevent
      intro hface
      have hmod : w.counted % 2 ^ 64 = w.read % 2 ^ 64 := by
        simpa [Watched.board] using congrArg UInt64.toNat hface
      apply h
      omega
  | push thread =>
      simp only [Watched.event] at hevent
      split at hevent
      case h_1 => cases hevent; trivial
      case h_2 => cases hevent
  | log => cases hevent
  | _ => cases hevent; trivial

/-! ## While no one logs -/

theorem Watched.idle_step (hw : w.logs.Idle) (hlabel : label.begins = false)
    (h : w.step label = some w') : w'.logs.Idle ∧ w'.pushed = w.pushed := by
  obtain ⟨logs, hmove, rfl⟩ := Watched.step_cases h
  cases hmove with
  | formatted => cases hlabel
  | pushed hcall => cases (hw _).symm.trans hcall
  | counted hcall => cases (hw _).symm.trans hcall
  | same hpage => rw [Watched.observe, if_pos rfl]; exact ⟨hw, rfl⟩
  | changed hpage => rw [Watched.observe, if_neg (by simp [hpage])]; exact ⟨hw, rfl⟩
  | _ => exact ⟨hw, rfl⟩

theorem idle_of_run {later earlier : List (Watched × LogsLabel)} {first : Watched}
    {label : LogsLabel} (h : logging.Run (later ++ (first, label) :: earlier) w)
    (hfirst : first.logs.Idle) (hlabel : label.begins = false)
    (hbegins : ∀ entry ∈ later, entry.2.begins = false) :
    w.logs.Idle ∧ ∀ entry ∈ later, entry.1.logs.Idle := by
  induction later generalizing w with
  | nil =>
      cases h with
      | snoc _ hstep => exact ⟨(Watched.idle_step hfirst hlabel hstep).1, nofun⟩
  | cons entry later ih =>
      cases h with
      | snoc hrun hstep =>
          obtain ⟨hidle, hall⟩ := ih hrun fun entry hentry =>
            hbegins entry (List.mem_cons_of_mem _ hentry)
          have hnow := hbegins _ List.mem_cons_self
          refine ⟨(Watched.idle_step hidle hnow hstep).1, fun entry hentry => ?_⟩
          obtain rfl | hentry := List.mem_cons.mp hentry
          · exact hidle
          · exact hall entry hentry

theorem addsNothing_of_idle {event : Event ℕ LogLine} (hw : w.logs.Idle)
    (hevent : w.event label = some event) : event.addsNothing = true := by
  cases label with
  | push thread => simp [Watched.event, hw thread] at hevent
  | log => cases hevent
  | _ => cases hevent; rfl

/-- A snapshot always has the last lines that were pushed.  When the page's first number
counts no line that its first snapshot lacks, the page shows the snapshot after every poll
during and since which no log call was in progress. -/
theorem page_fresh (history : List (Watched × LogsLabel)) (w : Watched)
    (hrun : logging.Run history w) :
    w.logs.bus.snapshot = w.pushed.take logCapacity ∧
      (System.Always InTime history → Fresh history w) := by
  have hshows := shows_of_reachable hrun.reachable
  refine ⟨hshows.buf, fun hinTime => ?_⟩
  rintro later first earlier rfl hidle hbegins ⟨lastSeq, hpage⟩
  have hboard := board_run hrun
  have hkeeps : System.Always (KeepsUp UInt64.ofNat)
      (System.abstractHistory Watched.board Watched.event
        (later ++ (first, .poll) :: earlier)) := by
    intro entry hentry
    obtain ⟨⟨s, label⟩, hmem, hmap⟩ := List.mem_filterMap.mp hentry
    obtain ⟨event, hevent, rfl⟩ := Option.map_eq_some_iff.mp hmap
    exact keepsUp_of_inTime (hinTime _ hmem) hevent
  have hsplit : System.abstractHistory Watched.board Watched.event
      (later ++ (first, .poll) :: earlier) =
        System.abstractHistory Watched.board Watched.event later ++ (first.board, .poll) ::
          System.abstractHistory Watched.board Watched.event earlier := by
    simp [System.abstractHistory, Watched.event]
  rw [hsplit] at hboard hkeeps
  have hquiet : first.board.uncounted = ∅ := by
    simp [Watched.board, hidle _]
  have hcurrent : w.board.Current := by
    apply current_of_run hboard hkeeps hquiet
    intro entry hentry
    obtain ⟨⟨s, label⟩, hmem, hmap⟩ := List.mem_filterMap.mp hentry
    obtain ⟨event, hevent, rfl⟩ := Option.map_eq_some_iff.mp hmap
    exact addsNothing_of_idle ((idle_of_run hrun hidle rfl hbegins).2 _ hmem) hevent
  have hcopied : w.copied = w.pushed.length :=
    hcurrent.waiting (congrArg LogsPage.phase hpage)
  calc w.logs.lines
      = (asOf w.pushed w.copied).take logCapacity := hshows.lines (by simp [hpage])
    _ = w.pushed.take logCapacity := by rw [hcopied, asOf_length]
    _ = w.logs.bus.snapshot := hshows.buf.symm

/-! ## A line that comes too early -/

/-- The page goes by the present number and lacks a line. -/
structure Watched.Missed (w : Watched) : Prop where
  page : w.logs.page = .waiting w.logs.bus.seq
  copied : w.copied < w.pushed.length

theorem Watched.Missed.step (hw : w.Missed) (hidle : w.logs.Idle)
    (hbegins : label.begins = false) (hstays : label ≠ .close)
    (h : w.step label = some w') : w'.Missed := by
  obtain ⟨logs, hmove, rfl⟩ := Watched.step_cases h
  have hpage := hw.page
  cases hmove with
  | formatted => cases hbegins
  | ignored => cases hbegins
  | pushed hcall => cases (hidle _).symm.trans hcall
  | counted hcall => cases (hidle _).symm.trans hcall
  | same => rw [Watched.observe, if_pos rfl]; exact hw
  | changed hother hseq =>
      cases hpage.symm.trans hother
      exact absurd rfl hseq
  | closed => exact absurd rfl hstays
  | opened hother => cases hpage.symm.trans hother
  | noted hother => cases hpage.symm.trans hother
  | renewed hother => cases hpage.symm.trans hother

/-- The first number that counts a line which the first snapshot lacks keeps the page
from showing it until there is another log call. -/
theorem missed_lasts {later earlier : List (Watched × LogsLabel)} {first : Watched}
    (h : logging.Run (later ++ (first, .note) :: earlier) w)
    (hidle : first.logs.Idle) (hmissed : first.copied < first.counted)
    (hbegins : ∀ entry ∈ later, entry.2.begins = false)
    (hstays : ∀ entry ∈ later, entry.2 ≠ .close) : w.Missed := by
  induction later generalizing w with
  | nil =>
      cases h with
      | snoc hrun hstep =>
          have hcounted : first.counted ≤ first.pushed.length :=
            (sound_of_reachable (board_run hrun).reachable).counted_le
          obtain ⟨logs, hmove, rfl⟩ := Watched.step_cases hstep
          cases hmove with
          | noted => exact ⟨rfl, Nat.lt_of_lt_of_le hmissed hcounted⟩
  | cons entry later ih =>
      have hrest := fun entry hentry => hbegins entry (List.mem_cons_of_mem _ hentry)
      cases h with
      | snoc hrun hstep =>
          have hbefore := ih hrun hrest fun entry hentry =>
            hstays entry (List.mem_cons_of_mem _ hentry)
          exact hbefore.step (idle_of_run hrun hidle rfl hrest).1
            (hbegins _ List.mem_cons_self) (hstays _ List.mem_cons_self) hstep

/-! ## Fixed runs -/

def requestLine : LogLine := ⟨.info, "12:00:00", "GET / 200"⟩

/-- Thread 0 logs a request. -/
def logRequest : List LogsLabel := [.log 0 .info "12:00:00" "GET / 200", .push 0, .count 0]

/-- The calls of thread 0 have come and gone. -/
def callsAfter : ℕ → LogCall :=
  Function.update (Function.update (Function.update (fun _ => .idle) 0
    (.formatted requestLine)) 0 .pushed) 0 .idle

theorem callsAfter_idle (thread : ℕ) : callsAfter thread = .idle := by
  by_cases hthread : thread = 0 <;> simp [callsAfter, hthread]

/-- One request is logged, and the page is somewhere. -/
def afterRequest (page : LogsPage) (lines : List LogLine) (copied read : ℕ) : Watched :=
  ⟨⟨⟨[requestLine], 1⟩, callsAfter, page, lines⟩, [requestLine], 1, copied, read⟩

/-- A request that comes while the page is open is shown after the next poll. -/
theorem page_fresh_sample : ∃ history w, logging.Run history w ∧
    w.logs.lines = [requestLine] ∧ w.logs.lines = w.logs.bus.snapshot := by
  have hexec : (logging.restrict InTime).exec logging.init
      ([.opens, .note] ++ logRequest) = some (afterRequest (.waiting 0) [] 0 0) := rfl
  obtain ⟨earlier, hearlier, hbefore, -⟩ :=
    System.Run.start.exec_restrict System.Always.nil hexec
  rw [List.append_nil] at hearlier hbefore
  have hpolled : logging.Run ((afterRequest (.waiting 0) [] 0 0, .poll) :: earlier)
      (afterRequest (.renewing 1) [] 0 1) :=
    hearlier.snoc rfl
  have hrun : logging.Run ((afterRequest (.renewing 1) [] 0 1, .renew) ::
        (afterRequest (.waiting 0) [] 0 0, .poll) :: earlier)
      (afterRequest (.waiting 1) [requestLine] 1 1) :=
    hpolled.snoc rfl
  have hpoll : InTime (afterRequest (.waiting 0) [] 0 0) .poll := by decide
  have hinTime : System.Always InTime ((afterRequest (.renewing 1) [] 0 1, .renew) ::
      (afterRequest (.waiting 0) [] 0 0, .poll) :: earlier) :=
    System.always_cons.mpr ⟨trivial, System.always_cons.mpr ⟨hpoll, hbefore⟩⟩
  exact ⟨_, _, hrun, rfl, (page_fresh _ _ hrun).2 hinTime [_] _ earlier rfl
    callsAfter_idle (by simp [LogsLabel.begins]) ⟨1, rfl⟩⟩

/-- A request between the first snapshot and the first number is not shown by the poll
that follows. -/
theorem first_line_missed : ∃ history w, logging.Run history w ∧ w.logs.Idle ∧
    w.logs.lines = [] ∧ w.logs.bus.snapshot = [requestLine] ∧ ¬Fresh history w := by
  have hexec : logging.exec logging.init ([.opens] ++ logRequest ++ [.note]) =
      some (afterRequest (.waiting 1) [] 0 1) := rfl
  obtain ⟨earlier, hearlier, -⟩ := System.Run.start.of_exec hexec
  have hrun : logging.Run ((afterRequest (.waiting 1) [] 0 1, .poll) :: (earlier ++ []))
      (afterRequest (.waiting 1) [] 0 1) :=
    hearlier.snoc rfl
  refine ⟨_, _, hrun, callsAfter_idle, rfl, rfl, fun hfresh => ?_⟩
  cases hfresh [] _ _ rfl callsAfter_idle nofun ⟨1, rfl⟩

end Yunpan.Desktop
