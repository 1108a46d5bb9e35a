import Mathlib.Data.List.TakeWhile
import Yunpan.Core.Transition
import Yunpan.Dufs.Upload

/-!
# The page that uploads a file

`Uploader` in `index.js` sends the file with `ajax`.  When that fails, `retry` asks for
the size that the server has and sends what is left.  Every exchange may be refused
something on the disk, may be broken off, and its answer may be lost.
-/

namespace Yunpan.Dufs

open Yunpan.Protocol Yunpan.Percent Yunpan.Address Program Server

namespace Uploader

inductive Status where
  | ready
  | failed
  | complete
  deriving DecidableEq

/-- The page's part of an upload and the disk of the server. -/
structure Upload where
  uploadOffset : ℕ
  status : Status
  disk : Disk Text

/-- One request and its fate: `base` is what the browser puts into it besides method,
range and body, `pieces` is what arrives of the body, `schedule` is what the disk
performs and refuses before the end, and `heard` tells whether the answer arrives. -/
structure Exchange where
  env : Environment
  base : Request
  pieces : List (List UInt8)
  complete : Bool
  schedule : List Bool
  heard : Bool

inductive Event where
  | ajax (exchange : Exchange)
  | retry (exchange : Exchange)

/-- The body that `ajax` sends. -/
def body (file : List UInt8) (uploadOffset : ℕ) : List UInt8 :=
  if 0 < uploadOffset then file.drop uploadOffset else file

/-- The request of `ajax`, as it arrives. -/
def ajaxRequest (uploadOffset : ℕ) (exchange : Exchange) : Request :=
  { exchange.base with
    method := if 0 < uploadOffset then "PATCH" else "PUT"
    updateRange := if 0 < uploadOffset then some (bytesOf "append".toList) else none
    pieces := exchange.pieces
    complete := exchange.complete }

def retryRequest (exchange : Exchange) : Request :=
  { exchange.base with method := "HEAD", pieces := [], complete := true }

/-- `parseInt(value) || 0`, as far as numbers are exact. -/
def parseInt (value : Text) : ℕ :=
  (Text.parseNat (2 ^ 53) (value.takeWhile Char.isDigit)).getD 0

/-- The offset that the answer to a `HEAD` gives. -/
def answeredOffset (res : Response) : ℕ :=
  if res.status = 200 then ((res.header "content-length").map parseInt).getD 0 else 0

def step (server : Server) (file : List UInt8) (state : Upload) : Event → Option Upload
  | .ajax exchange =>
      let body := body file state.uploadOffset
      if state.status = .ready ∧ exchange.pieces.flatten <+: body ∧
          (exchange.complete = true → exchange.pieces.flatten = body) then
        let result := server.answer exchange.env exchange.schedule state.disk
          (ajaxRequest state.uploadOffset exchange)
        let success :=
          exchange.heard = true ∧ 200 ≤ result.2.status ∧ result.2.status < 300
        some { state with
          disk := result.1
          status := if success then .complete else .failed }
      else none
  | .retry exchange =>
      if state.status = .failed then
        let result := server.answer exchange.env exchange.schedule state.disk
          (retryRequest exchange)
        some (if exchange.heard then
            { uploadOffset := answeredOffset result.2, status := .ready, disk := result.1 }
          else { state with disk := result.1 })
      else none

def system (server : Server) (file : List UInt8) (disk : Disk Text) :
    Transition.System Upload Event where
  init := { uploadOffset := 0, status := .ready, disk }
  step := step server file

/-- The requests of the page go to the location that the file shall have. -/
structure Targets (server : Server) (location : Location Text) (base : Request) :
    Prop where
  resolve : ∃ relative, server.resolvePath base.path = some relative ∧
    server.path relative = location.path
  slash : base.path.getLast? ≠ some slash
  query : base.query = []

def Event.Targets (server : Server) (location : Location Text) : Event → Prop
  | .ajax exchange => Uploader.Targets server location exchange.base
  | .retry exchange => Uploader.Targets server location exchange.base

/-- The requests of one upload go to one place, whatever their method. -/
theorem Targets.leadsTo {server : Server} {location : Location Text} {base request : Request}
    (h : Targets server location base) (hshared : server.pathIsFile = false)
    (hpath : request.path = base.path) (hquery : request.query = base.query)
    (hmethod : request.method ≠ "GET") : LeadsTo server location request where
  resolve := by
    obtain ⟨relative, hrelative, hlocation⟩ := h.resolve
    exact ⟨relative, hpath ▸ hrelative, hlocation, fun hget => absurd hget hmethod⟩
  query := hquery.trans h.query
  shared := hshared

/-- `parseInt` reads a size as the server writes it. -/
theorem parseInt_number {n : ℕ} (h : n < 2 ^ 53) : parseInt (number n) = n := by
  have hdigits : (number n).takeWhile Char.isDigit = number n :=
    List.takeWhile_eq_self_iff.mpr fun c hc => Separator.isDigit_of_mem_repr hc
  rw [parseInt, hdigits, number, Text.parseNat_repr h, Option.getD_some]

end Uploader

namespace Sample

def exchange (pieces : List (List UInt8)) (complete : Bool) (performed : ℕ)
    (heard : Bool) : Uploader.Exchange where
  env := environment
  base := { request with path := bytesOf "/d/f".toList }
  pieces := pieces
  complete := complete
  schedule := List.replicate performed true
  heard := heard

/-- The connection goes after the first piece, and the rest is sent again. -/
def resumed : List Uploader.Event :=
  [.ajax (exchange [[1, 2], [3]] true 6 false), .retry (exchange [] true 50 true),
    .ajax (exchange [[3]] true 50 true)]

end Sample

namespace Uploader

section Step

variable {server : Server} {location : Location Text} {file : List UInt8} {state : Upload}

/-- A beginning of the file is on the server; an offset that is not zero is its length,
and once the page reports success it is all of the file. -/
structure Sound (location : Location Text) (file : List UInt8) (state : Upload) :
    Prop where
  part : Holds location (· <+: file) state.disk
  offset : state.status = .ready → 0 < state.uploadOffset → ∃ bytes,
    state.disk.Stored location bytes ∧ bytes <+: file ∧ bytes.length = state.uploadOffset
  complete : state.status = .complete → state.disk.Stored location file

/-- A first try sends all of the file with `PUT`, a later one what is missing with
`PATCH`. -/
theorem Sound.ajax (hshared : server.pathIsFile = false) {exchange : Exchange}
    (htargets : Targets server location exchange.base) {state' : Upload}
    (hstep : step server file state (.ajax exchange) = some state')
    (h : Sound location file state) : Sound location file state' := by
  obtain ⟨⟨hready, hpieces, hcomplete⟩, heq⟩ := Option.ite_none_right_eq_some.mp hstep
  cases heq
  have hleads : LeadsTo server location (ajaxRequest state.uploadOffset exchange) := by
    refine htargets.leadsTo hshared rfl rfl ?_
    change (if 0 < state.uploadOffset then "PATCH" else "PUT") ≠ "GET"
    split <;> decide
  have hwp : wp Disk.act (Uploaded location (· <+: file) file) (Holds location (· <+: file))
      (server.handle exchange.env (ajaxRequest state.uploadOffset exchange))
      state.disk := by
    by_cases hpos : 0 < state.uploadOffset
    · obtain ⟨bytes, hstored, hbegins, hlength⟩ := h.offset hready hpos
      rw [body, if_pos hpos, ← hlength] at hpieces hcomplete
      exact handle_append_wp hleads (if_pos hpos) (if_pos hpos) (fun _ => id) hbegins
        ⟨hpieces, hcomplete⟩ hstored
    · rw [body, if_neg hpos] at hpieces hcomplete
      exact handle_put_wp hleads (if_neg hpos) (fun _ => id) ⟨hpieces, hcomplete⟩ h.part
  obtain ⟨hpart, huploaded⟩ := server.answer_of_wp exchange.schedule hwp fun disk' hpart =>
    ⟨hpart, fun hlt => absurd hlt (show ¬500 < 300 by decide)⟩
  refine ⟨hpart, fun hready => ?_, fun hcomplete => ?_⟩
  · dsimp only at hready
    split at hready <;> cases hready
  · dsimp only at hcomplete
    split at hcomplete
    case isTrue hsuccess => exact huploaded.2 hsuccess.2.2
    case isFalse => cases hcomplete

/-- The length that the `HEAD` is answered is that of the beginning on the server. -/
theorem Sound.retry (hshared : server.pathIsFile = false) (hspa : server.renderSpa = false)
    (hsize : file.length < 2 ^ 53) {exchange : Exchange}
    (htargets : Targets server location exchange.base) {state' : Upload}
    (hstep : step server file state (.retry exchange) = some state')
    (h : Sound location file state) : Sound location file state' := by
  obtain ⟨hfailed, heq⟩ := Option.ite_none_right_eq_some.mp hstep
  have hleads : LeadsTo server location (retryRequest exchange) :=
    htargets.leadsTo hshared rfl rfl (show "HEAD" ≠ "GET" by decide)
  have hwp : wp Disk.act
      (fun res disk' => disk' = state.disk ∧ (res.status = 200 → ∃ bytes,
        state.disk.Stored location bytes ∧
          res.header "content-length" = some (number bytes.length)))
      (· = state.disk) (server.handle exchange.env (retryRequest exchange)) state.disk := by
    refine wp_mono (handle_fetch_wp hleads (Or.inr rfl) hspa htargets.slash h.part.1) ?_
    rintro res disk' ⟨hdisk, hrefuses | ⟨bytes, hstored, hshows⟩⟩
    · exact ⟨hdisk, fun hok => absurd hok (by have := hrefuses.1; omega)⟩
    · exact ⟨hdisk, fun hok => ⟨bytes, hstored, (hshows.whole hok).1⟩⟩
  obtain ⟨hsame, -, hanswer⟩ := server.answer_of_wp exchange.schedule hwp fun disk' hdisk =>
    ⟨hdisk, fun hok => by cases hok⟩
  have hdisk : state'.disk = state.disk := by
    cases heq
    split <;> exact hsame
  refine ⟨hdisk ▸ h.part, fun hready hpos => ?_, fun hcomplete => ?_⟩
  · cases heq
    split at hready
    case isTrue hheard =>
      rw [if_pos hheard] at hpos hdisk ⊢
      dsimp only at hpos hdisk ⊢
      rw [hdisk]
      unfold answeredOffset at hpos ⊢
      split at hpos
      case isFalse => exact absurd hpos (lt_irrefl 0)
      case isTrue hok =>
        obtain ⟨bytes, hstored, hlength⟩ := hanswer hok
        have hbegins := h.part.allows hstored
        have hlt : bytes.length < 2 ^ 53 := lt_of_le_of_lt hbegins.length_le hsize
        refine ⟨bytes, hstored, hbegins, ?_⟩
        rw [if_pos hok, hlength, Option.map_some, Option.getD_some, parseInt_number hlt]
    case isFalse => cases hfailed.symm.trans hready
  · cases heq
    split at hcomplete
    case isTrue => cases hcomplete
    case isFalse => cases hfailed.symm.trans hcomplete

end Step

end Uploader

end Yunpan.Dufs
