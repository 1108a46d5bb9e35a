import Yunpan.Relay.Replay
import Yunpan.Relay.Step

/-!
# The block the path router decides from

`run_path_router` reads once, into 8192 bytes, and decides from what that read
returned.  TCP and TLS promise nothing about where a request is cut, so the block
may end inside the request line; the router does not read on.
-/

namespace Yunpan.Relay

open Yunpan.Protocol Yunpan.Polling

/-- `\r` or `\n`, at which the router ends the request line. -/
def IsLineEnd (byte : UInt8) : Prop := byte = 13 ∨ byte = 10

instance (byte : UInt8) : Decidable (IsLineEnd byte) :=
  inferInstanceAs (Decidable (byte = 13 ∨ byte = 10))

inductive LineEnd where
  | crlf
  | lf

def LineEnd.bytes : LineEnd → List UInt8
  | .crlf => [13, 10]
  | .lf => [10]

/-- What a visitor sends: a request line that fits in the router's buffer, and the
rest of its requests. -/
structure Request where
  line : List UInt8
  lineEnd : LineEnd
  rest : List UInt8
  line_free : ∀ byte ∈ line, ¬IsLineEnd byte
  line_fits : line.length + lineEnd.bytes.length ≤ 8192

def Request.fullLine (r : Request) : List UInt8 := r.line ++ r.lineEnd.bytes

def Request.bytes (r : Request) : List UInt8 := r.fullLine ++ r.rest

/-- One way in which the visitor's stream delivers the request. -/
structure Delivery (r : Request) extends Source where
  unfailing : Event.failed ∉ events
  delivers : toSource.bytes = r.bytes

/-- `run_path_router` on one visitor: the decision, and the stream that is dispatched
if it is one for a client; `none` is a stream that fails or ends before its first
byte. -/
def runPathRouter (cfg : RelayConfig) (sessions : String → Option ℕ)
    (stream : Source) : Option (Decision × PrefixedStream Source) :=
  match stream.read 8192 with
  | none | some ([], _) => none
  | some (block, rest) =>
      some (routeDecision cfg sessions block, .replayed block rest)

def pathRouterDecision (cfg : RelayConfig) (sessions : String → Option ℕ)
    (stream : Source) : Option Decision :=
  (runPathRouter cfg sessions stream).map Prod.fst

/-- The complete request line arrives in the first read. -/
def Delivery.LineComplete {r : Request} (d : Delivery r) : Prop :=
  ∃ block rest, d.read 8192 = some (block, rest) ∧ r.fullLine <+: block

/-- The first read reaches the line end, of which `\r` is enough. -/
def Delivery.LineEnded {r : Request} (d : Delivery r) : Prop :=
  ∃ block rest, d.read 8192 = some (block, rest) ∧ r.line.length < block.length

/-! ## Where the line ends -/

/-- The segment of a request line without its end. -/
def lineSegment (line : List UInt8) : Option String := do
  let text ← String.fromUTF8? ⟨line.toArray⟩
  let path ← (text.toList.splitOn ' ')[1]?
  match path with
  | '/' :: rest =>
      some (String.ofList (rest.takeWhile fun c => c ≠ '/' ∧ c ≠ '?' ∧ c ≠ '#'))
  | _ => none

/-- What follows the first line end is never looked at. -/
theorem firstPathSegment_of_lineEnd {line further : List UInt8} {byte : UInt8}
    (hfree : ∀ b ∈ line, ¬IsLineEnd b) (hbyte : IsLineEnd byte) :
    firstPathSegment (line ++ byte :: further) = lineSegment line := by
  have hnone : line.findIdx? (fun b => b = 13 ∨ b = 10) = none := by
    rw [List.findIdx?_eq_none_iff]
    intro b hb
    exact decide_eq_false (hfree b hb)
  have hhere : (decide (byte = 13 ∨ byte = 10)) = true := decide_eq_true hbyte
  have hfind : (line ++ byte :: further).findIdx? (fun b => b = 13 ∨ b = 10) =
      some line.length := by
    rw [List.findIdx?_append, hnone, List.findIdx?_cons, hhere]
    simp
  have hcut : firstPathSegment (line ++ byte :: further) =
      lineSegment ((line ++ byte :: further).take line.length) := by
    rw [firstPathSegment, hfind]
    rfl
  rw [hcut, List.take_left]

theorem firstPathSegment_of_free {block : List UInt8} (h : ∀ b ∈ block, ¬IsLineEnd b) :
    firstPathSegment block = none := by
  have hfind : block.findIdx? (fun b => b = 13 ∨ b = 10) = none := by
    rw [List.findIdx?_eq_none_iff]
    intro b hb
    exact decide_eq_false (h b hb)
  simp only [firstPathSegment, hfind, Option.bind_eq_bind, Option.bind_none]

theorem LineEnd.exists_cons (e : LineEnd) :
    ∃ byte further, e.bytes = byte :: further ∧ IsLineEnd byte := by
  cases e with
  | crlf => exact ⟨13, [10], rfl, Or.inl rfl⟩
  | lf => exact ⟨10, [], rfl, Or.inr rfl⟩

theorem routeDecision_of_none {cfg : RelayConfig} {sessions : String → Option ℕ}
    {block : List UInt8} (h : firstPathSegment block = none) :
    routeDecision cfg sessions block = .badRequest := by
  simp only [routeDecision, h]

/-- Only a block without a readable segment is answered with 400. -/
theorem routeDecision_badRequest_iff {cfg : RelayConfig} {sessions : String → Option ℕ}
    {block : List UInt8} :
    routeDecision cfg sessions block = .badRequest ↔ firstPathSegment block = none := by
  constructor
  · intro h
    cases hseg : firstPathSegment block with
    | none => rfl
    | some seg =>
        simp only [routeDecision, hseg] at h
        split at h
        case isTrue => cases h
        case isFalse => cases hsession : sessions seg <;> simp [hsession] at h
  · exact routeDecision_of_none

/-! ## A request in any pieces -/

namespace Request

variable (r : Request)

theorem bytes_ne_nil : r.bytes ≠ [] := by
  obtain ⟨byte, further, hbytes, -⟩ := r.lineEnd.exists_cons
  simp [Request.bytes, Request.fullLine, hbytes]

theorem firstPathSegment_fullLine :
    firstPathSegment r.fullLine = lineSegment r.line := by
  obtain ⟨byte, further, hbytes, hend⟩ := r.lineEnd.exists_cons
  rw [Request.fullLine, hbytes, firstPathSegment_of_lineEnd r.line_free hend]

/-- A beginning of the request that goes past the line ends it where the line
ends. -/
theorem firstPathSegment_of_lt {block further : List UInt8}
    (hsplit : r.bytes = block ++ further) (hlt : r.line.length < block.length) :
    firstPathSegment block = lineSegment r.line := by
  obtain ⟨byte, tail, hbytes, hend⟩ := r.lineEnd.exists_cons
  have hparts : r.line ++ byte :: (tail ++ r.rest) = block ++ further := by
    rw [← hsplit, Request.bytes, Request.fullLine, hbytes]
    simp
  obtain ⟨middle, hblock, hrest⟩ | ⟨middle, hline, hfurther⟩ :=
    List.append_eq_append_iff.mp hparts
  · cases middle with
    | nil => simp [hblock] at hlt
    | cons head middle =>
        obtain rfl : byte = head := (List.cons.inj hrest).1
        rw [hblock, firstPathSegment_of_lineEnd r.line_free hend]
  · have hlength := congrArg List.length hline
    simp only [List.length_append] at hlength
    omega

theorem firstPathSegment_of_le {block further : List UInt8}
    (hsplit : r.bytes = block ++ further) (hle : block.length ≤ r.line.length) :
    firstPathSegment block = none := by
  have hblock : block <+: r.bytes := ⟨further, hsplit.symm⟩
  have hline : r.line <+: r.bytes :=
    ⟨r.lineEnd.bytes ++ r.rest, by simp [Request.bytes, Request.fullLine]⟩
  have hbegin : block <+: r.line := by
    apply List.prefix_of_prefix_length_le hblock hline
    exact hle
  apply firstPathSegment_of_free
  intro b hb
  exact r.line_free b (hbegin.subset hb)

/-- The whole request in one piece. -/
def atOnce : Delivery r where
  events := [.data r.bytes]
  nonempty := by
    intro hmem
    exact r.bytes_ne_nil (Event.data.inj (List.mem_singleton.mp hmem)).symm
  unfailing := by simp
  delivers := by simp [Source.bytes, Event.bytes]

end Request

namespace Delivery

variable {r : Request}

theorem exists_block (d : Delivery r) :
    ∃ block rest, d.read 8192 = some (block, rest) ∧ block ≠ [] ∧
      r.bytes = block ++ rest.bytes := by
  have hroom : 0 < 8192 := by decide
  have hbytes : d.toSource.bytes ≠ [] := d.delivers ▸ r.bytes_ne_nil
  obtain ⟨block, rest, hread, hblock⟩ := Source.read_of_data hroom d.unfailing hbytes
  exact ⟨block, rest, hread, hblock, d.delivers ▸ (Source.read_some hread).2⟩

theorem LineComplete.lineEnded {d : Delivery r} (h : d.LineComplete) : d.LineEnded := by
  obtain ⟨block, rest, hread, hwithin⟩ := h
  obtain ⟨byte, further, hbytes, -⟩ := r.lineEnd.exists_cons
  have hlength := hwithin.length_le
  simp only [Request.fullLine, hbytes, List.length_append, List.length_cons] at hlength
  exact ⟨block, rest, hread, by omega⟩

/-- What the router looks up: the segment of the request line, when the first read
reaches the line end. -/
theorem read_segment (d : Delivery r) :
    ∃ block rest, d.read 8192 = some (block, rest) ∧ block ≠ [] ∧
      (d.LineEnded → firstPathSegment block = firstPathSegment r.fullLine) ∧
      (¬d.LineEnded → firstPathSegment block = none) := by
  obtain ⟨block, rest, hread, hblock, hsplit⟩ := d.exists_block
  refine ⟨block, rest, hread, hblock, ?_, ?_⟩
  · rintro ⟨block', rest', hread', hlt⟩
    cases hread.symm.trans hread'
    rw [r.firstPathSegment_fullLine, r.firstPathSegment_of_lt hsplit hlt]
  · intro hended
    apply r.firstPathSegment_of_le hsplit
    by_contra hlt
    exact hended ⟨block, rest, hread, Nat.not_le.mp hlt⟩

end Delivery

theorem Request.atOnce_lineComplete (r : Request) : r.atOnce.LineComplete := by
  have hevents : readEvents r.atOnce.events 8192 = some
      ((pollEvents [.data r.bytes] 8192).1.bytes,
        (pollEvents [.data r.bytes] 8192).2) :=
    rfl
  obtain ⟨rest, hread⟩ := Source.exists_of_readEvents hevents
  refine ⟨_, rest, hread, ?_⟩
  have hline : r.fullLine <+: r.bytes := List.prefix_append _ _
  have hfits : r.fullLine.length ≤ 8192 := by
    simpa [Request.fullLine] using r.line_fits
  simp only [pollEvents]
  split
  · exact List.prefix_take_iff.mpr ⟨hline, hfits⟩
  · exact hline

/-- The decision for the request line alone. -/
theorem routeDecision_congr {cfg : RelayConfig} {sessions : String → Option ℕ}
    {block block' : List UInt8}
    (h : firstPathSegment block = firstPathSegment block') :
    routeDecision cfg sessions block = routeDecision cfg sessions block' := by
  simp only [routeDecision, h]

theorem pathRouterDecision_of_read {cfg : RelayConfig} {sessions : String → Option ℕ}
    {stream rest : Source} {block : List UInt8}
    (hread : stream.read 8192 = some (block, rest)) (hblock : block ≠ []) :
    pathRouterDecision cfg sessions stream =
      some (routeDecision cfg sessions block) := by
  obtain ⟨byte, further, rfl⟩ := List.exists_cons_of_ne_nil hblock
  simp only [pathRouterDecision, runPathRouter, hread, Option.map_some]

/-- A stream that reaches the line end in its first read is decided by the request
line. -/
theorem pathRouterDecision_of_lineEnded {r : Request} {d : Delivery r}
    (h : d.LineEnded) (cfg : RelayConfig) (sessions : String → Option ℕ) :
    pathRouterDecision cfg sessions d.toSource =
      some (routeDecision cfg sessions r.fullLine) := by
  obtain ⟨block, rest, hread, hblock, hended, -⟩ := d.read_segment
  rw [pathRouterDecision_of_read hread hblock, routeDecision_congr (hended h)]

theorem pathRouterDecision_of_not_lineEnded {r : Request} {d : Delivery r}
    (h : ¬d.LineEnded) (cfg : RelayConfig) (sessions : String → Option ℕ) :
    pathRouterDecision cfg sessions d.toSource = some .badRequest := by
  obtain ⟨block, rest, hread, hblock, -, hcut⟩ := d.read_segment
  rw [pathRouterDecision_of_read hread hblock, routeDecision_of_none (hcut h)]

/-- The router decides as if the complete line had arrived at once exactly when the
first read reaches the line end, or the line names no segment anyway. -/
theorem pathRouterDecision_iff (cfg : RelayConfig) (sessions : String → Option ℕ)
    (r : Request) (d : Delivery r) :
    (∀ whole : Delivery r, whole.LineComplete →
      pathRouterDecision cfg sessions d.toSource =
        pathRouterDecision cfg sessions whole.toSource) ↔
      d.LineEnded ∨ firstPathSegment r.fullLine = none := by
  constructor
  · intro h
    by_cases hended : d.LineEnded
    · exact Or.inl hended
    · have hsame := h r.atOnce r.atOnce_lineComplete
      rw [pathRouterDecision_of_not_lineEnded hended,
        pathRouterDecision_of_lineEnded r.atOnce_lineComplete.lineEnded] at hsame
      exact Or.inr (routeDecision_badRequest_iff.mp (Option.some.inj hsame).symm)
  · intro h whole hwhole
    rw [pathRouterDecision_of_lineEnded hwhole.lineEnded]
    by_cases hended : d.LineEnded
    · exact pathRouterDecision_of_lineEnded hended cfg sessions
    · have hsegment : firstPathSegment r.fullLine = none := h.resolve_left hended
      rw [pathRouterDecision_of_not_lineEnded hended,
        routeDecision_of_none hsegment]

/-! ## A request cut inside its line -/

def oneClientConfig : RelayConfig where
  bind := .v4 "0.0.0.0"
  controlPort := 7100
  heartbeatSecs := 15
  publicHost := none
  tlsCert := none
  tlsKey := none
  visitorBind := none
  pathRouterPort := some 443
  publicBaseUrl := none
  visitorTls := none
  clients := [⟨"mac", "0123456789abcdef", [], none⟩]

def shortRequest : Request where
  line := utf8 "GET /mac/a.txt HTTP/1.1"
  lineEnd := .crlf
  rest := utf8 "Host: pan.example.com\r\n\r\n"
  line_free := by decide +kernel
  line_fits := by decide +kernel

def cutInPath : Delivery shortRequest where
  events := [.data (utf8 "GET /mac/a"), .pending,
    .data (utf8 ".txt HTTP/1.1\r\nHost: pan.example.com\r\n\r\n")]
  nonempty := by decide +kernel
  unfailing := by decide +kernel
  delivers := by decide +kernel

/-- The client is online and the request is well formed, but the answer to the cut
request is 400. -/
theorem cut_request_refused :
    pathRouterDecision oneClientConfig (fun _ => some 0) cutInPath.toSource =
        some .badRequest ∧
      pathRouterDecision oneClientConfig (fun _ => some 0)
          shortRequest.atOnce.toSource =
        some (.dispatch "mac" 0) ∧
      ¬∀ (cfg : RelayConfig) (sessions : String → Option ℕ) (r : Request)
        (d whole : Delivery r), whole.LineComplete →
        pathRouterDecision cfg sessions d.toSource =
          pathRouterDecision cfg sessions whole.toSource := by
  have hcut : pathRouterDecision oneClientConfig (fun _ => some 0) cutInPath.toSource =
      some .badRequest := by
    decide +kernel
  have hwhole : pathRouterDecision oneClientConfig (fun _ => some 0)
      shortRequest.atOnce.toSource = some (.dispatch "mac" 0) := by
    decide +kernel
  refine ⟨hcut, hwhole, fun h => ?_⟩
  have hsame := h oneClientConfig (fun _ => some 0) shortRequest cutInPath
    shortRequest.atOnce shortRequest.atOnce_lineComplete
  rw [hcut, hwhole] at hsame
  cases hsame

end Yunpan.Relay
