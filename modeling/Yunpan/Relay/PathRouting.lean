import Yunpan.Core.Appended
import Yunpan.Dufs.Resolve
import Yunpan.Protocol.Ascii
import Yunpan.Protocol.Urlencode
import Yunpan.Relay.FirstBlock

/-!
# Path routing and the addresses that lead to it

The desktop's file server puts its links under a prefix made of the client id, and
the relay shows an address that ends in the id.  A browser normalises both, writes
the path into a request line, and the relay cuts the first segment out of that
line without decoding it.
-/

namespace Yunpan.Relay

open Yunpan.Protocol Yunpan.Percent Yunpan.Address Yunpan.Desktop Yunpan.Dufs

/-- A request as a browser sends it; `rest` is what follows the request line. -/
def requestBlock (target rest : List UInt8) : List UInt8 :=
  utf8 "GET " ++ target ++ utf8 " HTTP/1.1" ++ 13 :: 10 :: rest

/-- The path under which the file server links to a file of the share. -/
def link (args : Args) (names : List Text) : List UInt8 :=
  args.uriPrefix ++ encodeUri (joinSlash names)

/-- A request for this target is looked up and routed as the client.  `requestBlock` is
what the router's one read returns: the request line and whatever follows it, so the
line fits into the 8192 bytes of that read. -/
def Routed (cfg : RelayConfig) (clientId : String) (target : List UInt8) : Prop :=
  ∀ rest, firstPathSegment (requestBlock target rest) = some clientId ∧
    ∀ sessions session, sessions clientId = some session →
      routeDecision cfg sessions (requestBlock target rest) = .dispatch clientId session

/-- The client has no address of its own, so the shown one is generated. -/
def RelayConfig.generates (cfg : RelayConfig) (clientId : String) : Prop :=
  (cfg.client clientId).bind ClientAuth.publicUrl = none

/-- Every link of the client's file server and the address generated for the client
lead to the client. -/
structure FindsClient (cfg : RelayConfig) (clientId : String) (args : Args) : Prop where
  links : ∀ names, (∀ name ∈ names, IsName name) →
    Routed cfg clientId ((parsePath (link args names)).flatMap fun segment =>
      slash :: segment)
  address : cfg.generates clientId →
    ∀ address, cfg.publicUrlFor clientId = some address →
    ∃ url, parseUrl (utf8 address) = some url ∧ Routed cfg clientId url.requestTarget

/-! ## The first segment of a request line -/

theorem ascii_of_visible {b : UInt8} (h : IsGraphic b) : b < 128 :=
  UInt8.lt_trans h.2 (by decide)

theorem asciiText_append (left right : List UInt8) :
    asciiText (left ++ right) = asciiText left ++ asciiText right := List.map_append

/-- Characters of visible bytes. -/
theorem asciiText_visible : ∀ b : UInt8, IsGraphic b →
    Char.ofNat b.toNat ≠ ' ' ∧ (Char.ofNat b.toNat = '/' → b = slash) ∧
      (Char.ofNat b.toNat = '?' → b = question) ∧
      (Char.ofNat b.toNat = '#' → b = hashSign) ∧
      Text.isWhitespace (Char.ofNat b.toNat) = false := by
  unfold IsGraphic
  apply forall_byte
  decide +kernel

/-- The line of a request, as the relay finds and reads it. -/
theorem firstPathSegment_block {tail : List UInt8} (h : ∀ b ∈ tail, IsGraphic b)
    (rest : List UInt8) :
    firstPathSegment (requestBlock (slash :: tail) rest) =
      some (String.ofList ((asciiText tail).takeWhile fun c =>
        c ≠ '/' ∧ c ≠ '?' ∧ c ≠ '#')) := by
  have hline : ∀ b ∈ utf8 "GET " ++ slash :: tail ++ utf8 " HTTP/1.1",
      b < 128 ∧ b ≠ 13 ∧ b ≠ 10 := by
    have hstart : ∀ b ∈ utf8 "GET ", b < 128 ∧ b ≠ 13 ∧ b ≠ 10 := by decide +kernel
    have hend : ∀ b ∈ utf8 " HTTP/1.1", b < 128 ∧ b ≠ 13 ∧ b ≠ 10 := by decide +kernel
    have hvisible : ∀ b : UInt8, IsGraphic b → b < 128 ∧ b ≠ 13 ∧ b ≠ 10 := by
      unfold IsGraphic
      apply forall_byte
      decide +kernel
    intro b hb
    simp only [List.mem_append, List.mem_cons] at hb
    obtain (hb | rfl | hb) | hb := hb
    · exact hstart b hb
    · decide
    · exact hvisible b (h b hb)
    · exact hend b hb
  have hsplit : ((asciiText (utf8 "GET " ++ slash :: tail ++ utf8 " HTTP/1.1")).splitOn
      ' ')[1]? = some ('/' :: asciiText tail) := by
    have hfree : ' ' ∉ '/' :: asciiText tail := by
      intro hspace
      obtain hslash | hspace := List.mem_cons.mp hspace
      · cases hslash
      · obtain ⟨b, hb, heq⟩ := List.mem_map.mp hspace
        exact (asciiText_visible b (h b hb)).1 heq
    have hstart : asciiText (utf8 "GET ") = ['G', 'E', 'T', ' '] := by decide +kernel
    have hend : asciiText (utf8 " HTTP/1.1") =
        ' ' :: "HTTP/1.1".toList := by decide +kernel
    have hslash : asciiText (slash :: tail) = '/' :: asciiText tail := rfl
    calc ((asciiText (utf8 "GET " ++ slash :: tail ++ utf8 " HTTP/1.1")).splitOn
      ' ')[1]?
        = ((['G', 'E', 'T'] ++ ' ' :: (('/' :: asciiText tail) ++ ' ' ::
            "HTTP/1.1".toList)).splitOn ' ')[1]? := by
          rw [asciiText_append, asciiText_append, hstart, hend, hslash]
          simp
      _ = some ('/' :: asciiText tail) := by
          rw [List.splitOn_append_cons_self_of_not_mem (by decide),
            List.splitOn_append_cons_self_of_not_mem hfree]
          rfl
  generalize hwhole : utf8 "GET " ++ slash :: tail ++ utf8 " HTTP/1.1" =
    line at hline hsplit
  have hfree : ∀ b ∈ line, ¬IsLineEnd b := fun b hb => not_or.mpr (hline b hb).2
  have htext : String.fromUTF8? ⟨line.toArray⟩ =
      some (String.ofList (asciiText line)) := by
    have hbytes := utf8_asciiText fun b hb => (hline b hb).1
    rw [← hbytes, fromUTF8?_utf8, hbytes]
  rw [requestBlock, hwhole, firstPathSegment_of_lineEnd hfree (Or.inl rfl)]
  simp only [lineSegment, Option.bind_eq_bind, Option.bind_some, htext,
    String.toList_ofList, hsplit]

/-- The segment ends before the next separator, question mark or number sign. -/
theorem takeWhile_segment {segment : Segment} (h : IsClean segment) {tail : List UInt8}
    (htail : ∀ b ∈ tail.head?, b = slash ∨ b = question) :
    (asciiText (segment ++ tail)).takeWhile (fun c => c ≠ '/' ∧ c ≠ '?' ∧ c ≠ '#') =
      asciiText segment := by
  have hsegment : ∀ c ∈ asciiText segment, decide (c ≠ '/' ∧ c ≠ '?' ∧ c ≠ '#') =
      true := by
    intro c hc
    obtain ⟨b, hb, rfl⟩ := List.mem_map.mp hc
    obtain ⟨hvisible, hquestion, hhash, hseparator⟩ := h b hb
    obtain ⟨-, hslash', hquestion', hhash', -⟩ := asciiText_visible b hvisible
    have hslash : b ≠ slash := by
      rintro rfl
      cases hseparator
    exact decide_eq_true ⟨fun heq => hslash (hslash' heq),
      fun heq => hquestion (hquestion' heq), fun heq => hhash (hhash' heq)⟩
  rw [asciiText_append, List.takeWhile_append_of_pos hsegment]
  cases tail with
  | nil => simp [asciiText]
  | cons b tail =>
      obtain rfl | rfl := htail b rfl
      · have hstop : asciiText (slash :: tail) = '/' :: asciiText tail := rfl
        simp [hstop]
      · have hstop : asciiText (question :: tail) = '?' :: asciiText tail := rfl
        simp [hstop]

/-- A request is routed by the first segment of its path. -/
theorem routed_iff {cfg : RelayConfig} {clientId : String}
    (hclient : (cfg.client clientId).isSome = true) (hid : clientId ≠ "")
    {segment : Segment} (hclean : IsClean segment) {tail : List UInt8}
    (htail : ∀ b ∈ tail.head?, b = slash ∨ b = question)
    (hvisible : ∀ b ∈ tail, IsGraphic b) :
    Routed cfg clientId (slash :: (segment ++ tail)) ↔ segment = utf8 clientId := by
  have hall : ∀ b ∈ segment ++ tail, IsGraphic b := by
    intro b hb
    obtain hb | hb := List.mem_append.mp hb
    · exact (hclean b hb).1
    · exact hvisible b hb
  have hfirst :
      ∀ rest, firstPathSegment (requestBlock (slash :: (segment ++ tail)) rest) =
      some (String.ofList (asciiText segment)) := by
    intro rest
    rw [firstPathSegment_block hall, takeWhile_segment hclean htail]
  have hbytes : utf8 (String.ofList (asciiText segment)) = segment :=
    utf8_asciiText fun b hb => ascii_of_visible (hclean b hb).1
  constructor
  · intro h
    have hsame := (hfirst []).symm.trans (h []).1
    rw [← Option.some.inj hsame, hbytes]
  · intro h rest
    have hsame : String.ofList (asciiText segment) = clientId :=
      utf8_injective (hbytes.trans h)
    have hsegment := hfirst rest
    rw [hsame] at hsegment
    refine ⟨hsegment, fun sessions session hsession => ?_⟩
    have hknown : ¬(clientId = "" ∨ (cfg.client clientId).isNone = true) := by
      rintro (hempty | hnone)
      · exact hid hempty
      · rw [Option.isNone_iff_eq_none.mp hnone] at hclient
        cases hclient
    simp only [routeDecision, hsegment, if_neg hknown, hsession]

/-- A parsed path in a request line. -/
theorem routed_path_iff {cfg : RelayConfig} {clientId : String}
    (hclient : (cfg.client clientId).isSome = true) (hid : clientId ≠ "")
    {path : List Segment} (hne : path ≠ []) (hclean : ∀ segment ∈ path, IsClean segment)
    {query : List UInt8} (hquery : ∀ b ∈ query.head?, b = question)
    (hvisible : ∀ b ∈ query, IsGraphic b) :
    Routed cfg clientId ((path.flatMap fun segment => slash :: segment) ++ query) ↔
      path.head? = some (utf8 clientId) := by
  obtain ⟨segment, path, rfl⟩ := List.exists_cons_of_ne_nil hne
  have hsplit : ((segment :: path).flatMap fun segment => slash :: segment) ++ query =
      slash :: (segment ++
      ((path.flatMap fun segment => slash :: segment) ++ query)) := by
    simp
  have hslash : IsGraphic slash := ⟨by decide, by decide⟩
  rw [hsplit, routed_iff hclient hid (hclean segment List.mem_cons_self)]
  · simp
  · intro b hb
    cases path with
    | nil => exact Or.inr (hquery b (by simpa using hb))
    | cons next path =>
        refine Or.inl ?_
        simpa using hb.symm
  · intro b hb
    obtain hb | hb := List.mem_append.mp hb
    · obtain ⟨next, hnext, hb⟩ := List.mem_flatMap.mp hb
      obtain rfl | hb := List.mem_cons.mp hb
      · exact hslash
      · exact (hclean next (List.mem_cons_of_mem _ hnext) b hb).1
    · exact hvisible b hb

/-! ## The links -/

/-- The prefix of a client id, as the desktop and the file server make it. -/
def prefixOf (clientId : String) : Text := trimSlashes (Text.trim clientId).toList

theorem toList_of_visible {clientId : String} (h : ∀ b ∈ utf8 clientId, IsGraphic b) :
    clientId.toList = asciiText (utf8 clientId) := by
  have hbytes := utf8_asciiText fun b hb => ascii_of_visible (h b hb)
  rw [← utf8_injective hbytes, String.toList_ofList, hbytes]

/-- Nothing is trimmed off an id of visible characters without slashes. -/
theorem prefixOf_eq {clientId : String} (h : IsClean (utf8 clientId)) :
    prefixOf clientId = clientId.toList ∧ '/' ∉ clientId.toList := by
  have hchars : ∀ c ∈ clientId.toList, Text.isWhitespace c = false ∧ c ≠ '/' := by
    rw [toList_of_visible fun b hb => (h b hb).1]
    intro c hc
    obtain ⟨b, hb, rfl⟩ := List.mem_map.mp hc
    obtain ⟨hvisible, -, -, hseparator⟩ := h b hb
    obtain ⟨-, hslash, -, -, hblank⟩ := asciiText_visible b hvisible
    refine ⟨hblank, fun heq => ?_⟩
    rw [hslash heq] at hseparator
    cases hseparator
  have htrim : Text.trim clientId = clientId := by
    rw [Text.trim, Text.trimMatches_eq_self, String.ofList_toList]
    · exact fun c hc => (hchars c (List.mem_of_head? hc)).1
    · exact fun c hc => (hchars c (List.mem_of_getLast? hc)).1
  refine ⟨?_, fun hslash => (hchars '/' hslash).2 rfl⟩
  rw [prefixOf, htrim, trimSlashes, Text.trimMatches_eq_self]
  · exact fun c hc => decide_eq_false (hchars c (List.mem_of_head? hc)).2
  · exact fun c hc => decide_eq_false (hchars c (List.mem_of_getLast? hc)).2

theorem encodeUri_single {text : Text} (h : '/' ∉ text) :
    encodeUri text = urlencode (String.ofList text) := by
  rw [encodeUri, List.splitOn_eq_singleton h, List.map_singleton,
    List.intercalate_singleton]
  rfl

theorem isSeparator_urlencode (text : String) :
    ∀ b ∈ urlencode text, isSeparator b = false :=
  fun b hb => (urlencode_visible text b hb).2.2.2.1

/-- The path of a link begins with the encoded id, which the parser walks over. -/
theorem parsePath_link {clientId : String} (hid : clientId ≠ "")
    (h : IsClean (utf8 clientId)) (rest : List UInt8) :
    parsePath (uriPrefixOf (prefixOf clientId) ++ rest) =
      pathState (walk [] (urlencode clientId)) [] rest := by
  obtain ⟨hmount, hslash⟩ := prefixOf_eq h
  have hne : clientId.toList ≠ [] := by simpa using hid
  have hencode := encodeUri_single hslash
  rw [String.ofList_toList] at hencode
  rw [hmount, uriPrefixOf, if_neg hne, hencode]
  calc parsePath (slash :: urlencode clientId ++ [slash] ++ rest)
      = pathState [] [] (urlencode clientId ++ slash :: rest) := by
        simp [parsePath, isSeparator]
    _ = pathState (walk [] (urlencode clientId)) [] rest := by
        rw [pathState_segment (isSeparator_urlencode clientId)]
        rfl

theorem encodeUri_join {names : List Text} (hne : names ≠ [])
    (h : ∀ name ∈ names, IsName name) :
    encodeUri (joinSlash names) =
      List.intercalate [slash] ((names.map String.ofList).map urlencode) := by
  have hsplit : (joinSlash names).splitOn '/' = names :=
    List.splitOn_intercalate '/' (fun name hname => (h name hname).no_slash) hne
  rw [encodeUri, hsplit, List.map_map]
  rfl

/-- Ids that are written and read the same everywhere. -/
structure PlainId (clientId : String) : Prop where
  unreserved : ∀ b ∈ utf8 clientId, isUnreserved b = true
  not_dot : clientId ≠ "."
  not_dots : clientId ≠ ".."

theorem PlainId.clean {clientId : String} (h : PlainId clientId) :
    IsClean (utf8 clientId) := by
  have hall : ∀ b, isUnreserved b = true →
      IsGraphic b ∧ b ≠ question ∧ b ≠ hashSign ∧ isSeparator b = false := by
    unfold IsGraphic
    apply forall_byte
    decide +kernel
  exact fun b hb => hall b (h.unreserved b hb)

theorem PlainId.urlencode_eq {clientId : String} (h : PlainId clientId) :
    urlencode clientId = utf8 clientId := encode_eq_self h.unreserved

theorem PlainId.walk_eq {clientId : String} (h : PlainId clientId)
    (path : List Segment) :
    walk path (utf8 clientId) = path ++ [utf8 clientId] := by
  have hplain := (isPlain_urlencode clientId).mpr ⟨h.not_dot, h.not_dots⟩
  have hwalk := walk_plain hplain path
  rw [encode_urlencode, h.urlencode_eq] at hwalk
  exact hwalk

theorem plainId_of_link {clientId : String} (hid : clientId ≠ "")
    (h : (parsePath (uriPrefixOf (prefixOf clientId) ++
      encodeUri (joinSlash [['a']]))).head? =
      some (utf8 clientId)) : PlainId clientId := by
  have hclean : IsClean (utf8 clientId) :=
    parsePath_clean _ _ (List.mem_of_head? h)
  have hname : encodeUri (joinSlash [['a']]) = [97] := by decide +kernel
  have hstate (path : List Segment) : pathState path [] [97] = path ++ [[97]] := by
    have hplain : IsPlain [97] := ⟨by decide, by decide⟩
    exact finish_plain hplain path
  rw [parsePath_link hid hclean, hname, hstate] at h
  by_cases hplain : IsPlain (urlencode clientId)
  · obtain ⟨hdot, hdots⟩ := (isPlain_urlencode clientId).mp hplain
    rw [walk_plain hplain, encode_urlencode] at h
    have hsame : urlencode clientId = utf8 clientId := Option.some.inj h
    exact ⟨keep_of_encode_eq hsame, hdot, hdots⟩
  · rw [walk_dot hplain] at h
    have hsame : clientId = "a" := by
      apply utf8_injective
      have hletter : utf8 "a" = [97] := by decide +kernel
      rw [hletter]
      exact (Option.some.inj h).symm
    exact absurd ((isPlain_urlencode clientId).mpr (by rw [hsame]; decide)) hplain

theorem link_of_plainId {clientId : String} (hid : clientId ≠ "") (h : PlainId clientId)
    {names : List Text} (hnames : ∀ name ∈ names, IsName name) :
    (parsePath (uriPrefixOf (prefixOf clientId) ++ encodeUri (joinSlash names))).head? =
      some (utf8 clientId) := by
  rw [parsePath_link hid h.clean, h.urlencode_eq, h.walk_eq]
  by_cases hnone : names = []
  · have hempty : encodeUri (joinSlash []) = [] := by decide +kernel
    rw [hnone, hempty, pathState, finish_plain isPlain_nil]
    rfl
  · have hplain : ∀ text ∈ names.map String.ofList, text ≠ "." ∧ text ≠ ".." := by
      intro text htext
      obtain ⟨name, hname, rfl⟩ := List.mem_map.mp htext
      have hofList (literal : String) (hne : name ≠ literal.toList) :
          String.ofList name ≠ literal := by
        rintro rfl
        exact hne String.toList_ofList.symm
      exact ⟨hofList "." (hnames name hname).not_dot,
        hofList ".." (hnames name hname).not_dots⟩
    have hne : names.map String.ofList ≠ [] := by simpa using hnone
    rw [encodeUri_join hnone hnames, pathState_plain _ hne hplain]
    rfl

/-! ## The generated address -/

theorem PlainId.appended {clientId : String} (hid : clientId ≠ "")
    (h : PlainId clientId) :
    IsAppended (utf8 clientId) where
  nonempty := fun hempty => hid (utf8_injective hempty)
  tail := by
    have hall : ∀ b, isUnreserved b = true →
        32 < b ∧ b ≠ colon ∧ b ≠ question ∧ b ≠ hashSign := by
      apply forall_byte
      decide +kernel
    exact fun b hb => hall b (h.unreserved b hb)
  no_separator := fun b hb => (h.clean b hb).2.2.2
  walked := h.walk_eq

theorem parseUrl_wellFormed {input : List UInt8} {url : Url}
    (h : parseUrl input = some url) :
    url.path ≠ [] ∧ (∀ segment ∈ url.path, IsClean segment) ∧
      ∀ query ∈ url.query, ∀ b ∈ query, IsGraphic b := by
  obtain ⟨⟨scheme, rest⟩, -, hrest⟩ := Option.bind_eq_some_iff.mp h
  have hquery : ∀ b, keepInQuery b = true → IsGraphic b := by
    unfold IsGraphic
    apply forall_byte
    decide +kernel
  dsimp only at hrest
  split at hrest
  case isFalse => cases hrest
  case isTrue =>
    unfold parseAuthority at hrest
    dsimp only at hrest
    split at hrest
    case isTrue => cases hrest
    case isFalse =>
      obtain rfl := Option.some.inj hrest
      refine ⟨parsePath_ne_nil _, parsePath_clean _, ?_⟩
      intro query hmem
      obtain ⟨raw, -, rfl⟩ := Option.map_eq_some_iff.mp hmem
      exact visible_of_encode hquery raw

/-- A parsed address leads to the client that its first segment names. -/
theorem routed_url_iff {cfg : RelayConfig} {clientId : String}
    (hclient : (cfg.client clientId).isSome = true) (hid : clientId ≠ "")
    {input : List UInt8} {url : Url} (h : parseUrl input = some url) :
    Routed cfg clientId url.requestTarget ↔ url.path.head? = some (utf8 clientId) := by
  obtain ⟨hne, hclean, hquery⟩ := parseUrl_wellFormed h
  unfold Url.requestTarget
  cases hsome : url.query with
  | none => exact routed_path_iff hclient hid hne hclean (by simp) (by simp)
  | some query =>
      apply routed_path_iff hclient hid hne hclean
      · rintro b ⟨⟩
        rfl
      · exact List.forall_mem_cons.mpr ⟨⟨by decide, by decide⟩, hquery query hsome⟩

/-- The configured base, closed by a slash, has an empty path or one that begins with
the client id. -/
def BaseLeaves (cfg : RelayConfig) (clientId : String) : Prop :=
  ∀ router base, cfg.pathRouterPort = some router → cfg.publicBaseUrl = some base →
    ∃ url, parseUrl (utf8 (trimEndSlashes base) ++ [slash]) = some url ∧
      BeginsWith url (utf8 clientId)

theorem publicUrlFor_eq {cfg : RelayConfig} {clientId : String}
    (h : cfg.generates clientId) :
    cfg.publicUrlFor clientId =
      match cfg.pathRouterPort, cfg.publicBaseUrl with
      | some _, some base => some (trimEndSlashes base ++ "/" ++ clientId ++ "/")
      | _, _ => none := by
  unfold RelayConfig.generates at h
  cases hrouter : cfg.pathRouterPort <;> cases hbase : cfg.publicBaseUrl <;>
    simp [RelayConfig.publicUrlFor, h, hrouter, hbase]

theorem utf8_address (base clientId : String) :
    utf8 (base ++ "/" ++ clientId ++ "/") =
      utf8 base ++ slash :: (utf8 clientId ++ [slash]) := by
  have hslash : utf8 "/" = [slash] := by decide +kernel
  simp [utf8_append, hslash]

/-- The desktop runs in path-prefix mode under this id. -/
structure PrefixMode (desk : AppConfig) (clientId : String) : Prop where
  enabled : desk.relay.enabled = true
  path_prefix : desk.relay.pathPrefix = true
  client_id : desk.relay.clientId = clientId

theorem uriPrefix_eq {fs : FileSystem} {desk : AppConfig} {clientId : String}
    (hmode : PrefixMode desk clientId) {args : Args}
    (h : Args.fromYaml fs desk.toDufsYaml = .ok args) :
    args.uriPrefix = uriPrefixOf (prefixOf clientId) := by
  obtain ⟨-, hmount, huri⟩ := Args.fromYaml_ok h
  rw [huri, hmount, prefixOf, AppConfig.toDufsYaml, AppConfig.pathPrefix]
  by_cases hempty : Text.trim clientId = ""
  · simp [hmode.enabled, hmode.path_prefix, hmode.client_id, hempty]
  · simp [hmode.enabled, hmode.path_prefix, hmode.client_id, hempty]

/-- Path routing finds a client exactly when its id is plain and the base of the
generated address has no other path. -/
theorem findsClient_iff (cfg : RelayConfig) (clientId : String)
    (hclient : (cfg.client clientId).isSome = true) (hid : clientId ≠ "")
    (fs : FileSystem)
    (desk : AppConfig) (hmode : PrefixMode desk clientId) (args : Args)
    (hargs : Args.fromYaml fs desk.toDufsYaml = .ok args) :
    FindsClient cfg clientId args ↔
      PlainId clientId ∧ (cfg.generates clientId → BaseLeaves cfg clientId) := by
  have hmount := uriPrefix_eq hmode hargs
  have hlink (names : List Text) :
      Routed cfg clientId ((parsePath (link args names)).flatMap fun segment =>
        slash :: segment) ↔
      (parsePath (link args names)).head? = some (utf8 clientId) := by
    have hhead : ∀ b ∈ ([] : List UInt8).head?, b = question := by simp
    have hiff := routed_path_iff hclient hid (parsePath_ne_nil (link args names))
      (parsePath_clean _) hhead (by simp)
    rwa [List.append_nil] at hiff
  have haddress (h : PlainId clientId) (base : String) :
      (∃ url, parseUrl (utf8 (trimEndSlashes base ++ "/" ++ clientId ++ "/")) =
        some url ∧
        Routed cfg clientId url.requestTarget) ↔
      ∃ url, parseUrl (utf8 (trimEndSlashes base) ++ [slash]) = some url ∧
        BeginsWith url (utf8 clientId) := by
    rw [utf8_address, ← parseUrl_append (h.appended hid)]
    constructor
    · rintro ⟨url, hurl, hrouted⟩
      exact ⟨url, hurl, (routed_url_iff hclient hid hurl).mp hrouted⟩
    · rintro ⟨url, hurl, hhead⟩
      exact ⟨url, hurl, (routed_url_iff hclient hid hurl).mpr hhead⟩
  constructor
  · intro h
    have hname : ∀ name ∈ [['a']], IsName name := by
      intro name hname
      rw [List.mem_singleton.mp hname]
      exact ⟨by decide, by decide, by decide, by decide⟩
    have hfirst := (hlink [['a']]).mp (h.links [['a']] hname)
    rw [link, hmount] at hfirst
    have hplain := plainId_of_link hid hfirst
    refine ⟨hplain, fun hgenerates router base hrouter hbase => ?_⟩
    have hshown := publicUrlFor_eq hgenerates
    rw [hrouter, hbase] at hshown
    exact (haddress hplain base).mp (h.address hgenerates _ hshown)
  · rintro ⟨hplain, hbase⟩
    refine ⟨fun names hnames => ?_, fun hgenerates address hshown => ?_⟩
    · rw [hlink, link, hmount]
      exact link_of_plainId hid hplain hnames
    · rw [publicUrlFor_eq hgenerates] at hshown
      split at hshown
      case h_1 router base hrouter hsome =>
        obtain rfl := Option.some.inj hshown
        exact (haddress hplain base).mpr (hbase hgenerates router base hrouter hsome)
      case h_2 => cases hshown

/-! ## Fixed configurations -/

def routedConfig (clientId : String) : RelayConfig where
  bind := .v4 "0.0.0.0"
  controlPort := 7100
  heartbeatSecs := 15
  publicHost := none
  tlsCert := none
  tlsKey := none
  visitorBind := none
  pathRouterPort := some 443
  publicBaseUrl := some "https://pan.example.com/"
  visitorTls := none
  clients := [⟨clientId, "0123456789abcdef", [], none⟩]

def routedDesk (clientId : String) : AppConfig :=
  { AppConfig.default with
    servePath := "/srv/share"
    relay :=
      { RelaySettings.default with enabled := true, clientId, pathPrefix := true } }

def routedArgs (clientId : String) : Args :=
  .finalize (routedDesk clientId).toDufsYaml .default "/srv/share".toList false

theorem fromYaml_routed (clientId : String) :
    Args.fromYaml (fun _ => some ("/srv/share".toList, false))
      (routedDesk clientId).toDufsYaml = .ok (routedArgs clientId) := by
  have hnone : (routedDesk clientId).toDufsYaml.auth = [] := by
    have hdisabled : (routedDesk clientId).authEnabled = false := by
      have htrim : Text.trim "" = "" := by decide +kernel
      simp [AppConfig.authEnabled, routedDesk, AppConfig.default, htrim]
    simp [AppConfig.toDufsYaml, AppConfig.auth, hdisabled]
  rw [Args.fromYaml, hnone]
  rfl

theorem findsClient_sample :
    FindsClient (routedConfig "mac") "mac" (routedArgs "mac") :=
  (findsClient_iff (routedConfig "mac") "mac" (by decide +kernel) (by decide)
    (fun _ => some ("/srv/share".toList, false)) (routedDesk "mac") ⟨rfl, rfl, rfl⟩
    (routedArgs "mac") (fromYaml_routed "mac")).mpr
    ⟨⟨by decide +kernel, by decide, by decide⟩, fun _ router base _ hbase => by
      obtain rfl : "https://pan.example.com/" = base := Option.some.inj hbase
      have hparse :
          parseUrl (utf8 (trimEndSlashes "https://pan.example.com/") ++ [slash]) =
          some ⟨https, utf8 "pan.example.com", [[]], none, none⟩ := by
        decide +kernel
      exact ⟨_, hparse, Or.inr ⟨rfl, rfl, rfl⟩⟩⟩

/-- The links of a client with a Chinese id are not found. -/
theorem encoded_id_not_found :
    routeDecision (routedConfig "网盘") (fun _ => some 0)
        (requestBlock ((parsePath (link (routedArgs "网盘") [])).flatMap fun segment =>
          slash :: segment) []) = .notFound ∧
      ¬FindsClient (routedConfig "网盘") "网盘" (routedArgs "网盘") := by
  have hsegment : firstPathSegment (requestBlock
      ((parsePath (link (routedArgs "网盘") [])).flatMap fun segment => slash :: segment)
        []) = some "%E7%BD%91%E7%9B%98" := by
    decide +kernel
  refine ⟨by decide +kernel, fun h => ?_⟩
  have hsame := hsegment.symm.trans (h.links [] (by simp) []).1
  revert hsame
  decide

end Yunpan.Relay
