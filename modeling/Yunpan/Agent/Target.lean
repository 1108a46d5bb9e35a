import Yunpan.Protocol.Urlencode

/-!
# The agent's requests

Every tool of the agent turns a remote path into the address of a request: the
path's segments, each percent-encoded, behind the base address.  The HTTP client
then parses that address, and what it finds there is what the share acts on.
-/

namespace Yunpan.Agent

open Yunpan.Protocol Yunpan.Percent Yunpan.Address

/-- Where the agent finds the share. -/
structure Target where
  baseUrl : String
  user : Option String
  pass : Option String

inductive Method where
  | get
  | put
  | delete
  | mkcol
  deriving DecidableEq

structure Request where
  method : Method
  url : List UInt8
  basicAuth : Option (String × String)
  deriving DecidableEq

/-- The non-empty parts of a remote path. -/
def pathSegments (remotePath : String) : List String :=
  ((remotePath.toList.splitOn '/').filter fun part => part ≠ []).map String.ofList

namespace Target

def url (t : Target) (remotePath : String) : List UInt8 :=
  utf8 t.baseUrl ++
    slash :: List.intercalate [slash] ((pathSegments remotePath).map urlencode)

/-- Credentials are sent when both halves are there. -/
def request (t : Target) (method : Method) (url : List UInt8) : Request where
  method
  url
  basicAuth := do
    let user ← t.user
    let pass ← t.pass
    return (user, pass)

end Target

/-- The tools that act on the one file or directory that they name. -/
inductive FileTool where
  | upload
  | download
  | delete
  | makeDir

def FileTool.method : FileTool → Method
  | .upload => .put
  | .download => .get
  | .delete => .delete
  | .makeDir => .mkcol

def FileTool.request (tool : FileTool) (t : Target) (remotePath : String) : Request :=
  t.request tool.method (t.url remotePath)

/-- The request of the `status` tool. -/
def statusRequest (t : Target) : Request :=
  t.request .get (utf8 t.baseUrl ++ utf8 "/__dufs__/health")

theorem pathSegments_ne {remotePath text : String}
    (h : text ∈ pathSegments remotePath) :
    text ≠ "" := by
  obtain ⟨part, hpart, rfl⟩ := List.mem_map.mp h
  have hne := (List.mem_filter.mp hpart).2
  intro hempty
  have hnil : part = [] := by simpa using congrArg String.toList hempty
  simp [hnil] at hne

/-! ## The path that is acted on -/

/-- What the segments of the address have to decode to: the segments of the
remote path, and behind the base path's last slash nothing when there are none. -/
def addressed (remotePath : String) : List Segment :=
  if pathSegments remotePath = [] then [[]] else (pathSegments remotePath).map utf8

/-- Parsed, the address is the base address with the named path below it. -/
def PathNamed (base : BaseUrl) (url : List UInt8) (remotePath : String) : Prop :=
  ∃ parsed, parseUrl url = some parsed ∧
    parsed.scheme = base.scheme ∧ parsed.authority = base.authority ∧
    parsed.query = none ∧ parsed.fragment = none ∧
    ∃ below, parsed.path = base.path ++ below ∧
      below.map decode = addressed remotePath

/-- Appending a path changes nothing but the path of the base address. -/
theorem parseUrl_url {t : Target} {base : BaseUrl} (hbase : utf8 t.baseUrl = base.text)
    (remotePath : String) :
    parseUrl (t.url remotePath) =
      some {
        scheme := base.scheme
        authority := base.authority
        path := pathState base.path []
          (List.intercalate [slash] ((pathSegments remotePath).map urlencode))
        query := none
        fragment := none } := by
  rw [Target.url, hbase]
  apply base.parseUrl_text
  apply forall_mem_join
  · decide
  intro segment hsegment b hb
  obtain ⟨text, -, rfl⟩ := List.mem_map.mp hsegment
  have hvisible := urlencode_visible text b hb
  exact ⟨hvisible.1, hvisible.2.1, hvisible.2.2.1⟩

/-- A dot segment makes the path shorter than its segments, or leaves nothing in
the place of the last one. -/
theorem plain_of_named {path below : List Segment} {texts : List String}
    (hne : ∀ text ∈ texts, text ≠ "")
    (hpath : pathState path [] (List.intercalate [slash] (texts.map urlencode)) =
      path ++ below)
    (hbelow : below.map decode = texts.map utf8) :
    ∀ text ∈ texts, text ≠ "." ∧ text ≠ ".." := by
  obtain rfl | ⟨init, last, rfl⟩ := List.eq_nil_or_concat' texts
  · simp
  rw [pathState_urlencode] at hpath
  have hlength : below.length = init.length + 1 := by
    simpa using congrArg List.length hbelow
  have hlast : IsPlain (urlencode last) := by
    by_contra hdot
    obtain ⟨parent, hparent⟩ := finish_dot hdot ((init.map urlencode).foldl walk path)
    have hend : below.getLast? = some [] := by
      have hends := congrArg List.getLast? (hpath.symm.trans hparent)
      have hbelow_ne : below ≠ [] := by
        rintro rfl
        cases hlength
      rw [List.getLast?_append, List.getLast?_eq_some_getLast hbelow_ne] at hends
      rw [List.getLast?_eq_some_getLast hbelow_ne]
      simpa using hends
    have hempty := congrArg List.getLast? hbelow
    simp only [List.getLast?_map, hend, List.map_append, List.getLast?_append] at hempty
    have hutf8 : utf8 last = [] := by simpa [decode] using hempty.symm
    exact hne last (List.mem_append_right _ List.mem_cons_self) (utf8_injective hutf8)
  have hcount := length_foldl_walk_le (init.map urlencode) path
  have hall : (init.map urlencode).countP
      (fun segment => !isSingleDot segment && !isDoubleDot segment) =
        (init.map urlencode).length := by
    have htotal := congrArg List.length hpath
    rw [finish_plain hlast, List.length_append, List.length_append, hlength] at htotal
    have hbound := List.countP_le_length (l := init.map urlencode)
      (p := fun segment => !isSingleDot segment && !isDoubleDot segment)
    simp only [List.length_cons, List.length_nil, List.length_map] at htotal hbound ⊢
    omega
  intro text htext
  rw [← isPlain_urlencode]
  obtain htext | htext := List.mem_append.mp htext
  · have hplain := List.countP_eq_length.mp hall _ (List.mem_map_of_mem htext)
    simpa [IsPlain] using hplain
  · rw [List.mem_singleton.mp htext]
    exact hlast

/-- The path that a file tool names is the path that is acted on exactly when none
of its segments is a dot segment. -/
theorem path_named_iff (base : BaseUrl) (t : Target)
    (hbase : utf8 t.baseUrl = base.text)
    (tool : FileTool) (remotePath : String) :
    PathNamed base (tool.request t remotePath).url remotePath ↔
      ∀ text ∈ pathSegments remotePath, text ≠ "." ∧ text ≠ ".." := by
  have hparse := parseUrl_url hbase remotePath
  have hurl : (tool.request t remotePath).url = t.url remotePath := rfl
  constructor
  · rintro ⟨parsed, hparsed, -, -, -, -, below, hpath, hbelow⟩
    rw [hurl, hparse] at hparsed
    obtain rfl := Option.some.inj hparsed
    by_cases hnone : pathSegments remotePath = []
    · simp [hnone]
    · rw [addressed, if_neg hnone] at hbelow
      exact plain_of_named (fun text => pathSegments_ne) hpath hbelow
  · intro h
    rw [PathNamed, hurl, hparse]
    refine ⟨_, rfl, rfl, rfl, rfl, rfl, ?_⟩
    by_cases hnone : pathSegments remotePath = []
    · refine ⟨[[]], ?_, ?_⟩
      · simp [hnone, pathState, finish_plain isPlain_nil, encode]
      · simp [addressed, hnone, decode]
    · refine ⟨(pathSegments remotePath).map urlencode, pathState_plain _ hnone h, ?_⟩
      simp [addressed, hnone, decode_urlencode]

/-! ## A run on fixed inputs -/

def sampleBase : BaseUrl where
  secure := false
  authority := utf8 "127.0.0.1:5000"
  pathPrefix := utf8 "/up"
  authority_ne := by decide +kernel
  authority_plain := by decide +kernel
  prefix_rooted := by decide +kernel
  prefix_open := by decide +kernel
  prefix_plain := by decide +kernel

def sampleTarget : Target where
  baseUrl := "http://127.0.0.1:5000/up"
  user := some "boss"
  pass := none

theorem path_named_sample :
    PathNamed sampleBase (FileTool.upload.request sampleTarget "报告//a?.txt").url
      "报告//a?.txt" :=
  (path_named_iff sampleBase sampleTarget (by decide +kernel) .upload "报告//a?.txt").mpr
    (by decide +kernel)

/-- Deleting `docs/..` deletes the directory that the share is. -/
theorem parent_is_acted_on :
    parseUrl (FileTool.delete.request sampleTarget "docs/..").url =
        parseUrl (sampleTarget.url "") ∧
      ¬PathNamed sampleBase (FileTool.delete.request sampleTarget "docs/..").url
        "docs/.." := by
  have hparse : parseUrl (FileTool.delete.request sampleTarget "docs/..").url =
      some ⟨http, utf8 "127.0.0.1:5000", [utf8 "up", []], none, none⟩ := by
    decide +kernel
  refine ⟨by rw [hparse]; decide +kernel, ?_⟩
  rintro ⟨parsed, hparsed, -, -, -, -, below, hpath, hbelow⟩
  rw [hparse] at hparsed
  obtain rfl := Option.some.inj hparsed
  have hbase : sampleBase.path = [utf8 "up"] := by decide +kernel
  rw [hbase] at hpath
  obtain rfl : below = [[]] := (List.cons.inj hpath).2.symm
  revert hbelow
  decide +kernel

end Yunpan.Agent
