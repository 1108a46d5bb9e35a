import Yunpan.Core.Percent
import Yunpan.Core.Separator

/-!
# Addresses as the URL standard parses them

Both the agent's HTTP client and a browser pass an address through the URL
standard's parser before they write its path into a request line.  For `http`
and `https` the parser takes `\` for `/`, percent-encodes what may not stand in a
path, and resolves the segments `.` and `..`, however their dots are written.
Everything here is about the bytes of an address; the host is kept as it stands.
-/

namespace Yunpan.Address

open Yunpan.Percent Yunpan.Separator

abbrev slash : UInt8 := 47

abbrev backslash : UInt8 := 92

abbrev colon : UInt8 := 58

abbrev question : UInt8 := 63

abbrev hashSign : UInt8 := 35

abbrev Segment := List UInt8

def isSeparator (b : UInt8) : Bool := b == slash || b == backslash

def toLower (b : UInt8) : UInt8 := if 65 ≤ b ∧ b ≤ 90 then b + 32 else b

/-- Not in the path percent-encode set. -/
def keepInPath (b : UInt8) : Bool :=
  32 < b && b < 127 && b != 34 && b != hashSign && b != 60 && b != 62 &&
    b != question && b != 96 && b != 123 && b != 125

/-- Not in the special-query percent-encode set. -/
def keepInQuery (b : UInt8) : Bool :=
  32 < b && b < 127 && b != 34 && b != hashSign && b != 39 && b != 60 && b != 62

/-- Not in the fragment percent-encode set. -/
def keepInFragment (b : UInt8) : Bool :=
  32 < b && b < 127 && b != 34 && b != 60 && b != 62 && b != 96

/-- `.` or `%2e`. -/
def isSingleDot (segment : Segment) : Bool :=
  let segment := segment.map toLower
  segment == [46] || segment == [percent, 50, 101]

/-- `..`, with either dot written as `%2e`. -/
def isDoubleDot (segment : Segment) : Bool :=
  let segment := segment.map toLower
  segment == [46, 46] || segment == [46, percent, 50, 101] ||
    segment == [percent, 50, 101, 46] ||
    segment == [percent, 50, 101, percent, 50, 101]

/-- A segment that a separator follows. -/
def walk (path : List Segment) (segment : Segment) : List Segment :=
  if isDoubleDot segment then path.dropLast
  else if isSingleDot segment then path
  else path ++ [encode keepInPath segment]

/-- The last segment. -/
def finish (path : List Segment) (segment : Segment) : List Segment :=
  if isDoubleDot segment then path.dropLast ++ [[]]
  else if isSingleDot segment then path ++ [[]]
  else path ++ [encode keepInPath segment]

/-- The path state of the parser. -/
def pathState (path : List Segment) (buffer : Segment) : List UInt8 → List Segment
  | [] => finish path buffer
  | b :: rest =>
      if isSeparator b then pathState (walk path buffer) [] rest
      else pathState path (buffer ++ [b]) rest

/-- The path start state: one separator at the beginning opens the path. -/
def parsePath : List UInt8 → List Segment
  | [] => pathState [] [] []
  | b :: rest =>
      if isSeparator b then pathState [] [] rest else pathState [] [] (b :: rest)

structure Url where
  scheme : List UInt8
  authority : List UInt8
  path : List Segment
  query : Option (List UInt8)
  fragment : Option (List UInt8)
  deriving DecidableEq

def http : List UInt8 := [104, 116, 116, 112]

def https : List UInt8 := [104, 116, 116, 112, 115]

def isControlOrSpace (b : UInt8) : Bool := b ≤ 32

def isTabOrNewline (b : UInt8) : Bool := b == 9 || b == 10 || b == 13

/-- The parser drops controls and spaces at both ends, and tabs and newlines
everywhere. -/
def clean (input : List UInt8) : List UInt8 :=
  ((input.dropWhile isControlOrSpace).reverse.dropWhile
    isControlOrSpace).reverse.filter fun b => !isTabOrNewline b

def endsAuthority (b : UInt8) : Bool := isSeparator b || b == question || b == hashSign

/-- Cut at the first separator, if there is one. -/
def cut (sep : UInt8) (bytes : List UInt8) : List UInt8 × Option (List UInt8) :=
  match splitOnce sep bytes with
  | some (before, after) => (before, some after)
  | none => (bytes, none)

/-- The authority state, and what follows it. -/
def parseAuthority (scheme rest : List UInt8) : Option Url :=
  let authority := rest.takeWhile fun b => !endsAuthority b
  if authority = [] then none
  else
    let (rest, fragment) := cut hashSign (rest.dropWhile fun b => !endsAuthority b)
    let (path, query) := cut question rest
    some {
      scheme
      authority
      path := parsePath path
      query := query.map (encode keepInQuery)
      fragment := fragment.map (encode keepInFragment) }

/-- Parse an absolute `http` or `https` address. -/
def parseUrl (input : List UInt8) : Option Url := do
  let (scheme, rest) ← splitOnce colon (clean input)
  let scheme := scheme.map toLower
  if scheme = http ∨ scheme = https then
    parseAuthority scheme (rest.dropWhile isSeparator)
  else none

/-- What a client writes into its request line. -/
def Url.requestTarget (url : Url) : List UInt8 :=
  (url.path.flatMap fun segment => slash :: segment) ++
    match url.query with
    | some query => question :: query
    | none => []

/-! ## Plain segments are appended -/

/-- Neither `.` nor `..` in any spelling. -/
def IsPlain (segment : Segment) : Prop :=
  isSingleDot segment = false ∧ isDoubleDot segment = false

theorem walk_plain {segment : Segment} (h : IsPlain segment) (path : List Segment) :
    walk path segment = path ++ [encode keepInPath segment] := by
  rw [walk, h.2, h.1]
  rfl

theorem finish_plain {segment : Segment} (h : IsPlain segment) (path : List Segment) :
    finish path segment = path ++ [encode keepInPath segment] := by
  rw [finish, h.2, h.1]
  rfl

/-- From an empty path a dot segment leads nowhere. -/
theorem walk_dot {segment : Segment} (h : ¬IsPlain segment) : walk [] segment = [] := by
  unfold walk
  split
  case isTrue => rfl
  case isFalse hdouble =>
    split
    case isTrue => rfl
    case isFalse hsingle =>
      exact absurd ⟨Bool.eq_false_of_not_eq_true hsingle,
        Bool.eq_false_of_not_eq_true hdouble⟩ h

theorem isPlain_nil : IsPlain [] := ⟨rfl, rfl⟩

/-- The path state up to a separator that follows `bytes`. -/
def walkAll (path : List Segment) (buffer : Segment) : List UInt8 → List Segment
  | [] => walk path buffer
  | b :: rest =>
      if isSeparator b then walkAll (walk path buffer) [] rest
      else walkAll path (buffer ++ [b]) rest

theorem pathState_append_slash (path : List Segment) (buffer : Segment)
    (bytes rest : List UInt8) :
    pathState path buffer (bytes ++ slash :: rest) =
      pathState (walkAll path buffer bytes) [] rest := by
  induction bytes generalizing path buffer with
  | nil => rfl
  | cons b bytes ih =>
      rw [List.cons_append, pathState, walkAll]
      split
      · apply ih
      · apply ih

theorem pathState_segment {segment : Segment}
    (h : ∀ b ∈ segment, isSeparator b = false) (path : List Segment) (buffer : Segment)
    (rest : List UInt8) :
    pathState path buffer (segment ++ rest) =
      pathState path (buffer ++ segment) rest := by
  induction segment generalizing buffer with
  | nil => simp
  | cons b segment ih =>
      have hb := h b List.mem_cons_self
      have htail := ih fun x hx => h x (List.mem_cons_of_mem _ hx)
      rw [List.cons_append, pathState, if_neg (by simp [hb]), htail]
      simp

/-- The path state over segments that hold no separator. -/
theorem pathState_join (path : List Segment) {segments : List Segment}
    (h : ∀ segment ∈ segments, ∀ b ∈ segment, isSeparator b = false)
    (last : Segment) (hlast : ∀ b ∈ last, isSeparator b = false) :
    pathState path [] (List.intercalate [slash] (segments ++ [last])) =
      finish (segments.foldl walk path) last := by
  induction segments generalizing path with
  | nil =>
      have hstate := pathState_segment hlast path [] []
      simpa [List.intercalate, pathState] using hstate
  | cons segment segments ih =>
      have hsegment := h segment List.mem_cons_self
      have hrest := ih (walk path segment) fun x hx => h x (List.mem_cons_of_mem _ hx)
      have hjoin : List.intercalate [slash] (segment :: segments ++ [last]) =
          segment ++ slash :: List.intercalate [slash] (segments ++ [last]) := by
        cases segments <;> simp [List.intercalate, List.intersperse]
      calc pathState path [] (List.intercalate [slash] (segment :: segments ++ [last]))
          = pathState path segment
              (slash :: List.intercalate [slash] (segments ++ [last])) := by
            rw [hjoin, pathState_segment hsegment, List.nil_append]
        _ = pathState (walk path segment) []
              (List.intercalate [slash] (segments ++ [last])) := rfl
        _ = finish ((segment :: segments).foldl walk path) last := hrest

theorem forall_mem_join {P : UInt8 → Prop} (hslash : P slash) {segments : List Segment}
    (h : ∀ segment ∈ segments, ∀ b ∈ segment, P b) :
    ∀ b ∈ List.intercalate [slash] segments, P b := by
  induction segments with
  | nil => simp
  | cons segment segments ih =>
      have hsegment := h segment List.mem_cons_self
      have hrest := ih fun x hx => h x (List.mem_cons_of_mem _ hx)
      intro b hb
      cases segments with
      | nil =>
          rw [List.intercalate_singleton] at hb
          exact hsegment b hb
      | cons next segments =>
          rw [List.intercalate_cons_cons, List.mem_append, List.mem_append,
            List.mem_singleton] at hb
          obtain (hb | rfl) | hb := hb
          · exact hsegment b hb
          · exact hslash
          · exact hrest b hb

/-- A path that is written out with a slash before every segment. -/
theorem flatMap_slash {segments : List Segment} (h : segments ≠ []) :
    (segments.flatMap fun segment => slash :: segment) =
      slash :: List.intercalate [slash] segments := by
  induction segments with
  | nil => exact absurd rfl h
  | cons segment segments ih =>
      cases segments with
      | nil => simp
      | cons next segments =>
          rw [List.flatMap_cons, ih (List.cons_ne_nil _ _), List.intercalate_cons_cons]
          simp

theorem foldl_walk_plain {segments : List Segment}
    (h : ∀ segment ∈ segments, IsPlain segment)
    (path : List Segment) :
    segments.foldl walk path = path ++ segments.map (encode keepInPath) := by
  induction segments generalizing path with
  | nil => simp
  | cons segment segments ih =>
      have hwalk := walk_plain (h segment List.mem_cons_self) path
      have hrest := ih fun x hx => h x (List.mem_cons_of_mem _ hx)
      simp [hwalk, hrest]

/-! ## Addresses that begin alike -/

/-- The directory that a path names when a separator follows it. -/
def directory : List UInt8 → List Segment
  | [] => []
  | b :: rest => if isSeparator b then walkAll [] [] rest else walkAll [] [] (b :: rest)

theorem parsePath_append_slash (bytes rest : List UInt8) :
    parsePath (bytes ++ slash :: rest) = pathState (directory bytes) [] rest := by
  cases bytes with
  | nil => rfl
  | cons b bytes =>
      rw [List.cons_append, parsePath, directory]
      split
      · exact pathState_append_slash _ _ _ _
      · exact pathState_append_slash _ _ (b :: bytes) _

theorem finish_dot {segment : Segment} (h : ¬IsPlain segment) (path : List Segment) :
    ∃ parent, finish path segment = parent ++ [[]] := by
  unfold finish
  split
  case isTrue => exact ⟨_, rfl⟩
  case isFalse hdouble =>
    split
    case isTrue => exact ⟨_, rfl⟩
    case isFalse hsingle =>
      exact absurd ⟨Bool.eq_false_of_not_eq_true hsingle,
        Bool.eq_false_of_not_eq_true hdouble⟩ h

/-- What the path state keeps when it walks over segments is at most the plain ones. -/
theorem length_foldl_walk_le (segments path : List Segment) :
    (segments.foldl walk path).length ≤
      path.length + segments.countP fun segment =>
        !isSingleDot segment && !isDoubleDot segment := by
  induction segments generalizing path with
  | nil => simp
  | cons segment segments ih =>
      have hrest := ih (walk path segment)
      have hwalk : (walk path segment).length ≤ path.length +
          if !isSingleDot segment && !isDoubleDot segment then 1 else 0 := by
        unfold walk
        split
        case isTrue => simp; omega
        case isFalse hdouble => split <;> simp_all
      rw [List.foldl_cons, List.countP_cons]
      omega

/-! ## What the parser puts into a path -/

/-- A byte of a path, a query or a fragment. -/
def IsGraphic (b : UInt8) : Prop := 32 < b ∧ b < 127

/-- A segment as it can stand in a request line. -/
def IsClean (segment : Segment) : Prop :=
  ∀ b ∈ segment, IsGraphic b ∧ b ≠ question ∧ b ≠ hashSign ∧ isSeparator b = false

theorem visible_of_encode {keep : UInt8 → Bool}
    (hkeep : ∀ b, keep b = true → IsGraphic b)
    (bytes : List UInt8) : ∀ b ∈ encode keep bytes, IsGraphic b := by
  have hunreserved : ∀ b, isUnreserved b = true → IsGraphic b := by
    unfold IsGraphic
    apply forall_byte
    decide +kernel
  apply forall_mem_encode
  · exact fun b _ => hkeep b
  · exact ⟨by decide, by decide⟩
  · exact hunreserved

theorem isClean_encode {segment : Segment} (h : ∀ b ∈ segment, isSeparator b = false) :
    IsClean (encode keepInPath segment) := by
  have hkept : ∀ b, keepInPath b = true → IsGraphic b ∧ b ≠ question ∧
      b ≠ hashSign := by
    unfold IsGraphic
    apply forall_byte
    decide +kernel
  have hunreserved : ∀ b, isUnreserved b = true →
      IsGraphic b ∧ b ≠ question ∧ b ≠ hashSign ∧ isSeparator b = false := by
    unfold IsGraphic
    apply forall_byte
    decide +kernel
  apply forall_mem_encode
  · intro b hb hkeep
    obtain ⟨hvisible, hquestion, hhash⟩ := hkept b hkeep
    exact ⟨hvisible, hquestion, hhash, h b hb⟩
  · exact ⟨⟨by decide, by decide⟩, by decide, by decide, by decide⟩
  · exact hunreserved

theorem isClean_nil : IsClean [] := by
  intro b hb
  cases hb

theorem walk_clean {path : List Segment} (hpath : ∀ segment ∈ path, IsClean segment)
    {segment : Segment} (h : ∀ b ∈ segment, isSeparator b = false) :
    ∀ s ∈ walk path segment, IsClean s := by
  unfold walk
  intro s hs
  split at hs
  case isTrue => exact hpath s (List.dropLast_subset _ hs)
  case isFalse =>
    split at hs
    case isTrue => exact hpath s hs
    case isFalse =>
      obtain hs | hs := List.mem_append.mp hs
      · exact hpath s hs
      · rw [List.mem_singleton.mp hs]
        exact isClean_encode h

theorem finish_clean {path : List Segment} (hpath : ∀ segment ∈ path, IsClean segment)
    {segment : Segment} (h : ∀ b ∈ segment, isSeparator b = false) :
    ∀ s ∈ finish path segment, IsClean s := by
  have happend (front : List Segment) (last : Segment) (hfront : ∀ s ∈ front, IsClean s)
      (hlast : IsClean last) : ∀ s ∈ front ++ [last], IsClean s := by
    intro s hs
    obtain hs | hs := List.mem_append.mp hs
    · exact hfront s hs
    · rw [List.mem_singleton.mp hs]
      exact hlast
  unfold finish
  split
  case isTrue =>
    exact happend _ _ (fun s hs => hpath s (List.dropLast_subset _ hs)) isClean_nil
  case isFalse =>
    split
    case isTrue => exact happend _ _ hpath isClean_nil
    case isFalse => exact happend _ _ hpath (isClean_encode h)

theorem pathState_clean {path : List Segment}
    (hpath : ∀ segment ∈ path, IsClean segment)
    {buffer : Segment} (hbuffer : ∀ b ∈ buffer, isSeparator b = false)
    (bytes : List UInt8) :
    ∀ s ∈ pathState path buffer bytes, IsClean s := by
  induction bytes generalizing path buffer with
  | nil => exact finish_clean hpath hbuffer
  | cons b bytes ih =>
      rw [pathState]
      split
      case isTrue =>
        apply ih (walk_clean hpath hbuffer)
        simp
      case isFalse hb =>
        apply ih hpath
        intro x hx
        obtain hx | hx := List.mem_append.mp hx
        · exact hbuffer x hx
        · rw [List.mem_singleton.mp hx]
          exact Bool.eq_false_of_not_eq_true hb

theorem pathState_ne_nil (path : List Segment) (buffer : Segment) (bytes : List UInt8) :
    pathState path buffer bytes ≠ [] := by
  induction bytes generalizing path buffer with
  | nil =>
      rw [pathState, finish]
      split
      · simp
      · split <;> simp
  | cons b bytes ih =>
      rw [pathState]
      split
      · apply ih
      · apply ih

theorem parsePath_clean (bytes : List UInt8) : ∀ s ∈ parsePath bytes, IsClean s := by
  cases bytes with
  | nil => exact pathState_clean (by simp) (by simp) _
  | cons b bytes =>
      rw [parsePath]
      split
      · exact pathState_clean (by simp) (by simp) _
      · exact pathState_clean (by simp) (by simp) _

theorem parsePath_ne_nil (bytes : List UInt8) : parsePath bytes ≠ [] := by
  cases bytes with
  | nil => exact pathState_ne_nil _ _ _
  | cons b bytes =>
      rw [parsePath]
      split
      · exact pathState_ne_nil _ _ _
      · exact pathState_ne_nil _ _ _

/-! ## Every spelling of a dot segment decodes to the dots -/

theorem toLower_eq_iff {c : UInt8} (hc : c < 97 ∨ 122 < c) (hc' : c < 65 ∨ 90 < c)
    (b : UInt8) : toLower b = c ↔ b = c := by
  unfold toLower
  grind

theorem toLower_eq_e (b : UInt8) : toLower b = 101 ↔ b = 69 ∨ b = 101 := by
  unfold toLower
  grind

theorem decode_of_isSingleDot {segment : Segment} (h : isSingleDot segment = true) :
    decode segment = [46] := by
  simp only [isSingleDot, Bool.or_eq_true, beq_iff_eq, List.map_eq_cons_iff,
    List.map_eq_nil_iff, toLower_eq_e, toLower_eq_iff (c := 46) (by decide) (by decide),
    toLower_eq_iff (c := 50) (by decide) (by decide),
    toLower_eq_iff (c := percent) (by decide) (by decide)] at h
  obtain ⟨_, _, rfl, rfl, rfl⟩ |
    ⟨_, _, rfl, rfl, _, _, rfl, rfl, _, _, rfl, rfl | rfl, rfl⟩ := h
  all_goals decide

theorem decode_of_isDoubleDot {segment : Segment} (h : isDoubleDot segment = true) :
    decode segment = [46, 46] := by
  simp only [isDoubleDot, Bool.or_eq_true, beq_iff_eq, List.map_eq_cons_iff,
    List.map_eq_nil_iff, toLower_eq_e, toLower_eq_iff (c := 46) (by decide) (by decide),
    toLower_eq_iff (c := 50) (by decide) (by decide),
    toLower_eq_iff (c := percent) (by decide) (by decide)] at h
  obtain ((⟨_, _, rfl, rfl, _, _, rfl, rfl, rfl⟩ |
      ⟨_, _, rfl, rfl, _, _, rfl, rfl, _, _, rfl, rfl, _, _, rfl, rfl | rfl, rfl⟩) |
      ⟨_, _, rfl, rfl, _, _, rfl, rfl, _, _, rfl, rfl | rfl, _, _, rfl, rfl, rfl⟩) |
    ⟨_, _, rfl, rfl, _, _, rfl, rfl, _, _, rfl, rfl | rfl,
      _, _, rfl, rfl, _, _, rfl, rfl, _, _, rfl, rfl | rfl, rfl⟩ := h
  all_goals decide

theorem cut_of_not_mem {sep : UInt8} {bytes : List UInt8} (h : sep ∉ bytes) :
    cut sep bytes = (bytes, none) := by
  rw [cut, splitOnce_eq_none.mpr h]

theorem dropWhile_of_head {p : UInt8 → Bool} {bytes : List UInt8}
    (h : ∀ b ∈ bytes.head?, p b = false) : bytes.dropWhile p = bytes := by
  cases bytes with
  | nil => rfl
  | cons b bytes => simp [h b rfl]

theorem clean_eq_self {bytes : List UInt8}
    (hhead : ∀ b ∈ bytes.head?, isControlOrSpace b = false)
    (hlast : ∀ b ∈ bytes.getLast?, isControlOrSpace b = false)
    (hplain : ∀ b ∈ bytes, isTabOrNewline b = false) : clean bytes = bytes := by
  have hback : ∀ b ∈ bytes.reverse.head?, isControlOrSpace b = false := by
    simpa using hlast
  rw [clean, dropWhile_of_head hhead, dropWhile_of_head hback, List.reverse_reverse,
    List.filter_eq_self]
  intro b hb
  simp [hplain b hb]

/-- An `http` or `https` address that paths can be appended to: scheme, host and
port, and a path prefix that ends in no slash. -/
structure BaseUrl where
  secure : Bool
  authority : List UInt8
  pathPrefix : List UInt8
  authority_ne : authority ≠ []
  authority_plain : ∀ b ∈ authority, 32 < b ∧ endsAuthority b = false
  prefix_rooted : ∀ b ∈ pathPrefix.head?, b = slash
  prefix_open : ∀ b ∈ pathPrefix.getLast?, b ≠ slash
  prefix_plain : ∀ b ∈ pathPrefix, isTabOrNewline b = false ∧ b ≠ question ∧
    b ≠ hashSign

namespace BaseUrl

variable (base : BaseUrl)

def scheme : List UInt8 := if base.secure then https else http

def text : List UInt8 :=
  base.scheme ++ colon :: slash :: slash :: (base.authority ++ base.pathPrefix)

/-- The segments of the base path. -/
def path : List Segment := directory base.pathPrefix

theorem scheme_cases : base.scheme = http ∨ base.scheme = https := by
  unfold scheme
  split
  · exact Or.inr rfl
  · exact Or.inl rfl

theorem clean_text {rest : List UInt8} (hrest : ∀ b ∈ rest, 32 < b) :
    clean (base.text ++ slash :: rest) = base.text ++ slash :: rest := by
  have hscheme : ∀ b ∈ base.scheme, isTabOrNewline b = false := by
    obtain h | h := base.scheme_cases <;> rw [h] <;> decide +kernel
  have hvisible : ∀ b : UInt8, 32 < b → isTabOrNewline b = false := by
    intro b hb
    unfold isTabOrNewline
    grind
  apply clean_eq_self
  · have hhead : (base.text ++ slash :: rest).head? = some 104 := by
      unfold text
      obtain h | h := base.scheme_cases <;> rw [h] <;> rfl
    rw [hhead]
    intro b hb
    obtain rfl := Option.some.inj hb
    rfl
  · intro b hb
    have hmem : b ∈ slash :: rest := by
      apply List.mem_of_getLast? (l := slash :: rest)
      simpa [List.getLast?_append] using hb
    have hb' : 32 < b := by
      obtain rfl | hb := List.mem_cons.mp hmem
      · decide
      · exact hrest b hb
    simpa [isControlOrSpace] using hb'
  · intro b hb
    simp only [text, List.mem_append, List.mem_cons] at hb
    obtain (hb | rfl | rfl | rfl | hb | hb) | rfl | hb := hb
    · exact hscheme b hb
    · rfl
    · rfl
    · rfl
    · exact hvisible b (base.authority_plain b hb).1
    · exact (base.prefix_plain b hb).1
    · rfl
    · exact hvisible b (hrest b hb)

/-- What follows the authority begins with a slash. -/
theorem tail_rooted (rest : List UInt8) :
    ∃ tail, base.pathPrefix ++ slash :: rest = slash :: tail := by
  cases hmount : base.pathPrefix with
  | nil => exact ⟨rest, rfl⟩
  | cons b bytes =>
      obtain rfl : b = slash := base.prefix_rooted b (by rw [hmount]; rfl)
      exact ⟨bytes ++ slash :: rest, rfl⟩

theorem splitOnce_text (rest : List UInt8) :
    splitOnce colon (base.text ++ rest) =
      some (base.scheme,
        slash :: slash :: (base.authority ++ (base.pathPrefix ++ rest))) := by
  have hcolon : colon ∉ base.scheme := by
    obtain h | h := base.scheme_cases <;> rw [h] <;> decide
  have htext : base.text ++ rest = base.scheme ++
      colon :: slash :: slash :: (base.authority ++ (base.pathPrefix ++ rest)) := by
    simp [text]
  rw [htext]
  exact splitOnce_append hcolon _

theorem dropWhile_slashes (rest : List UInt8) :
    (slash :: slash :: (base.authority ++ rest)).dropWhile isSeparator =
      base.authority ++ rest := by
  have hfirst : ∀ b ∈ (base.authority ++ rest).head?, isSeparator b = false := by
    intro b hb
    have hmem : b ∈ base.authority := by
      apply List.mem_of_head?
      simpa [List.head?_append_of_ne_nil _ base.authority_ne] using hb
    have hends := (base.authority_plain b hmem).2
    simp only [endsAuthority, Bool.or_eq_false_iff] at hends
    exact hends.1.1
  simpa [isSeparator] using dropWhile_of_head hfirst

/-- Under a base address only the path state is left to do. -/
theorem parseUrl_text {rest : List UInt8}
    (hrest : ∀ b ∈ rest, 32 < b ∧ b ≠ question ∧ b ≠ hashSign) :
    parseUrl (base.text ++ slash :: rest) =
      some {
        scheme := base.scheme
        authority := base.authority
        path := pathState base.path [] rest
        query := none
        fragment := none } := by
  have hscheme : base.scheme.map toLower = base.scheme := by
    obtain h | h := base.scheme_cases <;> rw [h] <;> decide
  have hauthority : ∀ b ∈ base.authority, (!endsAuthority b) = true := by
    intro b hb
    rw [(base.authority_plain b hb).2]
    rfl
  have hfree : ∀ b ∈ base.pathPrefix ++ slash :: rest, b ≠ question ∧ b ≠ hashSign := by
    intro b hb
    obtain hb | hb := List.mem_append.mp hb
    · exact (base.prefix_plain b hb).2
    obtain rfl | hb := List.mem_cons.mp hb
    · decide
    · exact (hrest b hb).2
  have hhash : hashSign ∉ base.pathPrefix ++ slash :: rest := fun h => (hfree _ h).2 rfl
  have hquestion : question ∉ base.pathPrefix ++ slash :: rest :=
    fun h => (hfree _ h).1 rfl
  have hpath : parsePath (base.pathPrefix ++ slash :: rest) =
      pathState base.path [] rest :=
    parsePath_append_slash _ _
  obtain ⟨tail, htail⟩ := base.tail_rooted rest
  have htake : (base.authority ++ (base.pathPrefix ++ slash :: rest)).takeWhile
      (fun b => !endsAuthority b) = base.authority := by
    rw [List.takeWhile_append_of_pos hauthority, htail]
    simp [endsAuthority, isSeparator]
  have hdrop : (base.authority ++ (base.pathPrefix ++ slash :: rest)).dropWhile
      (fun b => !endsAuthority b) = base.pathPrefix ++ slash :: rest := by
    rw [List.dropWhile_append_of_pos hauthority, htail]
    simp [endsAuthority, isSeparator]
  rw [parseUrl, base.clean_text fun b hb => (hrest b hb).1, splitOnce_text]
  simp only [Option.bind_eq_bind, Option.bind_some, dropWhile_slashes, hscheme,
    if_pos base.scheme_cases, parseAuthority, htake, hdrop, if_neg base.authority_ne,
    cut_of_not_mem hhash, cut_of_not_mem hquestion, hpath, Option.map_none]

end BaseUrl

end Yunpan.Address
