import Yunpan.Core.Address

/-!
# A segment appended to any text

A program that makes an address by gluing text does not check that the text is an
address without query and fragment.  The first segment of what the parser finds
is the appended one only if the text's own path is empty.
-/

namespace Yunpan.Address

open Yunpan.Percent Yunpan.Separator

/-- Bytes that leave the parts of an address where they are. -/
def IsTail (tail : List UInt8) : Prop :=
  ∀ b ∈ tail, 32 < b ∧ b ≠ colon ∧ b ≠ question ∧ b ≠ hashSign

theorem IsTail.cons_slash {tail : List UInt8} (h : IsTail tail) :
    IsTail (slash :: tail) :=
  List.forall_mem_cons.mpr ⟨by decide, h⟩

theorem isTail_nil : IsTail [] := by
  intro b hb
  cases hb

theorem not_mem_of_isTail {tail : List UInt8} (h : IsTail tail) :
    colon ∉ tail ∧ question ∉ tail ∧ hashSign ∉ tail :=
  ⟨fun hmem => (h _ hmem).2.1 rfl, fun hmem => (h _ hmem).2.2.1 rfl,
    fun hmem => (h _ hmem).2.2.2 rfl⟩

/-- What cleaning leaves of a text that something visible follows. -/
def lead (text : List UInt8) : List UInt8 :=
  (text.dropWhile isControlOrSpace).filter fun b => !isTabOrNewline b

theorem clean_append_slash (text : List UInt8) {tail : List UInt8} (h : IsTail tail) :
    clean (text ++ slash :: tail) = lead text ++ slash :: tail := by
  have hfront : (text ++ slash :: tail).dropWhile isControlOrSpace =
      text.dropWhile isControlOrSpace ++ slash :: tail := by
    have hslash : (slash :: tail).dropWhile isControlOrSpace = slash :: tail :=
      dropWhile_of_head (by rintro b ⟨⟩; rfl)
    rw [List.dropWhile_append, hslash]
    split
    case isTrue hempty => simp [List.isEmpty_iff.mp hempty]
    case isFalse => rfl
  have hback : ∀ b ∈ (text.dropWhile isControlOrSpace ++ slash :: tail).reverse.head?,
      isControlOrSpace b = false := by
    intro b hb
    rw [List.head?_reverse,
      List.getLast?_append_of_ne_nil _ (List.cons_ne_nil _ _)] at hb
    have hmem : b ∈ slash :: tail := List.mem_of_getLast? hb
    have hvisible := (h.cons_slash b hmem).1
    simpa [isControlOrSpace] using hvisible
  have hkept : (slash :: tail).filter (fun b => !isTabOrNewline b) = slash :: tail := by
    rw [List.filter_eq_self]
    intro b hb
    have hvisible := (h.cons_slash b hb).1
    have hall : ∀ b : UInt8, 32 < b → (!isTabOrNewline b) = true := by
      apply forall_byte
      decide +kernel
    exact hall b hvisible
  rw [clean, hfront, dropWhile_of_head hback, List.reverse_reverse,
    List.filter_append, hkept]
  rfl

/-- The scheme and what follows it do not depend on the tail. -/
theorem parseUrl_append_slash (text : List UInt8) {tail : List UInt8}
    (h : IsTail tail) :
    parseUrl (text ++ slash :: tail) =
      (splitOnce colon (lead text)).bind fun (scheme, rest) =>
        if scheme.map toLower = http ∨ scheme.map toLower = https then
          parseAuthority (scheme.map toLower)
            ((rest ++ slash :: tail).dropWhile isSeparator)
        else none := by
  have hcolon := (not_mem_of_isTail h.cons_slash).1
  rw [parseUrl, clean_append_slash text h, splitOnce_append_free hcolon]
  cases splitOnce colon (lead text) with
  | none => rfl
  | some parts => rfl

theorem cut_append_free {sep : UInt8} {tail : List UInt8} (hfree : sep ∉ tail)
    (bytes : List UInt8) :
    cut sep (bytes ++ tail) =
      match splitOnce sep bytes with
      | some (before, after) => (before, some (after ++ tail))
      | none => (bytes ++ tail, none) := by
  rw [cut, splitOnce_append_free hfree]
  cases splitOnce sep bytes <;> rfl

/-- The authority is what stands before the first delimiter. -/
theorem takeWhile_append_slash (rest tail : List UInt8) :
    (rest ++ slash :: tail).takeWhile (fun b => !endsAuthority b) =
      rest.takeWhile fun b => !endsAuthority b := by
  rw [List.takeWhile_append]
  split
  case isTrue hall =>
    have hwhole : rest.takeWhile (fun b => !endsAuthority b) = rest :=
      (List.takeWhile_prefix _).eq_of_length hall
    rw [hwhole]
    simp [endsAuthority, isSeparator]
  case isFalse => rfl

theorem dropWhile_append_slash (rest tail : List UInt8) :
    (rest ++ slash :: tail).dropWhile (fun b => !endsAuthority b) =
      rest.dropWhile (fun b => !endsAuthority b) ++ slash :: tail := by
  rw [List.dropWhile_append]
  split
  case isTrue hempty =>
    rw [List.isEmpty_iff.mp hempty]
    simp [endsAuthority, isSeparator]
  case isFalse => rfl

/-! ## The first segment -/

/-- The address, closed by a slash, has no path yet, or one that begins with the
segment. -/
def BeginsWith (url : Url) (segment : Segment) : Prop :=
  url.path.head? = some segment ∨
    (url.path = [[]] ∧ url.query = none ∧ url.fragment = none)

/-- A segment that the parser appends as it is. -/
structure IsAppended (segment : Segment) : Prop where
  nonempty : segment ≠ []
  tail : IsTail segment
  no_separator : ∀ b ∈ segment, isSeparator b = false
  walked : ∀ path, walk path segment = path ++ [segment]

variable {segment : Segment}

theorem IsAppended.isTail (h : IsAppended segment) : IsTail (segment ++ [slash]) := by
  intro b hb
  obtain hb | hb := List.mem_append.mp hb
  · exact h.tail b hb
  · rw [List.mem_singleton.mp hb]
    decide

theorem IsAppended.pathState_eq (h : IsAppended segment) (path : List Segment) :
    pathState path [] (segment ++ [slash]) = path ++ [segment, []] := by
  calc pathState path [] (segment ++ [slash])
      = pathState path segment [slash] :=
          pathState_segment h.no_separator path [] [slash]
    _ = finish (walk path segment) [] := rfl
    _ = path ++ [segment, []] := by
        rw [h.walked, finish_plain isPlain_nil]
        simp [encode]

/-- Behind an authority the first segment is the appended one exactly if the path
before it is empty or begins with it. -/
theorem parseAuthority_append (h : IsAppended segment) (scheme rest : List UInt8) :
    (∃ url, parseAuthority scheme (rest ++ slash :: (segment ++ [slash])) = some url ∧
      url.path.head? = some segment) ↔
    ∃ url, parseAuthority scheme (rest ++ [slash]) = some url ∧
      BeginsWith url segment := by
  have hlong := not_mem_of_isTail h.isTail.cons_slash
  have hshort := not_mem_of_isTail isTail_nil.cons_slash
  simp only [parseAuthority, takeWhile_append_slash, dropWhile_append_slash]
  generalize rest.takeWhile (fun b => !endsAuthority b) = authority
  generalize rest.dropWhile (fun b => !endsAuthority b) = after
  by_cases hauthority : authority = []
  · simp [hauthority]
  simp only [if_neg hauthority, cut_append_free hlong.2.2, cut_append_free hshort.2.2]
  cases splitOnce hashSign after with
  | some parts => simp [BeginsWith]
  | none =>
      simp only [cut_append_free hlong.2.1, cut_append_free hshort.2.1]
      cases splitOnce question after with
      | some parts => simp [BeginsWith]
      | none =>
          have hclosed : parsePath (after ++ [slash]) = directory after ++ [[]] := by
            rw [parsePath_append_slash, pathState, finish_plain isPlain_nil]
            rfl
          simp only [parsePath_append_slash, h.pathState_eq, Option.map_none,
            Option.some.injEq, exists_eq_left', BeginsWith, and_true]
          rw [← parsePath_append_slash, hclosed]
          cases directory after with
          | nil => simp
          | cons first path => simp

/-- Where a host is missing the segment is taken for the host. -/
theorem parseAuthority_segment (h : IsAppended segment) (scheme : List UInt8)
    {url : Url}
    (hurl : parseAuthority scheme (segment ++ [slash]) = some url) :
    url.path.head? ≠ some segment := by
  have hhost : ∀ b ∈ segment, (!endsAuthority b) = true := by
    intro b hb
    obtain ⟨-, -, hquestion, hhash⟩ := h.tail b hb
    simp [endsAuthority, h.no_separator b hb, hquestion, hhash]
  have htake :
      (segment ++ [slash]).takeWhile (fun b => !endsAuthority b) = segment := by
    rw [List.takeWhile_append_of_pos hhost]
    simp [endsAuthority, isSeparator]
  have hdrop :
      (segment ++ [slash]).dropWhile (fun b => !endsAuthority b) = [slash] := by
    rw [List.dropWhile_append_of_pos hhost]
    simp [endsAuthority, isSeparator]
  have hslash := not_mem_of_isTail isTail_nil.cons_slash
  have hpath : parsePath [slash] = [[]] := by decide +kernel
  simp only [parseAuthority, htake, hdrop, if_neg h.nonempty, cut_of_not_mem hslash.2.1,
    cut_of_not_mem hslash.2.2, hpath] at hurl
  obtain rfl := Option.some.inj hurl
  intro hhead
  exact h.nonempty (Option.some.inj hhead).symm

/-- Whatever the text, the appended segment comes first exactly if the text, closed
by a slash, is an address whose path is empty or begins with it. -/
theorem parseUrl_append (h : IsAppended segment) (text : List UInt8) :
    (∃ url, parseUrl (text ++ slash :: (segment ++ [slash])) = some url ∧
      url.path.head? = some segment) ↔
    ∃ url, parseUrl (text ++ [slash]) = some url ∧ BeginsWith url segment := by
  rw [parseUrl_append_slash text h.isTail, parseUrl_append_slash text isTail_nil]
  cases splitOnce colon (lead text) with
  | none => simp
  | some parts =>
      obtain ⟨scheme, rest⟩ := parts
      simp only [Option.bind_some]
      by_cases hscheme : scheme.map toLower = http ∨ scheme.map toLower = https
      · simp only [if_pos hscheme]
        by_cases hslashes : rest.dropWhile isSeparator = []
        · have hfirst : ∀ b ∈ (segment ++ [slash]).head?, isSeparator b = false := by
            intro b hb
            rw [List.head?_append_of_ne_nil _ h.nonempty] at hb
            exact h.no_separator b (List.mem_of_head? hb)
          have hlong : (rest ++ slash :: (segment ++ [slash])).dropWhile isSeparator =
              segment ++ [slash] := by
            rw [List.dropWhile_append, hslashes, if_pos List.isEmpty_nil,
              List.dropWhile_cons_of_pos (by decide), dropWhile_of_head hfirst]
          have hshort : (rest ++ [slash]).dropWhile isSeparator = [] := by
            rw [List.dropWhile_append, hslashes]
            rfl
          rw [hlong, hshort]
          constructor
          · rintro ⟨url, hurl, hhead⟩
            exact absurd hhead (parseAuthority_segment h _ hurl)
          · rintro ⟨url, hurl, -⟩
            cases hurl
        · have hkeep (tail : List UInt8) :
              (rest ++ slash :: tail).dropWhile isSeparator =
              rest.dropWhile isSeparator ++ slash :: tail := by
            rw [List.dropWhile_append, if_neg (by simpa using hslashes)]
          rw [hkeep, hkeep]
          exact parseAuthority_append h _ _
      · simp [hscheme]

end Yunpan.Address
