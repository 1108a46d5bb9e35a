import Mathlib.Data.List.Basic

/-!
# Template literals

ECMAScript reads a template literal up to its closing backtick, or up to the first
substitution, whose expression it then evaluates.  Escape sequences stand for the units
that they name, and a carriage return counts as a line feed, alone or in front of one.
-/

namespace Yunpan.Template

abbrev backtick : Char := Char.ofNat 96

abbrev openBrace : Char := Char.ofNat 123

/-- The UTF-16 units of a code point. -/
def units (codePoint : ℕ) : List UInt16 :=
  if codePoint < 0x10000 then [UInt16.ofNat codePoint]
  else
    let offset := codePoint - 0x10000
    [UInt16.ofNat (0xD800 + offset / 0x400), UInt16.ofNat (0xDC00 + offset % 0x400)]

/-- A string of Unicode characters as a string of ECMAScript. -/
def utf16 (text : List Char) : List UInt16 := text.flatMap fun c => units c.toNat

/-! ## Escape sequences -/

def hexValue (c : Char) : Option ℕ :=
  if c.isDigit then some (c.toNat - 48)
  else if 97 ≤ c.toNat ∧ c.toNat ≤ 102 then some (c.toNat - 87)
  else if 65 ≤ c.toNat ∧ c.toNat ≤ 70 then some (c.toNat - 55)
  else none

/-- The number that hexadecimal digits spell. -/
def hexNumber (digits : List Char) : Option ℕ :=
  digits.foldl (fun value c => do some (16 * (← value) + (← hexValue c))) (some 0)

/-- The two digits behind `x`. -/
def hexEscape : List Char → Option (List UInt16 × List Char)
  | a :: b :: rest => (hexNumber [a, b]).map fun value => (units value, rest)
  | _ => none

/-- The digits of a code point between braces. -/
def codePointEscape (rest : List Char) : Option (List UInt16 × List Char) :=
  match rest.takeWhile fun c => (hexValue c).isSome,
      rest.dropWhile fun c => (hexValue c).isSome with
  | first :: digits, '\x7d' :: next =>
      match hexNumber (first :: digits) with
      | some value => if value ≤ 0x10FFFF then some (units value, next) else none
      | none => none
  | _, _ => none

def unicodeEscape : List Char → Option (List UInt16 × List Char)
  | c :: rest =>
      if c = openBrace then codePointEscape rest
      else
        match rest with
        | b :: d :: e :: next =>
            (hexNumber [c, b, d, e]).map fun value => (units value, next)
        | _ => none
  | [] => none

/-- The character that a single one stands for after a backslash. -/
def singleEscape (c : Char) : ℕ :=
  match c with
  | 'b' => 8
  | 't' => 9
  | 'n' => 10
  | 'v' => 11
  | 'f' => 12
  | 'r' => 13
  | c => c.toNat

/-- What follows a carriage return that takes a line feed with it. -/
def afterReturn (rest : List Char) : List Char :=
  if rest.head? = some '\n' then rest.tail else rest

/-- The text behind a backslash: the units of the escape sequence and what follows it.
A line break is dropped; `none` is a sequence that a template may not hold. -/
def escapeSequence : List Char → Option (List UInt16 × List Char)
  | [] => none
  | c :: rest =>
      if c = '\r' then some ([], afterReturn rest)
      else if c = '\n' ∨ c.toNat = 0x2028 ∨ c.toNat = 0x2029 then some ([], rest)
      else if c.isDigit then
        if c = '0' ∧ (rest.head?.any Char.isDigit) = false then some ([0], rest) else none
      else if c = 'x' then hexEscape rest
      else if c = 'u' then unicodeEscape rest
      else some (units (singleEscape c), rest)

theorem length_afterReturn (rest : List Char) :
    (afterReturn rest).length ≤ rest.length := by
  unfold afterReturn
  split <;> simp

theorem hexEscape_length {rest next : List Char} {value : List UInt16}
    (h : hexEscape rest = some (value, next)) : next.length ≤ rest.length := by
  unfold hexEscape at h
  split at h
  case h_1 a b tail =>
    obtain ⟨number, -, heq⟩ := Option.map_eq_some_iff.mp h
    cases heq
    simp only [List.length_cons]
    omega
  case h_2 => cases h

theorem codePointEscape_length {rest next : List Char} {value : List UInt16}
    (h : codePointEscape rest = some (value, next)) : next.length ≤ rest.length := by
  unfold codePointEscape at h
  split at h
  case h_1 first digits tail _ hdrop =>
    have hle : ('\x7d' :: tail).length ≤ rest.length := by
      rw [← hdrop]
      exact (List.dropWhile_suffix _).length_le
    split at h
    case h_1 =>
      split at h
      case isTrue =>
        cases h
        exact Nat.le_trans (Nat.le_succ _) hle
      case isFalse => cases h
    case h_2 => cases h
  case h_2 => cases h

theorem unicodeEscape_length {rest next : List Char} {value : List UInt16}
    (h : unicodeEscape rest = some (value, next)) : next.length ≤ rest.length := by
  unfold unicodeEscape at h
  split at h
  case h_1 c tail =>
    split at h
    case isTrue => exact Nat.le_trans (codePointEscape_length h) (Nat.le_succ _)
    case isFalse =>
      split at h
      case h_1 =>
        obtain ⟨number, -, heq⟩ := Option.map_eq_some_iff.mp h
        cases heq
        simp only [List.length_cons]
        omega
      case h_2 => cases h
  case h_2 => cases h

/-- An escape sequence takes something off the text. -/
theorem escapeSequence_length {text next : List Char} {value : List UInt16}
    (h : escapeSequence text = some (value, next)) : next.length < text.length := by
  cases text with
  | nil => cases h
  | cons c rest =>
      apply Nat.lt_succ_of_le
      rw [escapeSequence] at h
      split_ifs at h
      · cases h
        exact length_afterReturn rest
      · cases h
        exact Nat.le_refl _
      · cases h
        exact Nat.le_refl _
      · exact hexEscape_length h
      · exact unicodeEscape_length h
      · cases h
        exact Nat.le_refl _

/-! ## Evaluation -/

/-- How the text behind an opening backtick is read: up to a closing one, with the string
that it stands for and the text that follows; up to a substitution, with the text that is
then evaluated; or not at all. -/
inductive Outcome where
  | closed (value : List UInt16) (rest : List Char)
  | substitution (value : List UInt16) (code : List Char)
  | malformed
  deriving DecidableEq

/-- Put units in front of the string. -/
def Outcome.push (front : List UInt16) : Outcome → Outcome
  | .closed value rest => .closed (front ++ value) rest
  | .substitution value code => .substitution (front ++ value) code
  | .malformed => .malformed

theorem Outcome.push_push (front middle : List UInt16) (outcome : Outcome) :
    (outcome.push middle).push front = outcome.push (front ++ middle) := by
  cases outcome <;> simp [Outcome.push]

def template : List Char → Outcome
  | [] => .malformed
  | c :: rest =>
      if c = backtick then .closed [] rest
      else if c = '\\' then
        match h : escapeSequence rest with
        | some (value, next) =>
            have : next.length < rest.length := escapeSequence_length h
            (template next).push value
        | none => .malformed
      else if c = '$' ∧ rest.head? = some openBrace then .substitution [] rest.tail
      else if c = '\r' then
        have := length_afterReturn rest
        (template (afterReturn rest)).push [10]
      else (template rest).push (units c.toNat)
termination_by text => text.length

/-! ## One character after the other -/

variable {c : Char} {rest : List Char}

theorem template_backtick (rest : List Char) :
    template (backtick :: rest) = .closed [] rest := by
  rw [template, if_pos rfl]

/-- A backslash in front of a character that has no meaning there. -/
theorem template_escaped {value : List UInt16} {next : List Char}
    (h : escapeSequence rest = some (value, next)) :
    template ('\\' :: rest) = (template next).push value := by
  rw [template, if_neg (by decide), if_pos rfl]
  split
  case h_1 value' next' heq =>
    obtain ⟨rfl, rfl⟩ := Prod.mk.inj (Option.some.inj (heq.symm.trans h))
    rfl
  case h_2 hnone =>
    rw [h] at hnone
    cases hnone

theorem template_substitution (rest : List Char) :
    template ('$' :: openBrace :: rest) = .substitution [] rest := by
  rw [template, if_neg (by decide), if_neg (by decide), if_pos ⟨rfl, rfl⟩]
  rfl

theorem template_return (rest : List Char) :
    template ('\r' :: rest) = (template (afterReturn rest)).push [10] := by
  rw [template, if_neg (by decide), if_neg (by decide), if_neg (by simp), if_pos rfl]

/-- A character that stands for itself. -/
theorem template_cons (hbacktick : c ≠ backtick) (hslash : c ≠ '\\')
    (hreturn : c ≠ '\r')
    (hopens : ¬(c = '$' ∧ rest.head? = some openBrace)) :
    template (c :: rest) = (template rest).push (units c.toNat) := by
  rw [template, if_neg hbacktick, if_neg hslash, if_neg hopens, if_neg hreturn]

/-! ## Strings -/

/-- A text with every line break in the one form that a template keeps. -/
def normalizeNewlines : List Char → List Char
  | '\r' :: '\n' :: rest => '\n' :: normalizeNewlines rest
  | '\r' :: rest => '\n' :: normalizeNewlines rest
  | c :: rest => c :: normalizeNewlines rest
  | [] => []

theorem return_mem_units (c : Char) : 13 ∈ units c.toNat ↔ c = '\r' := by
  have hchar : c = '\r' ↔ c.toNat = 13 := Char.toNat_inj.symm
  rw [hchar, units]
  split
  case isTrue hsmall =>
    rw [List.mem_singleton, ← UInt16.toNat_inj, UInt16.toNat_ofNat_of_lt' hsmall]
    exact eq_comm
  case isFalse hlarge =>
    have hbound : c.toNat < 0x110000 := by
      obtain hlow | ⟨-, hhigh⟩ := c.valid
      · exact Nat.lt_trans hlow (by decide)
      · exact hhigh
    have hne : ∀ {n : ℕ}, 0xD800 ≤ n → n < 0x10000 →
        (13 : UInt16) ≠ UInt16.ofNat n := by
      intro n hlow hhigh heq
      have hnat := congrArg UInt16.toNat heq
      rw [UInt16.toNat_ofNat_of_lt' hhigh] at hnat
      rw [← hnat] at hlow
      exact absurd hlow (by decide)
    have hhigh := hne (n := 0xD800 + (c.toNat - 0x10000) / 0x400) (by omega) (by omega)
    have hlow := hne (n := 0xDC00 + (c.toNat - 0x10000) % 0x400) (by omega) (by omega)
    simp only [List.mem_cons, List.not_mem_nil, or_false, hhigh, hlow, false_iff]
    omega

theorem return_mem_utf16 (text : List Char) : 13 ∈ utf16 text ↔ '\r' ∈ text := by
  simp [utf16, return_mem_units]

theorem not_mem_normalizeNewlines (text : List Char) :
    '\r' ∉ normalizeNewlines text := by
  fun_induction normalizeNewlines text with
  | case1 rest ih => simpa using ih
  | case2 rest hnext ih => simpa using ih
  | case3 c rest _ hreturn ih =>
    rw [List.mem_cons, not_or]
    exact ⟨fun heq => hreturn heq.symm, ih⟩
  | case4 => simp

theorem normalizeNewlines_of_not_mem {text : List Char} (h : '\r' ∉ text) :
    normalizeNewlines text = text := by
  fun_induction normalizeNewlines text with
  | case1 rest ih => simp at h
  | case2 rest hnext ih => simp at h
  | case3 c rest _ hreturn ih => rw [ih fun hmem => h (List.mem_cons_of_mem _ hmem)]
  | case4 => rfl

end Yunpan.Template
