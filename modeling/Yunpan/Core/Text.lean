import Yunpan.Core.Separator

/-!
# Text as the standard library treats it

The rule parsers work on text as a list of characters.  Trimming takes matching
characters off both ends; what counts as a blank is the Unicode property.
-/

namespace Yunpan

abbrev Text := List Char

namespace Text

/-- The Unicode property `White_Space`, which is what `char::is_whitespace` tests. -/
def isWhitespace (c : Char) : Bool :=
  let n := c.toNat
  (9 ≤ n && n ≤ 13) || n == 0x20 || n == 0x85 || n == 0xA0 || n == 0x1680 ||
    (0x2000 ≤ n && n ≤ 0x200A) || n == 0x2028 || n == 0x2029 || n == 0x202F ||
    n == 0x205F || n == 0x3000

def trimMatches (p : Char → Bool) (text : Text) : Text :=
  ((text.dropWhile p).reverse.dropWhile p).reverse

/-- `str::trim`. -/
def trim (text : String) : String :=
  String.ofList (trimMatches isWhitespace text.toList)

theorem trimMatches_eq_self {p : Char → Bool} {text : Text}
    (hhead : ∀ c ∈ text.head?, p c = false) (hlast : ∀ c ∈ text.getLast?, p c = false) :
    trimMatches p text = text := by
  have keep : ∀ chars : Text, (∀ c ∈ chars.head?, p c = false) →
      chars.dropWhile p = chars := by
    intro chars h
    cases chars with
    | nil => rfl
    | cons c chars => simp [h c rfl]
  have hback : ∀ c ∈ text.reverse.head?, p c = false := by simpa using hlast
  rw [trimMatches, keep text hhead, keep _ hback, List.reverse_reverse]

def dropPlus : Text → Text
  | '+' :: rest => rest
  | text => text

/-- `str::parse` for an unsigned integer below a bound. -/
def parseNat (bound : ℕ) (text : Text) : Option ℕ :=
  let digits := dropPlus text
  if digits = [] ∨ digits.all Char.isDigit = false then none
  else
    let n := Nat.ofDigitChars 10 digits 0
    if n < bound then some n else none

theorem parseNat_repr {bound n : ℕ} (h : n < bound) :
    parseNat bound n.repr.toList = some n := by
  have hdigits : ∀ c ∈ n.repr.toList, c.isDigit = true := fun c hc =>
    Separator.isDigit_of_mem_repr hc
  have hne : n.repr.toList ≠ [] := by
    rw [Nat.toList_repr]
    exact Nat.toDigits_ne_nil
  have hplain : dropPlus n.repr.toList = n.repr.toList := by
    unfold dropPlus
    split
    case h_1 rest heq => cases hdigits '+' (heq ▸ List.mem_cons_self)
    case h_2 => rfl
  have hvalue : Nat.ofDigitChars 10 n.repr.toList 0 = n := by
    rw [Nat.toList_repr, Nat.ofDigitChars_ten_toDigits]
  have hno : ¬(n.repr.toList = [] ∨ n.repr.toList.all Char.isDigit = false) :=
    not_or.mpr ⟨hne, by rw [List.all_eq_true.mpr hdigits]; decide⟩
  simp only [parseNat, hplain, if_neg hno, hvalue, if_pos h]

end Text

end Yunpan
