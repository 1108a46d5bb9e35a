import Mathlib.Data.List.Infix
import Yunpan.Core.Template

/-!
# XML documents

A document is cut into markup and the character data between it, and the tags build a tree.
References in character data stand for the characters that they name.  Names are in ASCII,
attributes are kept as they are written, a document type declaration has no internal subset,
and where declarations stand is not checked.
-/

namespace Yunpan.Xml

open Yunpan.Template (hexNumber normalizeNewlines normalizeNewlines_of_not_mem)

abbrev apostrophe : Char := Char.ofNat 39

/-- The characters that XML 1.0 allows. -/
def IsXmlChar (c : Char) : Prop :=
  c = '\t' ∨ c = '\n' ∨ c = '\r' ∨ (0x20 ≤ c.toNat ∧ c.toNat ≤ 0xD7FF) ∨
    (0xE000 ≤ c.toNat ∧ c.toNat ≤ 0xFFFD) ∨ (0x10000 ≤ c.toNat ∧ c.toNat ≤ 0x10FFFF)

instance (c : Char) : Decidable (IsXmlChar c) := inferInstanceAs (Decidable (_ ∨ _))

/-! ## References -/

/-- The entities that every document may refer to. -/
def predefined : List (List Char × Char) :=
  [("amp".toList, '&'), ("lt".toList, '<'), ("gt".toList, '>'), ("quot".toList, '"'),
    ("apos".toList, apostrophe)]

/-- The number that decimal digits spell. -/
def decimalNumber (digits : List Char) : Option ℕ :=
  digits.foldl (fun value c => do
    if c.isDigit then some (10 * (← value) + (c.toNat - 48)) else none) (some 0)

def charOf (codePoint : ℕ) : Option Char :=
  if codePoint.isValidChar ∧ IsXmlChar (Char.ofNat codePoint) then
    some (Char.ofNat codePoint)
  else none

/-- The character that a reference stands for, by what is between `&` and `;`. -/
def reference : List Char → Option Char
  | '#' :: 'x' :: digit :: digits => (hexNumber (digit :: digits)).bind charOf
  | '#' :: digit :: digits => (decimalNumber (digit :: digits)).bind charOf
  | name => predefined.lookup name

/-- Decode character data; the first argument is the part of an open reference that has
been read. -/
def decodeFrom : Option (List Char) → List Char → Option (List Char)
  | none, [] => some []
  | some _, [] => none
  | none, c :: rest =>
      if c = '&' then decodeFrom (some []) rest
      else if c = '<' then none
      else (decodeFrom none rest).map (c :: ·)
  | some name, c :: rest =>
      if c = ';' then do some ((← reference name) :: (← decodeFrom none rest))
      else decodeFrom (some (name ++ [c])) rest

def decode (text : List Char) : Option (List Char) := decodeFrom none text

/-- What character data stands for. -/
def characterData (text : List Char) : Option (List Char) :=
  if [']', ']', '>'] <:+: text then none else decode text

theorem decode_cons {c : Char} (hamp : c ≠ '&') (hopen : c ≠ '<') (rest : List Char) :
    decode (c :: rest) = (decode rest).map (c :: ·) := by
  rw [decode, decodeFrom, if_neg hamp, if_neg hopen]
  rfl

theorem decodeFrom_name {name : List Char} (hname : ';' ∉ name)
    (read rest : List Char) :
    decodeFrom (some read) (name ++ ';' :: rest) =
      (reference (read ++ name)).bind fun c => (decode rest).map (c :: ·) := by
  induction name generalizing read with
  | nil =>
      rw [List.nil_append, decodeFrom, if_pos rfl, List.append_nil]
      cases reference read <;> cases hrest : decode rest <;> simp_all [decode]
  | cons d name ih =>
      rw [List.mem_cons, not_or] at hname
      rw [List.cons_append, decodeFrom, if_neg (Ne.symm hname.1), ih hname.2,
        List.append_assoc]
      rfl

/-- A reference is read as the character that it names. -/
theorem decode_reference {name : List Char} {c : Char} (hname : ';' ∉ name)
    (href : reference name = some c) (rest : List Char) :
    decode ('&' :: (name ++ ';' :: rest)) = (decode rest).map (c :: ·) := by
  rw [decode, decodeFrom, if_pos rfl, decodeFrom_name hname, List.nil_append, href]
  rfl

/-! ## Markup and text -/

/-- Where a document is being read: in character data or in markup, with what has been read
of it, the last character first, and in markup the quote that is open. -/
inductive Mode where
  | text (read : List Char)
  | markup (quote : Option Char) (read : List Char)
  deriving DecidableEq

/-- The pieces of a document: markup without its angle brackets, and the character data
between two pieces of markup, if only the empty one. -/
inductive Token where
  | text (raw : List Char)
  | markup (raw : List Char)
  deriving DecidableEq

/-- The markup that does not end at the first `>` outside quotes: what it begins with, and
what stands before the `>` that ends it. -/
def delimiters : List (List Char × List Char) :=
  [(['?'], ['?']), (['!', '-', '-'], ['-', '-']),
    (['!', '[', 'C', 'D', 'A', 'T', 'A', '['], [']', ']'])]

def Mode.step : Mode → Char → Mode × List Token
  | .text read, c =>
      if c = '<' then (.markup none [], [.text read.reverse]) else (.text (c :: read), [])
  | .markup quote read, c =>
      match delimiters.find? fun pair => decide (pair.1 <+: read.reverse), quote with
      | some (front, back), _ =>
          if c = '>' ∧ back <:+ read.reverse.drop front.length then
            (.text [], [.markup read.reverse])
          else (.markup none (c :: read), [])
      | none, some mark => (.markup (if c = mark then none else some mark) (c :: read), [])
      | none, none =>
          if c = '>' then (.text [], [.markup read.reverse])
          else (.markup (if c = '"' ∨ c = apostrophe then some c else none) (c :: read), [])

/-- Where reading ends, and the pieces that were completed. -/
def scan (mode : Mode) : List Char → Mode × List Token
  | [] => (mode, [])
  | c :: rest =>
      let here := mode.step c
      let later := scan here.1 rest
      (later.1, here.2 ++ later.2)

theorem scan_append (mode : Mode) (front rest : List Char) :
    scan mode (front ++ rest) =
      ((scan (scan mode front).1 rest).1,
        (scan mode front).2 ++ (scan (scan mode front).1 rest).2) := by
  induction front generalizing mode with
  | nil => rfl
  | cons c front ih =>
      rw [List.cons_append, scan, ih]
      simp only [scan, List.append_assoc]

/-- Character data without `<` is read as one piece. -/
theorem scan_text {chars : List Char} (hopen : '<' ∉ chars) (read : List Char) :
    scan (.text read) chars = (.text (chars.reverse ++ read), []) := by
  induction chars generalizing read with
  | nil => simp [scan]
  | cons c chars ih =>
      rw [List.mem_cons, not_or] at hopen
      rw [scan, Mode.step, if_neg (Ne.symm hopen.1), ih hopen.2]
      simp

/-- Character data without `<` between two pieces of markup changes neither. -/
theorem scan_between {mode last : Mode} {head hole tail : List Char}
    {front back : List Token} (hhead : scan mode head = (.text [], front))
    (htail : scan (.markup none []) tail = (last, back)) (hopen : '<' ∉ hole) :
    scan mode (head ++ (hole ++ '<' :: tail)) = (last, front ++ .text hole :: back) := by
  have hmarkup : scan (.text hole.reverse) ('<' :: tail) = (last, .text hole :: back) := by
    rw [scan, Mode.step, if_pos rfl, htail, List.reverse_reverse]
    rfl
  rw [scan_append, hhead, scan_append, scan_text hopen, List.append_nil, hmarkup]
  rfl

/-! ## The tree -/

inductive Node where
  | text (value : List Char)
  | element (name attributes : List Char) (children : List Node)

mutual

def Node.decEq : (left right : Node) → Decidable (left = right)
  | .text value, .text value' => decidable_of_iff (value = value') (by simp)
  | .element name attributes children, .element name' attributes' children' =>
      have := Node.decEqs children children'
      decidable_of_iff (name = name' ∧ attributes = attributes' ∧ children = children')
        (by simp)
  | .text _, .element .. => isFalse nofun
  | .element .., .text _ => isFalse nofun

def Node.decEqs : (left right : List Node) → Decidable (left = right)
  | [], [] => isTrue rfl
  | left :: lefts, right :: rights =>
      have := Node.decEq left right
      have := Node.decEqs lefts rights
      decidable_of_iff (left = right ∧ lefts = rights) (by simp)
  | [], _ :: _ => isFalse nofun
  | _ :: _, [] => isFalse nofun

end

instance : DecidableEq Node := Node.decEq

/-- An element that is open, with the children read so far, the last one first. -/
structure Frame where
  name : List Char
  attributes : List Char
  children : List Node
  deriving DecidableEq

/-- The elements that are open, from the inside out; the outermost one stands for the
document itself. -/
structure Stack where
  current : Frame
  outer : List Frame
  deriving DecidableEq

def Stack.start : Stack := ⟨⟨[], [], []⟩, []⟩

def Stack.add (stack : Stack) (node : Node) : Stack :=
  { stack with current.children := node :: stack.current.children }

def Stack.begin (stack : Stack) (name attributes : List Char) : Stack :=
  ⟨⟨name, attributes, []⟩, stack.current :: stack.outer⟩

def Stack.finish (stack : Stack) (name : List Char) : Option Stack :=
  match stack.outer with
  | [] => none
  | parent :: outer =>
      if name = stack.current.name then
        let element := Node.element name stack.current.attributes
          stack.current.children.reverse
        some (Stack.add ⟨parent, outer⟩ element)
      else none

def isBlank (c : Char) : Bool := c = ' ' || c = '\t' || c = '\n' || c = '\r'

def isNameStart (c : Char) : Bool := c.isAlpha || c = '_' || c = ':'

def isNameChar (c : Char) : Bool := isNameStart c || c.isDigit || c = '-' || c = '.'

/-- The name of a tag and what follows it. -/
def tag (raw : List Char) : Option (List Char × List Char) :=
  let name := raw.takeWhile isNameChar
  let attributes := raw.dropWhile isNameChar
  if name.head?.any isNameStart ∧ attributes.head?.all isBlank ∧ '<' ∉ raw then
    some (name, attributes)
  else none

def Stack.markup (stack : Stack) : List Char → Option Stack
  | '/' :: rest => do
      let (name, blank) ← tag rest
      if blank.all isBlank then stack.finish name else none
  | '?' :: _ => some stack
  | '!' :: rest =>
      if "--".toList <+: rest then some stack
      else if "[CDATA[".toList <+: rest then
        some (stack.add (.text (rest.drop 7).dropLast.dropLast))
      else if "DOCTYPE".toList <+: rest ∧ '[' ∉ rest then some stack
      else none
  | raw =>
      if raw.getLast? = some '/' then
        (tag raw.dropLast).map fun (name, attributes) =>
          stack.add (.element name attributes [])
      else (tag raw).map fun (name, attributes) => stack.begin name attributes

def Stack.token (stack : Stack) : Token → Option Stack
  | .text raw => (characterData raw).map fun value => stack.add (.text value)
  | .markup raw => stack.markup raw

/-- Put pieces of a document into its tree. -/
def Stack.extend (stack : Stack) (tokens : List Token) : Option Stack :=
  tokens.foldlM Stack.token stack

def Node.isBlank : Node → Bool
  | .text value => value.all Xml.isBlank
  | .element .. => false

/-- The one element of a document, all of whose elements are closed. -/
def Stack.root (stack : Stack) : Option Node :=
  match stack.outer, stack.current.children.filter (!·.isBlank) with
  | [], [.element name attributes children] => some (.element name attributes children)
  | _, _ => none

def document (text : List Char) : Option Node :=
  if text.all (fun c => decide (IsXmlChar c)) then
    match scan (.text []) (normalizeNewlines text) with
    | (.text last, tokens) =>
        (Stack.start.extend (tokens ++ [.text last.reverse])).bind Stack.root
    | (.markup .., _) => none
  else none

theorem Stack.extend_append (stack : Stack) (front back : List Token) :
    stack.extend (front ++ back) = (stack.extend front).bind (·.extend back) :=
  List.foldlM_append

/-- Character data without `<` in a document becomes one text node, between what the two
sides of it build for whatever text. -/
theorem document_between {head hole tail last value : List Char} {front back : List Token}
    {stack : Stack} (hhead : scan (.text []) head = (.text [], front))
    (htail : scan (.markup none []) tail = (.text last, back)) (hopen : '<' ∉ hole)
    (hvalue : characterData hole = some value) (hstack : Stack.start.extend front = some stack)
    (hchars : ∀ c ∈ head ++ (hole ++ '<' :: tail), IsXmlChar c)
    (hreturn : '\r' ∉ head ++ (hole ++ '<' :: tail)) :
    document (head ++ (hole ++ '<' :: tail)) =
      ((stack.add (.text value)).extend (back ++ [.text last.reverse])).bind
        Stack.root := by
  have hscan := scan_between hhead htail hopen
  have hhole (rest : List Token) : stack.extend (.text hole :: rest) =
      (stack.add (.text value)).extend rest := by
    simp [Stack.extend, Stack.token, hvalue]
  have hall : (head ++ (hole ++ '<' :: tail)).all (fun c => decide (IsXmlChar c)) = true :=
    List.all_eq_true.mpr fun c hc => decide_eq_true (hchars c hc)
  rw [document, if_pos hall, normalizeNewlines_of_not_mem hreturn, hscan]
  simp only [List.append_assoc, List.cons_append, Stack.extend_append, hstack,
    Option.bind_some, hhole]

end Yunpan.Xml
