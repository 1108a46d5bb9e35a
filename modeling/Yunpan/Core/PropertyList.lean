import Yunpan.Core.Xml

/-!
# Property lists

A property list is an XML document of typed values.  Strings, booleans, arrays and
dictionaries are read; blanks between elements mean nothing.
-/

namespace Yunpan.PropertyList

open Yunpan.Xml

inductive Value where
  | string (characters : List Char)
  | boolean (value : Bool)
  | array (values : List Value)
  | dict (entries : List (List Char × Value))

/-- The characters of an element that holds nothing else. -/
def characters (children : List Node) : Option (List Char) :=
  children.foldlM (fun read node =>
    match node with
    | .text value => some (read ++ value)
    | .element .. => none) []

mutual

def value : Node → Option Value
  | .text _ => none
  | .element name _ children =>
      if name = "string".toList then (characters children).map .string
      else if name = "true".toList ∧ children.isEmpty then some (.boolean true)
      else if name = "false".toList ∧ children.isEmpty then some (.boolean false)
      else if name = "array".toList then (values children).map .array
      else if name = "dict".toList then (entries none children).map .dict
      else none

def values : List Node → Option (List Value)
  | [] => some []
  | .text text :: rest => if text.all isBlank then values rest else none
  | .element name attributes children :: rest => do
      some ((← value (.element name attributes children)) :: (← values rest))

/-- Keys and values in turn; the first argument is a key whose value is still to come. -/
def entries : Option (List Char) → List Node → Option (List (List Char × Value))
  | none, [] => some []
  | some _, [] => none
  | key, .text text :: rest => if text.all isBlank then entries key rest else none
  | none, .element name _ children :: rest =>
      if name = "key".toList then do entries (some (← characters children)) rest else none
  | some key, .element name attributes children :: rest => do
      some ((key, ← value (.element name attributes children)) :: (← entries none rest))

end

/-- The one value of a property list. -/
def root : Node → Option Value
  | .text _ => none
  | .element name _ children =>
      if name = "plist".toList then
        match values children with
        | some [value] => some value
        | _ => none
      else none

def read (text : List Char) : Option Value := (document text).bind root

def Value.lookup (key : List Char) : Value → Option Value
  | .dict entries => entries.lookup key
  | _ => none

/-- The strings of an array that holds nothing else. -/
def Value.strings : Value → Option (List (List Char))
  | .array values => values.mapM fun
      | .string characters => some characters
      | _ => none
  | _ => none

end Yunpan.PropertyList
