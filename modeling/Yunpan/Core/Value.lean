import Mathlib.Data.List.Basic

/-!
# Loose JSON

`serde_json::Value`.  A float stands for its bits.
-/

namespace Yunpan

inductive Number where
  | natural (value : UInt64)
  | negative (value : Int64)
  | float (bits : UInt64)

inductive Value where
  | null
  | bool (value : Bool)
  | number (value : Number)
  | string (text : String)
  | array (items : List Value)
  | object (members : List (String × Value))

namespace Value

def get (value : Value) (key : String) : Option Value :=
  match value with
  | object members => (members.find? fun member => member.1 = key).map Prod.snd
  | _ => none

def asStr : Value → Option String
  | string text => some text
  | _ => none

def asU64 : Value → Option UInt64
  | number (.natural value) => some value
  | _ => none

def asBool : Value → Option Bool
  | bool value => some value
  | _ => none

end Value

end Yunpan
