/-
Elise/Lib/Json.lean

JSON values after parsing: what a client sees of a body.

Objects are lists of members in iteration order.  Numbers keep the three
shapes a JSON library distinguishes: non-negative integers that fit 64 bits,
negative integers, and the rest, of which only the text is kept.
-/
import Elise.Lib.Text

/-- The shapes of a JSON number. -/
inductive JsonNumber where
  | posInt (n : UInt64)
  | negInt (n : Int)
  | float (text : String)
  deriving DecidableEq

inductive Json where
  | null
  | bool (b : Bool)
  | number (n : JsonNumber)
  | string (s : String)
  | array (elems : List Json)
  | object (members : List (String × Json))

namespace Json

/-- The members of an object. -/
def asObject : Json → Option (List (String × Json))
  | object members => some members
  | _ => none

/-- The elements of an array. -/
def asArray : Json → Option (List Json)
  | array elems => some elems
  | _ => none

/-- The characters of a string. -/
def asStr : Json → Option (List Char)
  | string s => some s.toList
  | _ => none

/-- The value of a non-negative integer. -/
def asU64 : Json → Option UInt64
  | number (.posInt n) => some n
  | _ => none

/-- The member under a key; `none` for anything but an object that has it. -/
def get (v : Json) (key : String) : Option Json :=
  v.asObject.bind fun members => members.lookup key

end Json
