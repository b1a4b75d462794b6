import QuorumRounds.Binary64.Basic
import QuorumRounds.SortedMap.Basic

/-! # Attribute values

The attributes of a payload and the entries of the store are dynamically typed values.

* The reads `asBool?`, `asInt?`, …: a whole number is read as signed, unsigned or floating point
  wherever it fits; every other value is read as its own type only.
* `Value.same`: equality of contents, with floating-point numbers compared as numbers.
* `Value.Ordered`: every map in the value has its keys in order. `Value.ofMap` keeps it.
-/

namespace QuorumRounds
set_option autoImplicit false

/-- A whole number stays signed or unsigned as it was written. -/
inductive Value where
  | null
  | bool (b : Bool)
  | int (i : Int64)
  | uint (u : UInt64)
  | float (x : Binary64)
  | text (s : String)
  | bytes (data : List UInt8)
  | list (items : List Value)
  | map (entries : List (String × Value))
deriving Inhabited

namespace Value

/-- The entries of the map as a value. -/
def ofMap (m : SortedMap String Value) : Value := .map m.entries

def isNull : Value → Bool
  | .null => true
  | _ => false

/-- A truth value. -/
def asBool? : Value → Option Bool
  | .bool b => some b
  | _ => none

/-- A whole number, if it fits into a signed word. -/
def asInt? : Value → Option Int64
  | .int i => some i
  | .uint u => if 0 ≤ u.toInt64.toInt then some u.toInt64 else none
  | _ => none

/-- A whole number that is not negative. -/
def asUInt? : Value → Option UInt64
  | .uint u => some u
  | .int i => if 0 ≤ i.toInt then some i.toUInt64 else none
  | _ => none

/-- A number; a whole one is rounded to the nearest float. -/
def asFloat? : Value → Option Binary64
  | .float x => some x
  | .int i => some (Binary64.ofInt64 i)
  | .uint u => some (Binary64.ofUInt64 u)
  | _ => none

/-- A text. -/
def asText? : Value → Option String
  | .text s => some s
  | _ => none

/-- The items of a list. -/
def asList? : Value → Option (List Value)
  | .list items => some items
  | _ => none

/-- The entries of a map, the last one of each key. -/
def asMap? : Value → Option (SortedMap String Value)
  | .map entries => some (SortedMap.ofList entries)
  | _ => none

mutual

/-- Values of different types are never the same, not even the numbers among them. -/
def same : Value → Value → Bool
  | .null, .null => true
  | .bool a, .bool b => a == b
  | .int a, .int b => a == b
  | .uint a, .uint b => a == b
  | .float a, .float b => a.equals b
  | .text a, .text b => a == b
  | .bytes a, .bytes b => a == b
  | .list a, .list b => sameItems a b
  | .map a, .map b => sameEntries a b
  | _, _ => false

/-- Item by item, in order. -/
def sameItems : List Value → List Value → Bool
  | [], [] => true
  | a :: as, b :: bs => same a b && sameItems as bs
  | _, _ => false

/-- Entry by entry, in order, with equal keys. -/
def sameEntries : List (String × Value) → List (String × Value) → Bool
  | [], [] => true
  | (j, a) :: as, (k, b) :: bs => j == k && same a b && sameEntries as bs
  | _, _ => false

end

mutual

/-- Every map in the value has its keys in order. -/
def Ordered : Value → Prop
  | .list items => ItemsOrdered items
  | .map entries => KeysIncrease entries ∧ EntriesOrdered entries
  | _ => True

/-- Every map in the items has. -/
def ItemsOrdered : List Value → Prop
  | [] => True
  | item :: rest => Ordered item ∧ ItemsOrdered rest

/-- Every map in the values of the entries has. -/
def EntriesOrdered : List (String × Value) → Prop
  | [] => True
  | (_, value) :: rest => Ordered value ∧ EntriesOrdered rest

end

end Value

end QuorumRounds
