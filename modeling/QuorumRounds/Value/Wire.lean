import QuorumRounds.Value.Basic
import QuorumRounds.Wire.Basic

/-! # The written form of a value

A value is a choice among nine variants, in the order of their declaration. Each level of nesting
takes at least the four bytes of its index, so the length of the input bounds the depth of what can
be read from it. -/

namespace QuorumRounds
set_option autoImplicit false

namespace Value

mutual

/-- The index of the variant, and then its content. -/
def write : Value → List UInt8
  | .null => writeVariant 0
  | .bool b => writeVariant 1 ++ Wire.write b
  | .int i => writeVariant 2 ++ Wire.write i
  | .uint u => writeVariant 3 ++ Wire.write u
  | .float x => writeVariant 4 ++ Wire.write x
  | .text s => writeVariant 5 ++ Wire.write s
  | .bytes data => writeVariant 6 ++ Wire.write data
  | .list items => writeVariant 7 ++ (writeCount items.length ++ writeItems items)
  | .map entries => writeVariant 8 ++ (writeCount entries.length ++ writeEntries entries)

/-- The items without their number. -/
def writeItems : List Value → List UInt8
  | [] => []
  | item :: rest => write item ++ writeItems rest

/-- The entries without their number. -/
def writeEntries : List (String × Value) → List UInt8
  | [] => []
  | (key, value) :: rest => Wire.write key ++ (write value ++ writeEntries rest)

end

/-- Reads a value nested less than `depth` levels deep. -/
def readNested : Nat → Reader Value
  | 0 => throw .endOfInput
  | depth + 1 => do
    match ← readVariant 9 with
    | 0 => pure .null
    | 1 => .bool <$> Wire.read
    | 2 => .int <$> Wire.read
    | 3 => .uint <$> Wire.read
    | 4 => .float <$> Wire.read
    | 5 => .text <$> Wire.read
    | 6 => .bytes <$> Wire.read
    | 7 => .list <$> readList (readNested depth)
    | 8 => (ofMap ∘ SortedMap.ofList) <$> readList (readPair Wire.read (readNested depth))

/-- No value is nested deeper than the input is long. -/
def read : Reader Value := fun input => readNested (input.length + 1) input

end Value

instance : Wire Value := ⟨Value.write, Value.read⟩

end QuorumRounds
