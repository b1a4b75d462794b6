import QuorumRounds.Binary64.Basic
import QuorumRounds.Duration
import QuorumRounds.Error
import QuorumRounds.SortedMap.Basic

/-! # The wire format

Words are written with the lowest byte first and at their full width. A text is its UTF-8 bytes
behind their number, a list its items behind their number, a map its entries in key order behind
their number, a choice its index in 32 bits followed by its fields, a record its fields in order.

* `Reader`: takes a value from the front of the input and leaves the rest. It stops at the first
  offence, in reading order.
* `Wire`: a type with a written form. `Wire.decode` ignores what follows the value.
-/

namespace QuorumRounds
set_option autoImplicit false

/-- Takes a value from the front of the input. -/
abbrev Reader (α : Type) := StateT (List UInt8) (Except ReadError) α

/-- What has a written form. -/
class Wire (α : Type) where
  write : α → List UInt8
  read : Reader α

/-- The value at the front of the bytes. -/
def Wire.decode (α : Type) [Wire α] (bytes : List UInt8) : Except Error α :=
  match Wire.read.run bytes with
  | .ok (a, _) => .ok a
  | .error e => .error (.encoding e)

/-! ## Words -/

/-- The lowest `width` bytes of a number, the lowest first. -/
def littleEndian : Nat → Nat → List UInt8
  | 0, _ => []
  | width + 1, n => UInt8.ofNat n :: littleEndian width (n / 256)

/-- The number of these bytes, the lowest first. -/
def ofLittleEndian : List UInt8 → Nat
  | [] => 0
  | b :: rest => b.toNat + 256 * ofLittleEndian rest

/-- The next `n` bytes. -/
def takeBytes (n : Nat) : Reader (List UInt8) := fun input =>
  if n ≤ input.length then .ok (input.take n, input.drop n) else .error .endOfInput

/-- A number in its full width. -/
def readWord (width : Nat) : Reader Nat := ofLittleEndian <$> takeBytes width

instance : Wire UInt8 where
  write b := [b]
  read := UInt8.ofNat <$> readWord 1

instance : Wire UInt32 where
  write n := littleEndian 4 n.toNat
  read := UInt32.ofNat <$> readWord 4

instance : Wire UInt64 where
  write n := littleEndian 8 n.toNat
  read := UInt64.ofNat <$> readWord 8

/-- Two's complement. -/
instance : Wire Int64 where
  write n := Wire.write n.toUInt64
  read := UInt64.toInt64 <$> Wire.read

instance : Wire Binary64 where
  write x := Wire.write x.bits
  read := Binary64.mk <$> Wire.read

instance : Wire Bool where
  write b := [if b then 1 else 0]
  read := do
    match ← readWord 1 with
    | 0 => pure false
    | 1 => pure true
    | _ => throw .invalidBool

/-! ## Texts, lists and maps -/

/-- The number of items that follow. -/
def writeCount (n : Nat) : List UInt8 := littleEndian 8 n

/-- As many items follow. -/
def readCount : Reader Nat := readWord 8

instance : Wire String where
  write s := writeCount s.toByteArray.data.size ++ s.toByteArray.data.toList
  read := do
    let bytes ← takeBytes (← readCount)
    match String.fromUTF8? ⟨bytes.toArray⟩ with
    | some s => pure s
    | none => throw .invalidText

/-- So many items, one after the other. -/
def readTimes {α : Type} (read : Reader α) : Nat → Reader (List α)
  | 0 => pure []
  | n + 1 => do
    let item ← read
    let rest ← readTimes read n
    pure (item :: rest)

/-- One value, and another behind it. -/
def readPair {α β : Type} (first : Reader α) (second : Reader β) : Reader (α × β) := do
  let a ← first
  let b ← second
  pure (a, b)

/-- The number of items, and the items. -/
def writeList {α : Type} (write : α → List UInt8) (items : List α) : List UInt8 :=
  writeCount items.length ++ items.flatMap write

/-- The number of items, and as many items. -/
def readList {α : Type} (read : Reader α) : Reader (List α) := do
  let n ← readCount
  readTimes read n

instance {α : Type} [Wire α] : Wire (List α) where
  write := writeList Wire.write
  read := readList Wire.read

/-- Entries may come in any order, and of two with one key the later one counts. -/
instance {κ α : Type} [Ord κ] [Std.TransOrd κ] [Wire κ] [Wire α] : Wire (SortedMap κ α) where
  write m := writeList (fun e => Wire.write e.1 ++ Wire.write e.2) m.entries
  read := SortedMap.ofList <$> readList (readPair Wire.read Wire.read)

/-! ## Choices and spans of time -/

/-- The index of a choice. -/
def writeVariant (index : Nat) : List UInt8 := littleEndian 4 index

/-- The index of a choice among `variants` many. -/
def readVariant (variants : Nat) : Reader (Fin variants) := do
  let index : UInt32 ← Wire.read
  if h : index.toNat < variants then pure ⟨index.toNat, h⟩
  else throw (.unknownVariant index variants)

instance : Wire Duration where
  write d := Wire.write d.seconds ++ Wire.write d.subsecond
  read := do
    let seconds ← Wire.read
    let nanos ← Wire.read
    match Duration.ofParts? seconds nanos with
    | some d => pure d
    | none => throw .durationOverflow

end QuorumRounds
