import QuorumRounds.Wire.Basic

/-! # Blocks

A block is a height, a timestamp and the transactions in their written form. -/

namespace QuorumRounds
set_option autoImplicit false

/-- What a block begins with. -/
structure BlockHeader where
  height : UInt64
  /-- As stamped by the proposer of the block. -/
  timestamp : Duration
deriving DecidableEq, Repr

/-- A header, and the transactions in the order in which they were delivered. -/
structure Block where
  header : BlockHeader
  transactions : List (List UInt8)
deriving DecidableEq, Repr

instance : Wire BlockHeader where
  write header := Wire.write header.height ++ Wire.write header.timestamp
  read := do
    let height ← Wire.read
    let timestamp ← Wire.read
    pure ⟨height, timestamp⟩

instance : Wire Block where
  write block := Wire.write block.header ++ Wire.write block.transactions
  read := do
    let header ← Wire.read
    let transactions ← Wire.read
    pure ⟨header, transactions⟩

end QuorumRounds
