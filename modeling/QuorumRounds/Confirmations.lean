import QuorumRounds.Overflow

/-! # Block confirmations

A round that has reached its threshold holds its decision back for a number of blocks. -/

namespace QuorumRounds
set_option autoImplicit false

/-- How many blocks are required, and how many have been seen since the threshold. -/
structure Confirmations where
  required : UInt64
  seen : UInt64
deriving DecidableEq, Repr

namespace Confirmations

/-- None has been seen. -/
def ofRequired (required : UInt64) : Confirmations := ⟨required, 0⟩

/-- Counts one more block past the threshold. -/
def tick (confirmations : Confirmations) : Checked Confirmations := do
  let seen ← Word.succ confirmations.seen
  pure { confirmations with seen := seen }

/-- The block in which the threshold is reached is seen, but does not count. -/
def isComplete (confirmations : Confirmations) : Bool :=
  decide (confirmations.required.toNat < confirmations.seen.toNat)

end Confirmations

end QuorumRounds
