/-! # Decisions -/

namespace QuorumRounds
set_option autoImplicit false

/-- Where a round stands after the latest block: it waits for payloads or for block confirmations,
it has an outcome, or no outcome can reach the threshold any more. -/
inductive Decision (α : Type) where
  | pending
  | reached (outcome : α)
  | noMajority
deriving DecidableEq, Repr

namespace Decision
variable {α β : Type}

/-- Whether the round is still to be asked. -/
def isPending : Decision α → Bool
  | .pending => true
  | _ => false

/-- The outcome. -/
def reached? : Decision α → Option α
  | .reached outcome => some outcome
  | _ => none

/-- The same decision with another outcome. -/
def map (f : α → β) : Decision α → Decision β
  | .pending => .pending
  | .reached outcome => .reached (f outcome)
  | .noMajority => .noMajority

end Decision

end QuorumRounds
