import QuorumRounds.Overflow
import QuorumRounds.Timeouts

/-! # All that can be called on pending timeouts

A queue of timeouts is whatever answers these calls.

* `Timeouts.run`: makes calls in their order, and keeps the answers.
* `Timeouts.respond`: how pending timeouts answer.
-/

namespace QuorumRounds.Timeouts
set_option autoImplicit false

variable {ε σ : Type}

/-- A call with its arguments. -/
inductive Call (ε : Type) where
  | schedule (deadline : Duration) (event : ε)
  | popExpired (now : Duration)
  | earliest
  | size
  | cancelAll

/-- What a call answers. -/
inductive Answer (ε : Type) where
  | done
  | entry (found : Option (Duration × ε))
  | count (entries : Nat)
deriving DecidableEq

/-- The calls one after the other, with their answers, and the queue after all of them. -/
def run (respond : σ → Call ε → Checked (Answer ε × σ)) :
    σ → List (Call ε) → Checked (List (Answer ε) × σ)
  | state, [] => .ok ([], state)
  | state, call :: calls => do
    let (answer, after) ← respond state call
    let (answers, last) ← run respond after calls
    pure (answer :: answers, last)

/-- Makes a call. -/
def respond (timeouts : Timeouts ε) : Call ε → Checked (Answer ε × Timeouts ε)
  | .schedule deadline event => .ok (.done, timeouts.schedule deadline event)
  | .popExpired now => .ok (.entry (timeouts.popExpired now).1, (timeouts.popExpired now).2)
  | .earliest => .ok (.entry timeouts.earliest?, timeouts)
  | .size => .ok (.count timeouts.size, timeouts)
  | .cancelAll => .ok (.done, ∅)

end QuorumRounds.Timeouts
