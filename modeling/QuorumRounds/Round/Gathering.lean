import QuorumRounds.Confirmations
import QuorumRounds.Decision
import QuorumRounds.Round.Poll

/-! # Rounds that collect payloads

A `Gathering` takes one payload from each participant, whatever its content, and decides once its
quota is in. Payloads that come in while block confirmations are outstanding are still taken, and
belong to the outcome. -/

namespace QuorumRounds
set_option autoImplicit false

/-- How many payloads a gathering waits for. -/
inductive Quota where
  | threshold
  | everyone
deriving DecidableEq, Repr

/-- A poll, its quota, and the payload of each sender that has been heard. -/
structure Gathering (P κ : Type) [Ord κ] where
  poll : Poll κ
  quota : Quota
  collection : SortedMap String P
  confirmations : Confirmations

namespace Gathering
variable {P κ : Type} [Ord κ]

/-- A gathering in which nobody has been heard. -/
def ofContext (quota : Quota) (roundId : String) (allowed : κ) (context : RoundContext κ) :
    Except Error (Gathering P κ) :=
  (Poll.ofContext roundId allowed context).map fun poll =>
    { poll := poll
      quota := quota
      collection := ∅
      confirmations := Confirmations.ofRequired context.requiredConfirmations }

/-! ## Payloads -/

section Payloads
variable [Payload P κ] [DecidableEq κ] [Named κ]

/-- What every poll checks, and then that the sender has not been heard. -/
def check (gathering : Gathering P κ) (tx : Transaction P) : Except Rejection Unit :=
  match gathering.poll.check tx with
  | .error reason => .error reason
  | .ok () =>
    if gathering.collection.contains tx.sender then
      .error (.senderAlreadyAdded tx.sender gathering.poll.roundId)
    else .ok ()

/-- Takes a payload that has passed the check. -/
def accept (gathering : Gathering P κ) (tx : Transaction P) : Gathering P κ :=
  { gathering with collection := gathering.collection.insert tx.sender tx.payload }

/-- A transaction that fails the check leaves the gathering as it was. -/
def process (gathering : Gathering P κ) (tx : Transaction P) :
    Except InternalError (Gathering P κ) :=
  match gathering.check tx with
  | .error reason => .error (.invalidPayload reason)
  | .ok () => .ok (gathering.accept tx)

end Payloads

/-! ## Outcome -/

/-- The number of payloads that the quota asks for. Waiting for everyone asks for no threshold. -/
def required (gathering : Gathering P κ) : Checked Nat :=
  match gathering.quota with
  | .threshold => gathering.poll.threshold
  | .everyone => .ok gathering.poll.participants.size

/-- As many payloads have come in. -/
def reachedAt (gathering : Gathering P κ) (required : Nat) : Bool :=
  required ≤ gathering.collection.size

/-- As many payloads have come in or can still do so. -/
def isPossibleAt (gathering : Gathering P κ) (required : Nat) : Bool :=
  required ≤ gathering.collection.size + gathering.poll.remaining gathering.collection.size

/-- The payloads that can come in, added up on a word. -/
def sum (gathering : Gathering P κ) : Checked UInt64 :=
  Word.reach gathering.collection.size gathering.collection.size gathering.poll.participants.size

/-- Whether the quota is in. -/
def isReached (gathering : Gathering P κ) : Checked Bool :=
  gathering.required.map gathering.reachedAt

/-- Whether the quota is in or can still come in. -/
def isMajorityPossible (gathering : Gathering P κ) : Checked Bool :=
  gathering.required.map gathering.isPossibleAt

/-- Called once per block. A quota that is in waits for its confirmations, and the outcome is what
has come in by then. -/
def decide (gathering : Gathering P κ) :
    Checked (Decision (SortedMap String P) × Gathering P κ) := do
  let required ← gathering.required
  if gathering.reachedAt required then
    let confirmations ← gathering.confirmations.tick
    let ticked := { gathering with confirmations := confirmations }
    if confirmations.isComplete then pure (.reached gathering.collection, ticked)
    else pure (.pending, ticked)
  else if gathering.isPossibleAt required then pure (.pending, gathering)
  else pure (.noMajority, gathering)

end Gathering

end QuorumRounds
