import QuorumRounds.Confirmations
import QuorumRounds.Decision
import QuorumRounds.Round.Poll
import QuorumRounds.Tally

/-! # Rounds that need one outcome

A `Ballot` decides once a threshold of participants has sent the same payload. Each participant
votes once. After the threshold only block confirmations are outstanding, so the ballot can no
longer end without a majority. -/

namespace QuorumRounds
set_option autoImplicit false

/-- A poll, and what has been heard in it. The collection and the tally hold the same votes. -/
structure Ballot (P κ : Type) [Ord κ] where
  poll : Poll κ
  collection : SortedMap String P
  tally : Tally P
  confirmations : Confirmations

namespace Ballot
variable {P κ : Type} [Ord κ]

/-- A ballot in which nobody has voted. -/
def ofContext (roundId : String) (allowed : κ) (context : RoundContext κ) :
    Except Error (Ballot P κ) :=
  (Poll.ofContext roundId allowed context).map fun poll =>
    { poll := poll
      collection := ∅
      tally := ∅
      confirmations := Confirmations.ofRequired context.requiredConfirmations }

/-! ## Payloads -/

section Payloads
variable [Payload P κ] [DecidableEq κ] [Named κ]

/-- What every poll checks, and then that the sender has not voted. -/
def check (ballot : Ballot P κ) (tx : Transaction P) : Except Rejection Unit :=
  match ballot.poll.check tx with
  | .error reason => .error reason
  | .ok () =>
    if ballot.collection.contains tx.sender then
      .error (.senderAlreadySent tx.sender ballot.poll.roundId)
    else .ok ()

/-- Takes a vote that has passed the check. -/
def accept (ballot : Ballot P κ) (tx : Transaction P) : Ballot P κ :=
  { ballot with
    collection := ballot.collection.insert tx.sender tx.payload
    tally := ballot.tally.add tx.sender tx.payload }

/-- A transaction that fails the check leaves the ballot as it was. -/
def process (ballot : Ballot P κ) (tx : Transaction P) : Except InternalError (Ballot P κ) :=
  match ballot.check tx with
  | .error reason => .error (.invalidPayload reason)
  | .ok () => .ok (ballot.accept tx)

end Payloads

/-! ## Outcome -/

/-- A candidate has as many votes as the threshold. -/
def reachedAt (ballot : Ballot P κ) (threshold : Nat) : Bool := ballot.tally.hasMajority threshold

/-- The threshold has been reached or can still be. -/
def isPossibleAt (ballot : Ballot P κ) (threshold : Nat) : Bool :=
  ballot.reachedAt threshold ||
    ballot.tally.isMajorityPossible ballot.poll.participants.size threshold

/-- The votes that the leader can still get, added up on a word. -/
def sum (ballot : Ballot P κ) : Checked UInt64 :=
  Word.reach ballot.tally.mostVotes ballot.tally.voters.size ballot.poll.participants.size

/-- Whether the threshold of the poll has been reached. -/
def isReached (ballot : Ballot P κ) : Checked Bool := ballot.poll.threshold.map ballot.reachedAt

/-- Whether the threshold of the poll has been reached or can still be. -/
def isMajorityPossible (ballot : Ballot P κ) : Checked Bool :=
  ballot.poll.threshold.map ballot.isPossibleAt

/-- The payload that has reached the threshold, which is asked for only once somebody has voted. -/
def mostVoted (ballot : Ballot P κ) : Checked (Except InternalError P) :=
  match ballot.tally.leader? with
  | none => .ok (.error .notEnoughVotes)
  | some (payload, votes) =>
    ballot.poll.threshold.map fun threshold =>
      if threshold ≤ votes then .ok payload else .error .notEnoughVotes

/-- Called once per block. A threshold that has been reached is not looked at again: it only
waits for its confirmations. -/
def decide (ballot : Ballot P κ) : Checked (Decision P × Ballot P κ) := do
  let threshold ← ballot.poll.threshold
  if ballot.reachedAt threshold then
    let confirmations ← ballot.confirmations.tick
    let ticked := { ballot with confirmations := confirmations }
    match confirmations.isComplete, ballot.tally.leader? with
    | true, some (payload, _) => pure (.reached payload, ticked)
    | _, _ => pure (.pending, ticked)
  else if ballot.isPossibleAt threshold then pure (.pending, ballot)
  else pure (.noMajority, ballot)

end Ballot

end QuorumRounds
