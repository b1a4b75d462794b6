import QuorumRounds.Machine.Application
import QuorumRounds.PriceOracle.Data
import QuorumRounds.PriceOracle.Payload
import QuorumRounds.Round.Ballot
import QuorumRounds.Round.Gathering

/-! # The four rounds of the price oracle

* Registration: every participant announces itself, and the senders become the participants.
* Collecting observations: one observation from each of a threshold of participants.
* Estimate consensus: a threshold of participants votes for one estimate.
* Reset: a threshold of participants votes for the next period, which is then opened. A vote names
  the period after the current one.

A round that has decided hands on the store it was built from with its own result added; without a
majority it hands on that store as it is. -/

namespace QuorumRounds.PriceOracle
set_option autoImplicit false

/-- The rounds, in the order of a period. -/
inductive RoundKind where
  | registration
  | collectObservation
  | estimateConsensus
  | reset
deriving DecidableEq, Ord, Repr

/-- What a round can end on. -/
inductive Event where
  | done
  | noMajority
  | roundTimeout
  | resetTimeout
deriving DecidableEq, Ord, Repr

namespace RoundKind

instance : Std.TransOrd RoundKind where
  eq_swap := by rintro (_ | _ | _ | _) (_ | _ | _ | _) <;> rfl
  isLE_trans := by rintro (_ | _ | _ | _) (_ | _ | _ | _) (_ | _ | _ | _) <;> decide

instance : Std.LawfulEqOrd RoundKind where
  compare_self := by rintro (_ | _ | _ | _) <;> rfl
  eq_of_compare := by rintro (_ | _ | _ | _) (_ | _ | _ | _) <;> decide

instance : Named RoundKind where
  name
    | .registration => "registration"
    | .collectObservation => "collect_observation"
    | .estimateConsensus => "estimate_consensus"
    | .reset => "reset"

end RoundKind

namespace Event

instance : Std.TransOrd Event where
  eq_swap := by rintro (_ | _ | _ | _) (_ | _ | _ | _) <;> rfl
  isLE_trans := by rintro (_ | _ | _ | _) (_ | _ | _ | _) (_ | _ | _ | _) <;> decide

instance : Std.LawfulEqOrd Event where
  compare_self := by rintro (_ | _ | _ | _) <;> rfl
  eq_of_compare := by rintro (_ | _ | _ | _) (_ | _ | _ | _) <;> decide

instance : Named Event where
  name
    | .done => "done"
    | .noMajority => "no_majority"
    | .roundTimeout => "round_timeout"
    | .resetTimeout => "reset_timeout"

end Event

/-- A round in progress, with what a reset needs to open the next period. -/
inductive Round where
  | registration (gathering : Gathering Payload Kind)
  | collectObservation (gathering : Gathering Payload Kind)
  | estimateConsensus (ballot : Ballot Payload Kind)
  | reset (ballot : Ballot Payload Kind) (crossPeriodKeys : List String) (periodDepth : UInt64)

namespace Round

/-- What is asked of the participants. -/
def poll : Round → Poll Kind
  | .registration gathering | .collectObservation gathering => gathering.poll
  | .estimateConsensus ballot | .reset ballot _ _ => ballot.poll

/-- The store that the round was built from. -/
def store (round : Round) : Store := round.poll.store

/-- Payloads other than votes for a reset pass; they are refused for their kind. -/
def checkPeriod (store : Store) (payload : Payload) : Checked (Except Rejection Unit) := do
  let expected ← Word.succ store.period
  match payload with
  | .reset period =>
    if period = expected then pure (.ok ()) else pure (.error (.unexpectedPeriod expected period))
  | _ => pure (.ok ())

/-- A reset looks at the period of a vote after everything else. -/
def check (round : Round) (tx : Transaction Payload) : Checked (Except Rejection Unit) :=
  match round with
  | .registration gathering | .collectObservation gathering => .ok (gathering.check tx)
  | .estimateConsensus ballot => .ok (ballot.check tx)
  | .reset ballot _ _ =>
    match ballot.check tx with
    | .error reason => .ok (.error reason)
    | .ok () => checkPeriod ballot.poll.store tx.payload

/-- A reset looks at the period of a vote before anything else. -/
def process (round : Round) (tx : Transaction Payload) :
    Checked (Except InternalError Unit × Round) :=
  match round with
  | .registration gathering => .ok (answered round ((gathering.process tx).map .registration))
  | .collectObservation gathering =>
    .ok (answered round ((gathering.process tx).map .collectObservation))
  | .estimateConsensus ballot => .ok (answered round ((ballot.process tx).map .estimateConsensus))
  | .reset ballot keys depth => do
    match ← checkPeriod ballot.poll.store tx.payload with
    | .error reason => pure (.error (.invalidPayload reason), round)
    | .ok () => pure (answered round ((ballot.process tx).map (.reset · keys depth)))

/-- Processes the transactions in turn, refused ones included, and lists the answers. -/
def processAll (round : Round) :
    List (Transaction Payload) → Checked (List (Except InternalError Unit) × Round)
  | [] => .ok ([], round)
  | tx :: rest => do
    let (answer, next) ← round.process tx
    let (answers, last) ← next.processAll rest
    pure (answer :: answers, last)

/-! ## Results -/

/-- The observations in a collection, by sender. -/
def collectedObservations (collection : SortedMap String Payload) : SortedMap String Value :=
  collection.filterMap fun _ payload =>
    match payload with
    | .observation price => some (.float price)
    | _ => none

/-- What a round hands on when its outcome turns the store into `result`. -/
def handOn {α : Type} (store : Store) (decision : Decision α) (result : α → Checked Store) :
    Checked (Option (Store × Event)) :=
  match decision with
  | .pending => .ok none
  | .noMajority => .ok (some (store, .noMajority))
  | .reached outcome => (result outcome).map fun next => some (next, .done)

/-- Asks for the decision of the block. The store that is handed on is that of the round before. -/
def endBlock (round : Round) : Checked (Option (Store × Event) × Round) :=
  let store := round.store
  match round with
  | .registration gathering => do
    let (decision, after) ← gathering.decide
    let outcome ← handOn store decision fun collection =>
      .ok (store.update [(participantsKey, participantsValue collection.keys)])
    pure (outcome, .registration after)
  | .collectObservation gathering => do
    let (decision, after) ← gathering.decide
    let outcome ← handOn store decision fun collection =>
      .ok (store.update [(observationsKey, .ofMap (collectedObservations collection))])
    pure (outcome, .collectObservation after)
  | .estimateConsensus ballot => do
    let (decision, after) ← ballot.decide
    let outcome ← handOn store decision fun payload =>
      .ok (store.update (mostVotedUpdates payload))
    pure (outcome, .estimateConsensus after)
  | .reset ballot keys depth => do
    let (decision, after) ← ballot.decide
    let outcome ← handOn store decision fun _ =>
      (store.create keys).map fun next => next.cleanup depth.toNat none
    pure (outcome, .reset after keys depth)

/-- The number of payloads, or of votes for one payload, that the round asks for. -/
def needed : Round → Checked Nat
  | .registration gathering | .collectObservation gathering => gathering.required
  | .estimateConsensus ballot | .reset ballot _ _ => ballot.poll.threshold

/-- What the round compares with that number to find out whether it can still be reached. -/
def sum : Round → Checked UInt64
  | .registration gathering | .collectObservation gathering => gathering.sum
  | .estimateConsensus ballot | .reset ballot _ _ => ballot.sum

/-- Whether the round has reached its outcome, or can still do so. -/
def isMajorityPossible : Round → Checked Bool
  | .registration gathering | .collectObservation gathering => gathering.isMajorityPossible
  | .estimateConsensus ballot | .reset ballot _ _ => ballot.isMajorityPossible

instance : RoundBehavior Round Payload Event where
  id round := round.poll.roundId
  store := store
  check := check
  process := process
  endBlock := endBlock
  isMajorityPossible := isMajorityPossible

end Round

end QuorumRounds.PriceOracle
