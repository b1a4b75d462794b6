import QuorumRounds.Params
import QuorumRounds.Payload.Registry
import QuorumRounds.Store.Basic

/-! # What every round checks

A `Poll` asks a fixed set of participants for payloads of one kind. The participants are those that
the store names when the poll opens. -/

namespace QuorumRounds
set_option autoImplicit false

/-- What a round is built from. -/
structure RoundContext (κ : Type) [Ord κ] where
  store : Store
  params : ConsensusParams
  registry : Registry κ
  requiredConfirmations : UInt64

/-- What a round asks of whom, with the store and the settings that it was built from. -/
structure Poll (κ : Type) [Ord κ] where
  roundId : String
  allowed : κ
  store : Store
  params : ConsensusParams
  participants : SortedSet String
  registry : Registry κ

namespace Poll
variable {κ : Type} [Ord κ]

/-- Fails if the store does not name the participants. -/
def ofContext (roundId : String) (allowed : κ) (context : RoundContext κ) :
    Except Error (Poll κ) :=
  context.store.participants.map fun participants =>
    { roundId := roundId
      allowed := allowed
      store := context.store
      params := context.params
      participants := participants
      registry := context.registry }

/-- The number of participants that a decision of this poll needs. -/
def threshold (poll : Poll κ) : Checked Nat := poll.params.threshold

/-- The number of participants who have not contributed, given how many have. -/
def remaining (poll : Poll κ) (contributed : Nat) : Nat := poll.participants.size - contributed

/-- Kind, layout and membership, in this order. -/
def check {P : Type} [Payload P κ] [DecidableEq κ] [Named κ] (poll : Poll κ) (tx : Transaction P) :
    Except Rejection Unit :=
  let kind := Payload.kind tx.payload
  if kind = poll.allowed then
    match poll.registry.shapes.get? kind with
    | none => .error (.unknownTransactionType (name kind))
    | some shape =>
      match shape.check (Payload.data tx.payload) with
      | .error reason => .error reason
      | .ok () =>
        if poll.participants.contains tx.sender then .ok ()
        else .error (.senderNotParticipant poll.participants.toList)
  else .error (.unexpectedTransactionType (name kind))

end Poll

end QuorumRounds
