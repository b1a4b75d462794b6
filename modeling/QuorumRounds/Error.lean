import QuorumRounds.Text.Quoted

/-! # What can go wrong, and how it is reported

Every failure is a cause with the data its message needs; the wording is in the `message` functions
alone.

* `Rejection`: a payload that a round does not accept. The same reasons surface twice: as
  `Error.invalidTransaction` when a transaction is checked, which is ordinary, and as
  `InternalError.invalidPayload` when an unchecked one is processed, which is a caller's mistake.
* `ReadError`: bytes that are no encoding of what is read.
* `ConfigError`: settings that contradict each other.
* `Error`: all of these, and what the store, the registry and the block sequence refuse.
* `answered`: the answer to a call, and the state that it leaves behind.
-/

namespace QuorumRounds
set_option autoImplicit false

/-- Why a round does not accept a payload. -/
inductive Rejection where
  | senderNotParticipant (participants : List String)
  | senderAlreadySent (sender round : String)
  | senderAlreadyAdded (sender round : String)
  | unexpectedTransactionType (kind : String)
  | unknownTransactionType (kind : String)
  | unexpectedPeriod (expected actual : UInt64)
  | malformedAttributes (shape : String) (expected actual : List String)
deriving DecidableEq, Repr

/-- The wording, also of those that report a rejection. -/
def Rejection.message : Rejection → String
  | .senderNotParticipant participants =>
    s!"sender not in list of participants: {quoteList participants}"
  | .senderAlreadySent sender round => s!"sender {sender} has already sent value for round: {round}"
  | .senderAlreadyAdded sender round =>
    s!"payload attribute sender with value {sender} has already been added for round: {round}"
  | .unexpectedTransactionType kind => s!"request '{kind}' not recognized"
  | .unknownTransactionType kind => s!"unknown transaction type: {kind}"
  | .unexpectedPeriod expected actual =>
    s!"period {actual.toNat} does not follow the current period, expected {expected.toNat}"
  | .malformedAttributes shape expected actual =>
    s!"malformed {shape} payload: expected attributes {quoteList expected}, got {quoteList actual}"

/-- A mistake of the one who drives the rounds. -/
inductive InternalError where
  | invalidPayload (reason : Rejection)
  | notEnoughVotes
  | noActiveRound
deriving DecidableEq, Repr

/-- The wording of a mistake. -/
def InternalError.message : InternalError → String
  | .invalidPayload reason => s!"internal error: {reason.message}"
  | .notEnoughVotes => "internal error: not enough votes"
  | .noActiveRound => "internal error: no round is active"

/-- Why settings cannot be used. -/
inductive ConfigError where
  | maxParticipantsTooLow (maxParticipants : UInt64)
  | tooManyParticipants (participants : Nat) (maxParticipants : UInt64)
  | finalRoundHasTransitions (round : String)
deriving DecidableEq, Repr

/-- The wording of a contradiction in the settings. -/
def ConfigError.message : ConfigError → String
  | .maxParticipantsTooLow maxParticipants =>
    s!"max_participants must be at least 1, got {maxParticipants.toNat}"
  | .tooManyParticipants participants maxParticipants =>
    s!"{participants} participants do not fit max_participants {maxParticipants.toNat}"
  | .finalRoundHasTransitions round => s!"final round {round} must not have outgoing transitions"

/-- Why bytes cannot be read. -/
inductive ReadError where
  | endOfInput
  | invalidText
  | invalidBool
  | unknownVariant (index : UInt32) (variants : Nat)
  | durationOverflow
  | invalidConfig (reason : ConfigError)
deriving DecidableEq, Repr

/-- The reasons that the format itself does not name carry a text. -/
def ReadError.detail? : ReadError → Option String
  | .endOfInput | .invalidText | .invalidBool => none
  | .unknownVariant index variants =>
    some s!"invalid value: integer `{index.toNat}`, expected variant index 0 <= i < {variants}"
  | .durationOverflow => some "overflow deserializing Duration"
  | .invalidConfig reason => some reason.message

/-- The calls of the consensus engine that are allowed only at a certain point of a block. -/
inductive Request where
  | beginBlock
  | deliverTx
  | endBlock
  | commit
deriving DecidableEq, Repr

/-- The name of a call in messages. -/
def Request.name : Request → String
  | .beginBlock => "begin_block"
  | .deliverTx => "deliver_tx"
  | .endBlock => "end_block"
  | .commit => "commit"

/-- How far a block has come. -/
inductive Stage where
  | idle
  | delivering
  | ended
deriving DecidableEq, Repr

/-- The name of a stage in messages. -/
def Stage.name : Stage → String
  | .idle => "not started"
  | .delivering => "in progress"
  | .ended => "ended"

/-- Every failure that is an ordinary answer. -/
inductive Error where
  | internal (reason : InternalError)
  | invalidTransaction (reason : Rejection)
  | config (reason : ConfigError)
  | keyNotFound (key : String)
  | unexpectedValue (key expected : String)
  | duplicateRegistration (kind existing new : String)
  | unknownTransactionType (kind : String)
  | requestNotAllowed (request : Request) (stage : Stage)
  | heightDoesNotFollow (height last : UInt64)
  | encoding (reason : ReadError)
deriving DecidableEq, Repr

/-- The wording of any failure. -/
def Error.message : Error → String
  | .internal reason => reason.message
  | .invalidTransaction reason => reason.message
  | .config reason => s!"Invalid configuration: {reason.message}"
  | .keyNotFound key => s!"key {quote key} has not been set"
  | .unexpectedValue key expected => s!"value under key {quote key} is not {expected}"
  | .duplicateRegistration kind existing new =>
    s!"transaction type {kind} is already bound to {existing}, refusing to rebind it to {new}"
  | .unknownTransactionType kind => s!"unknown transaction type: {kind}"
  | .requestNotAllowed request stage =>
    s!"{request.name} is not allowed while the block is {stage.name}"
  | .heightDoesNotFollow height last =>
    s!"block height {height.toNat} does not follow the last committed height {last.toNat}"
  | .encoding _ => "Failed to encode with bincode"

/-- The answer to a call that may change a state, and the state that it leaves behind: a call that
fails leaves the old one. -/
def answered {ε σ : Type} (before : σ) : Except ε σ → Except ε Unit × σ
  | .ok after => (.ok (), after)
  | .error e => (.error e, before)

section Answers
variable {ε σ : Type} {before after : σ} {outcome : Except ε σ} {e : ε}

theorem answered_eq_ok_iff : answered before outcome = (.ok (), after) ↔ outcome = .ok after := by
  cases outcome <;> simp [answered]

theorem answered_eq_error_iff :
    answered before outcome = (.error e, after) ↔ outcome = .error e ∧ after = before := by
  cases outcome <;> simp [answered, eq_comm]

end Answers

end QuorumRounds
