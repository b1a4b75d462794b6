import QuorumRounds.Machine.Basic
import QuorumRounds.PriceOracle.Round

/-! # The price oracle

Participants register, post observations of a price, vote on one estimate, and open a new period. A
round that cannot reach agreement, or takes too long, falls back to a reset of the period.

* `Settings`: the timeouts, and how many periods the store holds on to.
* `Settings.application`: the rounds, their transitions and how each is built.
* `Settings.machine`: the machine for a list of participants.
-/

namespace QuorumRounds.PriceOracle
set_option autoImplicit false

/-- What an application of the price oracle leaves open. -/
structure Settings where
  roundTimeout : Duration := .ofSeconds 30
  resetTimeout : Duration := .ofSeconds 30
  periodHistoryDepth : UInt64 := 3
deriving DecidableEq, Repr

instance : Wire Settings where
  write settings :=
    Wire.write settings.roundTimeout ++ Wire.write settings.resetTimeout ++
      Wire.write settings.periodHistoryDepth
  read := do
    let roundTimeout ← Wire.read
    let resetTimeout ← Wire.read
    let periodHistoryDepth ← Wire.read
    pure ⟨roundTimeout, resetTimeout, periodHistoryDepth⟩

/-- The participants and the estimate are carried over into a new period. -/
def crossPeriodKeys : List String := [participantsKey, estimateKey]

/-- Registration can only be completed; every other round can also fail or time out. -/
def transitions : TransitionTable RoundKind Event :=
  .ofList
    [(.registration, .done, .collectObservation),
      (.collectObservation, .done, .estimateConsensus),
      (.collectObservation, .noMajority, .reset),
      (.collectObservation, .roundTimeout, .reset),
      (.estimateConsensus, .done, .reset),
      (.estimateConsensus, .noMajority, .reset),
      (.estimateConsensus, .roundTimeout, .reset),
      (.reset, .done, .collectObservation),
      (.reset, .noMajority, .registration),
      (.reset, .resetTimeout, .registration)]

/-- The layouts of all four payloads. -/
def registry : Except Error (Registry Kind) := Registry.ofShapes Payload.shapes

/-- A round's identifier is the name of its kind. -/
def buildRound (keys : List String) (periodDepth : UInt64) (kind : RoundKind)
    (context : RoundContext Kind) : Except Error Round :=
  match kind with
  | .registration =>
    (Gathering.ofContext .everyone (name kind) .registration context).map .registration
  | .collectObservation =>
    (Gathering.ofContext .threshold (name kind) .observation context).map .collectObservation
  | .estimateConsensus =>
    (Ballot.ofContext (name kind) .estimate context).map .estimateConsensus
  | .reset =>
    (Ballot.ofContext (name kind) .reset context).map fun ballot => .reset ballot keys periodDepth

namespace Settings

/-- A reset has a timeout of its own. -/
def timeouts (settings : Settings) : SortedMap Event Duration :=
  .ofList [(.roundTimeout, settings.roundTimeout), (.resetTimeout, settings.resetTimeout)]

/-- No round is final. -/
def application (settings : Settings) : Application RoundKind Event Kind Round where
  initial := .registration
  finals := ∅
  transitions := transitions
  timeouts := settings.timeouts
  crossPeriodKeys := crossPeriodKeys
  build := buildRound crossPeriodKeys settings.periodHistoryDepth

/-- The store begins with the participants alone. -/
def setupData (participants : List String) : SortedMap String Value :=
  SortedMap.insert ∅ participantsKey (participantsValue participants)

/-- The machine that runs the rounds for these participants. -/
def machine (settings : Settings) (participants : SortedSet String) (config : Config RoundKind) :
    Except Error (Machine RoundKind Event Kind Round) := do
  let registry ← registry
  Machine.ofApplication settings.application (setupData participants.toList) config registry

end Settings

end QuorumRounds.PriceOracle
