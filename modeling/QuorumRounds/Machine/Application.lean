import QuorumRounds.Machine.Config
import QuorumRounds.Round.Poll
import QuorumRounds.Timeouts
import QuorumRounds.TransitionTable

/-! # Applications

An application names its rounds and events, wires them together and builds each round.

* `RoundBehavior σ P ε`: what the machine asks of a round whose state is a `σ`, with payloads `P`
  and events `ε`. A call that changes the round returns the round after it, also when it fails.
* `Application ρ ε κ σ`: rounds `ρ`, events `ε`, transaction kinds `κ`.
-/

namespace QuorumRounds
set_option autoImplicit false

/-- The interface of rounds. -/
class RoundBehavior (σ : Type) (P ε : outParam Type) where
  id : σ → String
  store : σ → Store
  /-- Validates a transaction without touching the round. -/
  check : σ → Transaction P → Checked (Except Rejection Unit)
  process : σ → Transaction P → Checked (Except InternalError Unit × σ)
  /-- Called once per block; the result and an event once the round has decided. -/
  endBlock : σ → Checked (Option (Store × ε) × σ)
  isMajorityPossible : σ → Checked Bool

/-- The rounds of a machine. -/
structure Application (ρ ε κ σ : Type) [Ord ρ] [Ord ε] [Ord κ] where
  initial : ρ
  finals : SortedSet ρ
  transitions : TransitionTable ρ ε
  /-- Events that fire on their own when a round takes too long. -/
  timeouts : SortedMap ε Duration
  /-- Keys that are carried over into a new period. -/
  crossPeriodKeys : List String
  build : ρ → RoundContext κ → Except Error σ

namespace Application
variable {ρ ε κ σ : Type} [Ord ρ] [Ord ε] [Ord κ]

/-- The events on which a round is left by itself when it takes too long. -/
def timeoutEvents (app : Application ρ ε κ σ) (kind : ρ) : List ε :=
  (app.transitions.eventsFrom kind).filter fun event => app.timeouts.contains event

/-- Builds a round on a store, with the settings of the machine. -/
def buildOn (app : Application ρ ε κ σ) (config : Config ρ) (registry : Registry κ) (kind : ρ)
    (store : Store) : Except Error σ :=
  app.build kind
    { store := store
      params := config.params
      registry := registry
      requiredConfirmations := config.requiredConfirmations kind }

/-- Schedules the timeouts of these events, in their order. -/
def schedule (app : Application ρ ε κ σ) (now : Duration) (timeouts : Timeouts ε)
    (events : List ε) : Checked (Timeouts ε) :=
  events.foldlM (fun scheduled event =>
    match app.timeouts.get? event with
    | some span => (now.add span).map fun deadline => scheduled.schedule deadline event
    | none => .ok scheduled) timeouts

end Application

end QuorumRounds
