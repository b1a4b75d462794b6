import QuorumRounds.Machine.Application

/-! # The machine that sequences rounds

A `Machine` runs one round at a time. A round ends on an event, from the round itself, from an
expired timeout or from outside; the transition table names the round that follows, and a round
without a successor stops the machine.

* `Machine.setup` enters the initial round. It forgets the earlier run before it builds the round.
* `Machine.processEvent` is all or nothing: the successor is built before anything changes.
* `Machine.updateTime` fires at most the earliest expired timeout. The timestamp is recorded, and
  the timeout is taken out, whether or not the successor can be built.

Timeouts belong to the current round and count from the last timestamp seen when it was entered, or
from the first one after that if there was none yet.
-/

namespace QuorumRounds
set_option autoImplicit false

/-- The state of a run. The first four fields never change. -/
structure Machine (ρ ε κ σ : Type) [Ord ρ] [Ord ε] [Ord κ] where
  app : Application ρ ε κ σ
  config : Config ρ
  registry : Registry κ
  setupStore : Store
  /-- What the last round has handed on. -/
  lastStore : Store
  /-- The round in progress, with its kind. -/
  current : Option (ρ × σ)
  /-- The number of rounds that have followed another since the setup. -/
  height : UInt64
  /-- The rounds that have ended, oldest first, with the store that each handed on. -/
  history : List (ρ × Store)
  timeouts : Timeouts ε
  /-- The current round's timeouts wait for the first timestamp. -/
  awaitsTime : Bool
  lastTimestamp : Option Duration

namespace Machine
variable {ρ ε κ σ : Type} [Ord ρ] [Ord ε] [Ord κ]

/-- A machine that has not been set up. Final rounds have no successors, and the participants, if
the store names any, are not more than admissible. -/
def ofApplication [Named ρ] (app : Application ρ ε κ σ) (setup : SortedMap String Value)
    (config : Config ρ) (registry : Registry κ) : Except Error (Machine ρ ε κ σ) :=
  match app.finals.toList.find? fun round => !(app.transitions.eventsFrom round).isEmpty with
  | some round => .error (.config (.finalRoundHasTransitions (name round)))
  | none =>
    let store := Store.ofSetup setup
    let machine : Machine ρ ε κ σ :=
      { app := app
        config := config
        registry := registry
        setupStore := store
        lastStore := store
        current := none
        height := 0
        history := []
        timeouts := ∅
        awaitsTime := false
        lastTimestamp := none }
    match store.participants with
    | .error _ => .ok machine
    | .ok participants =>
      if participants.size ≤ config.params.maxParticipants.toNat then .ok machine
      else .error (.config (.tooManyParticipants participants.size config.params.maxParticipants))

/-! ## Entering and leaving rounds -/

/-- Builds a round of this kind. -/
def build (machine : Machine ρ ε κ σ) (kind : ρ) (store : Store) : Except Error σ :=
  machine.app.buildOn machine.config machine.registry kind store

/-- Schedules the timeouts of the current round. -/
def scheduleTimeouts (machine : Machine ρ ε κ σ) (now : Duration) :
    Checked (Machine ρ ε κ σ) :=
  match machine.current with
  | none => .ok { machine with awaitsTime := false }
  | some (kind, _) =>
    (machine.app.schedule now machine.timeouts (machine.app.transitions.eventsFrom kind)).map
      fun timeouts => { machine with timeouts := timeouts, awaitsTime := false }

/-- Makes the round the current one. Its timeouts take the place of those that were pending. -/
def enter (machine : Machine ρ ε κ σ) (kind : ρ) (round : σ) : Checked (Machine ρ ε κ σ) :=
  let entered := { machine with current := some (kind, round), timeouts := ∅ }
  match machine.lastTimestamp with
  | some now => entered.scheduleTimeouts now
  | none => .ok { entered with awaitsTime := true }

/-- Ends the current round, of the given kind, with the store that it hands on. -/
def leave (machine : Machine ρ ε κ σ) (kind : ρ) (store : Store) : Machine ρ ε κ σ :=
  { machine with
    current := none
    history := machine.history ++ [(kind, store)]
    lastStore := store
    timeouts := ∅ }

/-- Forgets the rounds that have ended. -/
def cleared (machine : Machine ρ ε κ σ) : Machine ρ ε κ σ :=
  { machine with height := 0, history := [], lastStore := machine.setupStore }

/-- Enters the initial round, if it can be built on the store of the setup. The machine is cleared in
any case. -/
def setup (machine : Machine ρ ε κ σ) : Checked (Except Error Unit × Machine ρ ε κ σ) :=
  let initial := machine.app.initial
  match machine.cleared.build initial machine.setupStore with
  | .error e => .ok (.error e, machine.cleared)
  | .ok round => (machine.cleared.enter initial round).map fun entered => (.ok (), entered)

/-! ## Reads -/

/-- Whether no round is active. -/
def isFinished (machine : Machine ρ ε κ σ) : Bool := machine.current.isNone

/-- The kind of the current round. -/
def currentKind (machine : Machine ρ ε κ σ) : Option ρ := machine.current.map (·.1)

/-- The state of the current round. -/
def currentRound (machine : Machine ρ ε κ σ) : Option σ := machine.current.map (·.2)

/-- The kinds of the rounds that have ended, oldest first. -/
def previousRounds (machine : Machine ρ ε κ σ) : List ρ := machine.history.map (·.1)

/-- The stores that they have handed on. -/
def roundResults (machine : Machine ρ ε κ σ) : List Store := machine.history.map (·.2)

section Rounds
variable {P : Type} [RoundBehavior σ P ε]

/-- The name by which the current round is known to its participants. -/
def currentRoundId (machine : Machine ρ ε κ σ) : Option String :=
  machine.currentRound.map RoundBehavior.id

/-- The store of the current round, or the last result once the machine has stopped. -/
def store (machine : Machine ρ ε κ σ) : Store :=
  match machine.current with
  | some (_, round) => RoundBehavior.store round
  | none => machine.lastStore

/-! ## Steps -/

/-- Ends the current round with the event and the store, or with its own store when none is given.
Without a current round nothing happens. -/
def processEvent (machine : Machine ρ ε κ σ) (event : ε) (result : Option Store) :
    Checked (Except Error Unit × Machine ρ ε κ σ) :=
  match machine.current with
  | none => .ok (.ok (), machine)
  | some (kind, round) =>
    let store := result.getD (RoundBehavior.store round)
    match machine.app.transitions.next? kind event with
    | none => .ok (.ok (), machine.leave kind store)
    | some next =>
      match machine.build next store with
      | .error e => .ok (.error e, machine)
      | .ok successor => do
        let height ← Word.succ machine.height
        let raised := { (machine.leave kind store) with height := height }
        let entered ← raised.enter next successor
        pure (.ok (), entered)

/-- Ends the current round with its own store. -/
def endRound (machine : Machine ρ ε κ σ) (event : ε) :
    Checked (Except Error Unit × Machine ρ ε κ σ) := machine.processEvent event none

/-- The event that has ended the current round. -/
def fire (machine : Machine ρ ε κ σ) (event : ε) (result : Option Store) :
    Checked (Except Error (Option ε) × Machine ρ ε κ σ) := do
  let (answer, after) ← machine.processEvent event result
  pure (answer.map fun _ => some event, after)

/-- Validates a transaction for the current round. -/
def checkTransaction (machine : Machine ρ ε κ σ) (tx : Transaction P) :
    Checked (Except Error Unit) :=
  match machine.current with
  | none => .ok (.error (.internal .noActiveRound))
  | some (_, round) => do
    let answer ← RoundBehavior.check round tx
    pure (answer.mapError .invalidTransaction)

/-- Gives a transaction to the current round. -/
def processTransaction (machine : Machine ρ ε κ σ) (tx : Transaction P) :
    Checked (Except Error Unit × Machine ρ ε κ σ) :=
  match machine.current with
  | none => .ok (.error (.internal .noActiveRound), machine)
  | some (kind, round) => do
    let (answer, after) ← RoundBehavior.process round tx
    pure (answer.mapError .internal, { machine with current := some (kind, after) })

/-- Asks the current round whether it has decided, and moves on if it has. -/
def endBlock (machine : Machine ρ ε κ σ) :
    Checked (Except Error (Option ε) × Machine ρ ε κ σ) :=
  match machine.current with
  | none => .ok (.ok none, machine)
  | some (kind, round) => do
    let (outcome, after) ← RoundBehavior.endBlock round
    let asked := { machine with current := some (kind, after) }
    match outcome with
    | none => pure (.ok none, asked)
    | some (store, event) => asked.fire event (some store)

/-- Feeds a block timestamp. -/
def updateTime (machine : Machine ρ ε κ σ) (timestamp : Duration) :
    Checked (Except Error (Option ε) × Machine ρ ε κ σ) := do
  let stamped := { machine with lastTimestamp := some timestamp }
  let scheduled ← if stamped.awaitsTime then stamped.scheduleTimeouts timestamp else pure stamped
  match scheduled.timeouts.popExpired timestamp with
  | (none, _) => pure (.ok none, scheduled)
  | (some (_, event), rest) =>
    let popped := { scheduled with timeouts := rest }
    popped.fire event none

end Rounds

/-- Holds on to the latest `depth` ended rounds. -/
def cleanup (machine : Machine ρ ε κ σ) (depth : Nat) : Machine ρ ε κ σ :=
  { machine with history := lastItems depth machine.history }

end Machine

end QuorumRounds
