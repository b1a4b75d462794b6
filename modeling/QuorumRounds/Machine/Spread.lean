import QuorumRounds.Machine.Calls

/-! # The machine with its fields spread out

A `Machine` keeps what belongs together in one field: the current round with its kind, and the kind of
each round that has ended with its result. A `SpreadMachine` has a field for each of them, and its
calls write them one after the other.

* The round and its kind are two options. A round that ends is taken away first; its kind is cleared
  only when the machine stops.
* The kinds and the results of the rounds that have ended are two lists, which every call extends,
  trims and clears separately.
* `Machine.spread`: the machine with its fields spread out.
-/

namespace QuorumRounds
set_option autoImplicit false

/-- The state of a run, field by field. -/
structure SpreadMachine (ρ ε κ σ : Type) [Ord ρ] [Ord ε] [Ord κ] where
  app : Application ρ ε κ σ
  config : Config ρ
  registry : Registry κ
  setupStore : Store
  lastStore : Store
  /-- The round in progress. -/
  round : Option σ
  /-- Its kind. -/
  kind : Option ρ
  height : UInt64
  /-- The kinds of the rounds that have ended, oldest first. -/
  previousRounds : List ρ
  /-- The stores that they have handed on. -/
  roundResults : List Store
  timeouts : Timeouts ε
  awaitsTime : Bool
  lastTimestamp : Option Duration

/-- The machine, field by field. -/
def Machine.spread {ρ ε κ σ : Type} [Ord ρ] [Ord ε] [Ord κ] (machine : Machine ρ ε κ σ) :
    SpreadMachine ρ ε κ σ where
  app := machine.app
  config := machine.config
  registry := machine.registry
  setupStore := machine.setupStore
  lastStore := machine.lastStore
  round := machine.currentRound
  kind := machine.currentKind
  height := machine.height
  previousRounds := machine.previousRounds
  roundResults := machine.roundResults
  timeouts := machine.timeouts
  awaitsTime := machine.awaitsTime
  lastTimestamp := machine.lastTimestamp

namespace SpreadMachine
variable {ρ ε κ σ : Type} [Ord ρ] [Ord ε] [Ord κ]

/-- Builds a round of this kind. -/
def build (machine : SpreadMachine ρ ε κ σ) (kind : ρ) (store : Store) : Except Error σ :=
  machine.app.buildOn machine.config machine.registry kind store

/-- Schedules the timeouts of the current kind. -/
def scheduleTimeouts (machine : SpreadMachine ρ ε κ σ) (now : Duration) :
    Checked (SpreadMachine ρ ε κ σ) :=
  let scheduled := { machine with awaitsTime := false }
  match scheduled.kind with
  | none => .ok scheduled
  | some kind =>
    (machine.app.schedule now scheduled.timeouts (machine.app.transitions.eventsFrom kind)).map
      fun timeouts => { scheduled with timeouts := timeouts }

/-- Makes the round the current one. -/
def enter (machine : SpreadMachine ρ ε κ σ) (kind : ρ) (round : σ) :
    Checked (SpreadMachine ρ ε κ σ) :=
  let entered := { machine with round := some round, kind := some kind, timeouts := ∅ }
  match entered.lastTimestamp with
  | some now => entered.scheduleTimeouts now
  | none => .ok { entered with awaitsTime := true }

/-- Forgets the rounds that have ended. -/
def cleared (machine : SpreadMachine ρ ε κ σ) : SpreadMachine ρ ε κ σ :=
  { machine with
    height := 0
    previousRounds := []
    roundResults := []
    lastStore := machine.setupStore }

/-- Enters the initial round, if it can be built on the store of the setup. -/
def setup (machine : SpreadMachine ρ ε κ σ) :
    Checked (Except Error Unit × SpreadMachine ρ ε κ σ) :=
  match machine.cleared.build machine.app.initial machine.setupStore with
  | .error e => .ok (.error e, machine.cleared)
  | .ok round =>
    (machine.cleared.enter machine.app.initial round).map fun entered => (.ok (), entered)

/-- Keeps the latest kinds, and the latest results. -/
def cleanup (machine : SpreadMachine ρ ε κ σ) (depth : Nat) : SpreadMachine ρ ε κ σ :=
  { machine with
    previousRounds := lastItems depth machine.previousRounds
    roundResults := lastItems depth machine.roundResults }

section Rounds
variable {P : Type} [RoundBehavior σ P ε]

/-- Ends the round in progress. It is looked for under both fields, and its successor is built before
either is written. -/
def processEvent (machine : SpreadMachine ρ ε κ σ) (event : ε) (result : Option Store) :
    Checked (Except Error Unit × SpreadMachine ρ ε κ σ) :=
  match machine.kind, machine.round with
  | some kind, some round =>
    let store := result.getD (RoundBehavior.store round)
    let left :=
      { machine with
        round := none
        previousRounds := machine.previousRounds ++ [kind]
        roundResults := machine.roundResults ++ [store]
        lastStore := store
        timeouts := ∅ }
    match machine.app.transitions.next? kind event with
    | none => .ok (.ok (), { left with kind := none })
    | some next =>
      match machine.build next store with
      | .error e => .ok (.error e, machine)
      | .ok successor => do
        let height ← Word.succ left.height
        let entered ← enter { left with height := height } next successor
        pure (.ok (), entered)
  | _, _ => .ok (.ok (), machine)

/-- The event that has ended the round in progress. -/
def fire (machine : SpreadMachine ρ ε κ σ) (event : ε) (result : Option Store) :
    Checked (Except Error (Option ε) × SpreadMachine ρ ε κ σ) := do
  let (answer, after) ← machine.processEvent event result
  pure (answer.map fun _ => some event, after)

/-- Validates a transaction for the round in progress, whatever its kind. -/
def checkTransaction (machine : SpreadMachine ρ ε κ σ) (tx : Transaction P) :
    Checked (Except Error Unit) :=
  match machine.round with
  | none => .ok (.error (.internal .noActiveRound))
  | some round => do
    let answer ← RoundBehavior.check round tx
    pure (answer.mapError .invalidTransaction)

/-- Gives a transaction to the round in progress. -/
def processTransaction (machine : SpreadMachine ρ ε κ σ) (tx : Transaction P) :
    Checked (Except Error Unit × SpreadMachine ρ ε κ σ) :=
  match machine.round with
  | none => .ok (.error (.internal .noActiveRound), machine)
  | some round => do
    let (answer, after) ← RoundBehavior.process round tx
    pure (answer.mapError .internal, { machine with round := some after })

/-- Asks the round in progress whether it has decided. -/
def endBlock (machine : SpreadMachine ρ ε κ σ) :
    Checked (Except Error (Option ε) × SpreadMachine ρ ε κ σ) :=
  match machine.round with
  | none => .ok (.ok none, machine)
  | some round => do
    let (outcome, after) ← RoundBehavior.endBlock round
    let asked := { machine with round := some after }
    match outcome with
    | none => pure (.ok none, asked)
    | some (store, event) => asked.fire event (some store)

/-- Fires the earliest pending timeout if it is due. -/
def expire (machine : SpreadMachine ρ ε κ σ) (now : Duration) :
    Checked (Except Error (Option ε) × SpreadMachine ρ ε κ σ) :=
  match machine.timeouts.popExpired now with
  | (none, _) => .ok (.ok none, machine)
  | (some (_, event), rest) => fire { machine with timeouts := rest } event none

/-- Feeds a block timestamp. -/
def updateTime (machine : SpreadMachine ρ ε κ σ) (timestamp : Duration) :
    Checked (Except Error (Option ε) × SpreadMachine ρ ε κ σ) :=
  let stamped := { machine with lastTimestamp := some timestamp }
  if stamped.awaitsTime then do
    let scheduled ← stamped.scheduleTimeouts timestamp
    scheduled.expire timestamp
  else stamped.expire timestamp

/-! ## Calls -/

/-- Makes the call. The answer names the event on which the round has ended by itself. -/
def ask (machine : SpreadMachine ρ ε κ σ) :
    Machine.Call ε P → Checked (Except Error (Option ε) × SpreadMachine ρ ε κ σ)
  | .setup => machine.setup.map fun (answer, after) => (answer.map fun _ => none, after)
  | .processTransaction tx =>
    (machine.processTransaction tx).map fun (answer, after) => (answer.map fun _ => none, after)
  | .processEvent event result =>
    (machine.processEvent event result).map fun (answer, after) => (answer.map fun _ => none, after)
  | .endBlock => machine.endBlock
  | .updateTime now => machine.updateTime now
  | .cleanup depth => .ok (.ok none, machine.cleanup depth)

/-- The calls one after the other, each with its answer, and the machine after all of them. -/
def transcript (machine : SpreadMachine ρ ε κ σ) : List (Machine.Call ε P) →
    Checked (List (Machine.Call ε P × Except Error (Option ε)) × SpreadMachine ρ ε κ σ)
  | [] => .ok ([], machine)
  | call :: calls => do
    let (answer, next) ← machine.ask call
    let (replies, last) ← next.transcript calls
    pure ((call, answer) :: replies, last)

end Rounds

end SpreadMachine

end QuorumRounds
