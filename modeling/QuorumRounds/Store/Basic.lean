import QuorumRounds.Error
import QuorumRounds.Overflow
import QuorumRounds.Value.Basic

/-! # The versioned store

Each period maps keys to the values written to them, oldest first. An operation returns a new store
and leaves the old one as it was, so that a round keeps the store it was built from.

* `Store.update` appends to the histories of the current period.
* `Store.create` opens the next period, which holds the setup data and the carried keys.
* `Store.cleanup` forgets old periods, and old values of the current period.
-/

namespace QuorumRounds
set_option autoImplicit false

/-- A period's values of each key, oldest first. -/
abbrev Period := SortedMap String (List Value)

/-- The setup data, and what has been written in each period that is still held. -/
structure Store where
  setup : SortedMap String Value
  periods : SortedMap UInt64 Period
  period : UInt64

/-- The key under which the store holds the participants of the rounds. -/
def participantsKey : String := "participants"

/-- The participants as the store holds them. -/
def participantsValue (participants : List String) : Value := .list (participants.map .text)

/-- The last `n` items, or all if there are fewer. -/
def lastItems {α : Type} (n : Nat) (items : List α) : List α := items.drop (items.length - n)

namespace Store

/-- A period in which every key has been written once, with its setup value. -/
def seed (setup : SortedMap String Value) : Period := setup.mapValues fun value => [value]

/-- A store in its first period, which is number zero. -/
def ofSetup (setup : SortedMap String Value) : Store where
  setup := setup
  periods := SortedMap.insert ∅ 0 (seed setup)
  period := 0

/-- The period that is written to. -/
def current? (store : Store) : Option Period := store.periods.get? store.period

/-! ## Reads -/

/-- The values of a key in the current period, oldest first. -/
def history? (store : Store) (key : String) : Option (List Value) :=
  store.current?.bind (·.get? key)

/-- The latest value of a key in the current period. -/
def get? (store : Store) (key : String) : Option Value :=
  (store.history? key).bind List.getLast?

/-- A key that has not been written in the current period is not found. -/
def get (store : Store) (key : String) : Except Error Value :=
  match store.get? key with
  | some value => .ok value
  | none => .error (.keyNotFound key)

/-- The latest value of every key in the current period. -/
def latest (store : Store) : SortedMap String Value :=
  (store.current?.getD ∅).filterMap fun _ history => history.getLast?

/-- The periods still held, oldest first. -/
def heldPeriods (store : Store) : List UInt64 := store.periods.keys

/-- The participants, if they are stored as a list of texts. -/
def participants (store : Store) : Except Error (SortedSet String) := do
  let unexpected : Error := .unexpectedValue participantsKey "a list of addresses"
  match (← store.get participantsKey).asList? with
  | none => throw unexpected
  | some items =>
    match items.mapM Value.asText? with
    | none => throw unexpected
    | some addresses => pure (SortedSet.ofList addresses)

/-! ## Writes -/

/-- One more value of a key. -/
def append (period : Period) (key : String) (value : Value) : Period :=
  period.insert key (((period.get? key).getD []) ++ [value])

/-- Appends the values in their order, all to the current period. -/
def update (store : Store) (updates : List (String × Value)) : Store :=
  let period := updates.foldl (fun p u => append p u.1 u.2) (store.current?.getD ∅)
  { store with periods := store.periods.insert store.period period }

/-- The next period: the setup data, and over it the latest values of the carried keys. -/
def carried (store : Store) (keys : List String) : Period :=
  keys.foldl (fun period key =>
    match store.get? key with
    | some value => period.insert key [value]
    | none => period) (seed store.setup)

/-- Opens the next period. -/
def create (store : Store) (keys : List String) : Checked Store := do
  let next ← Word.succ store.period
  pure { store with periods := store.periods.insert next (store.carried keys), period := next }

/-- Holds on to the latest `periodDepth` periods, at least the current one, and to the latest
`historyDepth` values of each key of the current period, at least one. -/
def cleanup (store : Store) (periodDepth : Nat) (historyDepth : Option Nat) : Store :=
  let keepFrom := store.period.toNat - (max periodDepth 1 - 1)
  let held := store.periods.filterKeys fun period => decide (keepFrom ≤ period.toNat)
  match historyDepth, held.get? store.period with
  | some depth, some period =>
    { store with
      periods := held.insert store.period (period.mapValues (lastItems (max depth 1))) }
  | _, _ => { store with periods := held }

end Store

end QuorumRounds
