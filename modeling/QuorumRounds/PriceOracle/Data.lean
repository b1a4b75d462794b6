import QuorumRounds.Store.Basic

/-! # What the price oracle keeps in the store

The observations of the latest collection and the latest estimate that was agreed on. Both are read
back with their types checked. -/

namespace QuorumRounds.PriceOracle
set_option autoImplicit false

/-- The key of the latest observations. -/
def observationsKey : String := "participant_to_observations"

/-- The key of the latest estimate. -/
def estimateKey : String := "most_voted_estimate"

/-- The prices by sender, if all of them are numbers. -/
def observations (store : Store) : Except Error (SortedMap String Binary64) := do
  let unexpected : Error := .unexpectedValue observationsKey "a map of observations"
  match (← store.get observationsKey).asMap? with
  | none => throw unexpected
  | some entries =>
    match entries.entries.mapM fun e => e.2.asFloat?.map (e.1, ·) with
    | none => throw unexpected
    | some prices => pure (SortedMap.ofList prices)

/-- The estimate, if it is a number. -/
def mostVotedEstimate (store : Store) : Except Error Binary64 := do
  match (← store.get estimateKey).asFloat? with
  | none => throw (.unexpectedValue estimateKey "a float")
  | some price => pure price

/-- The value that participants are expected to vote on: the mean of the observations. -/
def aggregate (observations : SortedMap String Binary64) : Option Binary64 :=
  Binary64.mean observations.values

end QuorumRounds.PriceOracle
