import QuorumRounds.Machine.Basic
import QuorumRounds.Round.Ballot
import QuorumRounds.Round.Gathering

/-! # Applications written down as data

A `Workflow` lists rounds and events by name. Each round has a plan: which payloads it takes and by
what rule it decides, on which events it ends, which keys the store must hold before it is entered,
and what it writes besides its outcome. A jammed round refuses every payload while processing it. -/

namespace QuorumRounds
set_option autoImplicit false

namespace Workflow

/-- By what rule a round decides. -/
inductive Rule where
  | sameUntilThreshold
  | differentUntil (quota : Quota)
deriving DecidableEq, Repr

/-- What a round takes, when it ends and what it leaves in the store. -/
structure Plan (κ : Type) where
  rule : Rule
  allowed : κ
  done : String
  noMajority : String
  needs : List String
  writes : List (String × Value)
  jammed : Bool

/-- The payloads of a round, gathered by its rule. -/
inductive Collecting (κ : Type) [Ord κ] where
  | ballot (ballot : Ballot (Attributed κ) κ)
  | gathering (gathering : Gathering (Attributed κ) κ)

/-- A plan, and the payloads that have come in. -/
structure Round (κ : Type) [Ord κ] where
  plan : Plan κ
  collecting : Collecting κ

/-- One store entry: the attributes of each payload, by sender. -/
def collectedUpdates {κ : Type} (collection : SortedMap String (Attributed κ)) :
    List (String × Value) :=
  [("collected", .ofMap (collection.mapValues fun payload => .ofMap payload.attributes))]

namespace Collecting
variable {κ : Type} [Ord κ]

/-- Nobody has sent anything. -/
def ofContext (rule : Rule) (roundId : String) (allowed : κ) (context : RoundContext κ) :
    Except Error (Collecting κ) :=
  match rule with
  | .sameUntilThreshold => (Ballot.ofContext roundId allowed context).map .ballot
  | .differentUntil quota => (Gathering.ofContext quota roundId allowed context).map .gathering

/-- What is asked of the participants. -/
def poll : Collecting κ → Poll κ
  | .ballot b => b.poll
  | .gathering g => g.poll

/-- Whether the rule can still be satisfied. -/
def isMajorityPossible : Collecting κ → Checked Bool
  | .ballot b => b.isMajorityPossible
  | .gathering g => g.isMajorityPossible

variable [DecidableEq κ] [Named κ]

/-- Validates a transaction. -/
def check (collecting : Collecting κ) (tx : Transaction (Attributed κ)) : Except Rejection Unit :=
  match collecting with
  | .ballot b => b.check tx
  | .gathering g => g.check tx

/-- Takes a transaction. -/
def process (collecting : Collecting κ) (tx : Transaction (Attributed κ)) :
    Except InternalError (Collecting κ) :=
  match collecting with
  | .ballot b => (b.process tx).map .ballot
  | .gathering g => (g.process tx).map .gathering

omit [Named κ] in
/-- The decision, with the store entries that its outcome leaves behind. -/
def decide (collecting : Collecting κ) :
    Checked (Decision (List (String × Value)) × Collecting κ) :=
  match collecting with
  | .ballot b =>
    b.decide.map fun (decision, after) => (decision.map mostVotedUpdates, .ballot after)
  | .gathering g =>
    g.decide.map fun (decision, after) => (decision.map collectedUpdates, .gathering after)

end Collecting

namespace Round
variable {κ : Type} [Ord κ]

/-- The store that the round was built from. -/
def store (round : Round κ) : Store := round.collecting.poll.store

/-- The needed keys are looked up in their order, before the participants. -/
def ofContext (plan : Plan κ) (roundId : String) (context : RoundContext κ) :
    Except Error (Round κ) := do
  plan.needs.forM fun key => discard (context.store.get key)
  let collecting ← Collecting.ofContext plan.rule roundId plan.allowed context
  pure ⟨plan, collecting⟩

variable [DecidableEq κ] [Named κ]

/-- A jammed round looks at no payload. -/
def process (round : Round κ) (tx : Transaction (Attributed κ)) :
    Except InternalError Unit × Round κ :=
  if round.plan.jammed then (.error .notEnoughVotes, round)
  else
    answered round ((round.collecting.process tx).map fun collecting =>
      { round with collecting := collecting })

omit [Named κ] in
/-- Without a majority the store is handed on as it is. -/
def endBlock (round : Round κ) : Checked (Option (Store × String) × Round κ) := do
  let (decision, collecting) ← round.collecting.decide
  let after := { round with collecting := collecting }
  match decision with
  | .pending => pure (none, after)
  | .noMajority => pure (some (round.store, round.plan.noMajority), after)
  | .reached entries =>
    pure (some (round.store.update (entries ++ round.plan.writes), round.plan.done), after)

instance : RoundBehavior (Round κ) (Attributed κ) String where
  id round := round.collecting.poll.roundId
  store := store
  check round tx := .ok (round.collecting.check tx)
  process round tx := .ok (round.process tx)
  endBlock := endBlock
  isMajorityPossible round := round.collecting.isMajorityPossible

end Round

end Workflow

/-- Rounds and events by name, with the edges between them. -/
structure Workflow (κ : Type) where
  initial : String
  finals : SortedSet String
  edges : List (String × String × String)
  timeouts : SortedMap String Duration
  rounds : SortedMap String (Workflow.Plan κ)

namespace Workflow
variable {κ : Type} [Ord κ]

/-- A round without a plan cannot be built. -/
def build (workflow : Workflow κ) (round : String) (context : RoundContext κ) :
    Except Error (Round κ) :=
  match workflow.rounds.get? round with
  | some plan => Round.ofContext plan round context
  | none => .error (.keyNotFound round)

/-- The application that is written down. -/
def application (workflow : Workflow κ) : Application String String κ (Round κ) where
  initial := workflow.initial
  finals := workflow.finals
  transitions := .ofList workflow.edges
  timeouts := workflow.timeouts
  crossPeriodKeys := []
  build := workflow.build

end Workflow

end QuorumRounds
