import QuorumRounds.Machine.Calls
import QuorumRounds.Replica.Calls

/-! # Runs that number their timeouts

A run in which a word overflows has no result. Two kinds of arithmetic are done on natural numbers or
not at all by a machine, because no result depends on them: the sums by which a round finds out
whether a majority is still possible, and the numbers of the timeouts. A `Numbered` replica does them
as well, on words, so that a numbered run has a result only if they do not overflow either.

* `Machine.scheduledSince`, `Machine.scheduledBySetup`: how many timeouts a step has scheduled.
* `Numbered.serve`: serves a demand, which is a call of the replica or a setup of its machine.
* `Numbered.run`: serves one after the other.
-/

namespace QuorumRounds
set_option autoImplicit false

variable {ρ ε κ σ P : Type} [Ord ρ] [Ord ε] [Ord κ]

/-! ## Demands -/

/-- A call of the replica, or a setup of its machine. -/
inductive Demand where
  | setup
  | call (call : Replica.Call)
deriving DecidableEq, Repr

/-- The timestamps that come with it. -/
def Demand.timestamps : Demand → List Duration
  | .call (.beginBlock header) => [header.timestamp]
  | .call (.processBlock block) => [block.header.timestamp]
  | _ => []

namespace Replica
variable [RoundBehavior σ P ε] [Wire P]

/-- The replica after a demand, whatever it has answered. -/
def serve (replica : Replica ρ ε κ σ) : Demand → Checked (Replica ρ ε κ σ)
  | .setup => replica.setup.map (·.2)
  | .call call => replica.call call

/-- The replica after the demands. -/
def serveAll (replica : Replica ρ ε κ σ) (demands : List Demand) : Checked (Replica ρ ε κ σ) :=
  demands.foldlM serve replica

end Replica

/-! ## How many timeouts are scheduled -/

namespace Machine

/-- How many timeouts the current round has. -/
def countdowns (machine : Machine ρ ε κ σ) : Nat :=
  match machine.currentKind with
  | none => 0
  | some kind => (machine.app.timeoutEvents kind).length

/-- How many timeouts have been scheduled between two states of a machine, one step apart: those of
the round before, if it waits no longer, and those of another round, which has raised the height. -/
def scheduledSince (before after : Machine ρ ε κ σ) : Nat :=
  (if before.awaitsTime && !after.awaitsTime then before.countdowns else 0) +
    if after.height = before.height then 0 else after.timeouts.size

/-- A setup that succeeds enters a round, also at the same height. -/
def scheduledBySetup (answer : Except Error Unit) (after : Machine ρ ε κ σ) : Nat :=
  match answer with
  | .ok _ => after.timeouts.size
  | .error _ => 0

end Machine

/-! ## Numbered replicas -/

/-- A replica, and the numbers that it gives to its timeouts. -/
structure Numbered (ρ ε κ σ : Type) [Ord ρ] [Ord ε] [Ord κ] where
  replica : Replica ρ ε κ σ
  /-- Of the next timeout that is scheduled. -/
  next : UInt64

namespace Numbered

/-- The numbers of the timeouts that have been scheduled on the way are used up. -/
def moveOn (numbered : Numbered ρ ε κ σ) (after : Replica ρ ε κ σ) (scheduled : Nat) :
    Checked (Numbered ρ ε κ σ) :=
  (Word.advance numbered.next scheduled).map fun next => ⟨after, next⟩

/-- A setup schedules the timeouts of the initial round. -/
def setup (numbered : Numbered ρ ε κ σ) : Checked (Numbered ρ ε κ σ) := do
  let (answer, after) ← numbered.replica.setup
  numbered.moveOn after (after.machine.scheduledBySetup answer)

section Rounds
variable [RoundBehavior σ P ε]

/-- A timestamp schedules what has waited for it, and the timeouts of a round that it leads to. -/
def beginBlock (numbered : Numbered ρ ε κ σ) (header : BlockHeader) :
    Checked (Except Error Unit × Numbered ρ ε κ σ) := do
  let (answer, after) ← numbered.replica.beginBlock header
  let counted ← numbered.moveOn after (numbered.replica.machine.scheduledSince after.machine)
  pure (answer, counted)

/-- The sum that the current round makes, if there is one. -/
def sumOf (sum : σ → Checked UInt64) (machine : Machine ρ ε κ σ) : Checked (Option UInt64) :=
  match machine.currentRound with
  | none => .ok none
  | some round => (sum round).map some

/-- A round that has not decided makes its sum. -/
def endBlock (sum : σ → Checked UInt64) (numbered : Numbered ρ ε κ σ) :
    Checked (Except Error (Option ε) × Numbered ρ ε κ σ) := do
  let _ ← sumOf sum numbered.replica.machine
  let (answer, after) ← numbered.replica.endBlock
  let counted ← numbered.moveOn after (numbered.replica.machine.scheduledSince after.machine)
  pure (answer, counted)

variable [Wire P]

/-- Delivers, ends and commits a block that has begun. -/
def runBlock (sum : σ → Checked UInt64) (numbered : Numbered ρ ε κ σ)
    (transactions : List (List UInt8)) :
    Checked (Except Error (BlockOutcome ε) × Numbered ρ ε κ σ) := do
  let (delivered, taken) ← numbered.replica.deliverAll 0 transactions
  match delivered with
  | .error e => pure (.error e, ⟨taken, numbered.next⟩)
  | .ok rejected =>
    let (answer, ended) ← endBlock sum ⟨taken, numbered.next⟩
    match answer with
    | .error e => pure (.error e, ended)
    | .ok event =>
      let (answer, committed) ← ended.replica.commit
      pure (answer.map fun _ => ⟨rejected, event⟩, ⟨committed, ended.next⟩)

/-- Runs a whole block. -/
def processBlock (sum : σ → Checked UInt64) (numbered : Numbered ρ ε κ σ) (block : Block) :
    Checked (Except Error (BlockOutcome ε) × Numbered ρ ε κ σ) := do
  let (answer, begun) ← numbered.beginBlock block.header
  match answer with
  | .error e => pure (.error e, begun)
  | .ok () =>
    let (outcome, after) ← begun.runBlock sum block.transactions
    match outcome with
    | .error e => pure (.error e, ⟨after.replica.abort, after.next⟩)
    | .ok outcome => pure (.ok outcome, after)

/-- Only setups, timestamps and the ends of blocks schedule timeouts. -/
def serve (sum : σ → Checked UInt64) (numbered : Numbered ρ ε κ σ) :
    Demand → Checked (Numbered ρ ε κ σ)
  | .setup => numbered.setup
  | .call (.beginBlock header) => (numbered.beginBlock header).map (·.2)
  | .call .endBlock => (numbered.endBlock sum).map (·.2)
  | .call (.processBlock block) => (numbered.processBlock sum block).map (·.2)
  | .call call => (numbered.replica.call call).map fun after => ⟨after, numbered.next⟩

/-- The demands one after the other. -/
def run (sum : σ → Checked UInt64) (numbered : Numbered ρ ε κ σ) (demands : List Demand) :
    Checked (Numbered ρ ε κ σ) :=
  demands.foldlM (serve sum) numbered

end Rounds

end Numbered

end QuorumRounds
