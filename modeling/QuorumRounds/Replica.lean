import QuorumRounds.Block
import QuorumRounds.Machine.Basic

/-! # Replicas

A `Replica` drives a machine block by block, as the consensus engine calls it: a block begins, its
transactions are delivered, it ends, and it is committed or aborted.

* A call at the wrong point of a block, or a height that does not follow the last committed one, is
  refused and changes nothing.
* `Replica.endBlock` ends the block before it asks the machine, so the block is ended also when the
  machine fails.
* `Replica.processBlock` runs a whole block. Transactions that do not decode or validate, or that
  come when no round is active, are left out; any other failure aborts the block.
-/

namespace QuorumRounds
set_option autoImplicit false

/-- The point of a block, with the block in progress. -/
inductive Phase where
  | idle
  | delivering (block : Block)
  | ended (block : Block)
deriving DecidableEq, Repr

/-- How far the block has come. -/
def Phase.stage : Phase → Stage
  | .idle => .idle
  | .delivering _ => .delivering
  | .ended _ => .ended

/-- The block in progress. -/
def Phase.block? : Phase → Option Block
  | .idle => none
  | .delivering block | .ended block => some block

/-- A machine, and the log of the blocks that it has been driven by. -/
structure Replica (ρ ε κ σ : Type) [Ord ρ] [Ord ε] [Ord κ] where
  machine : Machine ρ ε κ σ
  phase : Phase
  /-- Of the last committed block, zero before the first. -/
  height : UInt64
  /-- The committed blocks, oldest first. -/
  blocks : List Block
  /-- Of the last block in which a round followed another. -/
  transitionHeight : UInt64

/-- What happened to the transactions and the round of one block. -/
structure BlockOutcome (ε : Type) where
  rejected : List (Nat × Error)
  event : Option ε

namespace Replica
variable {ρ ε κ σ : Type} [Ord ρ] [Ord ε] [Ord κ]

/-- A replica without any blocks. -/
def ofMachine (machine : Machine ρ ε κ σ) : Replica ρ ε κ σ :=
  { machine := machine
    phase := .idle
    height := 0
    blocks := []
    transitionHeight := 0 }

/-- Answers a call that comes at the wrong point of a block. -/
def refuse {α : Type} (replica : Replica ρ ε κ σ) (request : Request) :
    Checked (Except Error α × Replica ρ ε κ σ) :=
  .ok (.error (.requestNotAllowed request replica.phase.stage), replica)

/-- Sets the machine up, at any point of a block. -/
def setup (replica : Replica ρ ε κ σ) : Checked (Except Error Unit × Replica ρ ε κ σ) := do
  let (answer, machine) ← replica.machine.setup
  pure (answer, { replica with machine := machine })

/-- Appends the block that has ended to the log. -/
def commit (replica : Replica ρ ε κ σ) : Checked (Except Error Unit × Replica ρ ε κ σ) :=
  match replica.phase with
  | .ended block =>
    .ok (.ok (),
      { replica with
        phase := .idle
        height := block.header.height
        blocks := replica.blocks ++ [block] })
  | _ => replica.refuse .commit

/-- Drops the block in progress, so that its height can be started again. -/
def abort (replica : Replica ρ ε κ σ) : Replica ρ ε κ σ := { replica with phase := .idle }

section Rounds
variable {P : Type} [RoundBehavior σ P ε]

/-- The stage is checked first, then the height; then the machine sees the timestamp. -/
def beginBlock (replica : Replica ρ ε κ σ) (header : BlockHeader) :
    Checked (Except Error Unit × Replica ρ ε κ σ) :=
  match replica.phase with
  | .idle => do
    let next ← Word.succ replica.height
    if header.height = next then
      let (answer, machine) ← replica.machine.updateTime header.timestamp
      let timed := { replica with machine := machine }
      match answer with
      | .error e => pure (.error e, timed)
      | .ok event =>
        pure (.ok (),
          { timed with
            phase := .delivering ⟨header, []⟩
            transitionHeight :=
              if event.isSome then header.height else replica.transitionHeight })
    else pure (.error (.heightDoesNotFollow header.height replica.height), replica)
  | _ => replica.refuse .beginBlock

variable [Wire P]

/-- Validates a transaction without changing anything, at any point of a block. -/
def checkTx (replica : Replica ρ ε κ σ) (bytes : List UInt8) : Checked (Except Error Unit) :=
  match Wire.decode (Transaction P) bytes with
  | .error e => .ok (.error e)
  | .ok tx => replica.machine.checkTransaction tx

/-- A transaction that is accepted becomes part of the block, as it was written. -/
def deliverTx (replica : Replica ρ ε κ σ) (bytes : List UInt8) :
    Checked (Except Error Unit × Replica ρ ε κ σ) :=
  match replica.phase with
  | .delivering block =>
    match Wire.decode (Transaction P) bytes with
    | .error e => .ok (.error e, replica)
    | .ok tx => do
      match ← replica.machine.checkTransaction tx with
      | .error e => pure (.error e, replica)
      | .ok () =>
        let (answer, machine) ← replica.machine.processTransaction tx
        let processed := { replica with machine := machine }
        match answer with
        | .error e => pure (.error e, processed)
        | .ok () =>
          let extended := { block with transactions := block.transactions ++ [bytes] }
          pure (.ok (), { processed with phase := .delivering extended })
  | _ => replica.refuse .deliverTx

omit [Wire P] in
/-- Asks the machine whether the current round has decided. -/
def endBlock (replica : Replica ρ ε κ σ) :
    Checked (Except Error (Option ε) × Replica ρ ε κ σ) :=
  match replica.phase with
  | .delivering block => do
    let (answer, machine) ← replica.machine.endBlock
    let ended := { replica with machine := machine, phase := .ended block }
    match answer with
    | .ok (some event) =>
      let height ← Word.succ replica.height
      pure (.ok (some event), { ended with transitionHeight := height })
    | other => pure (other, ended)
  | _ => replica.refuse .endBlock

/-! ## Whole blocks -/

/-- The failures that leave a transaction out of its block. -/
def isRejection : Error → Bool
  | .invalidTransaction _ | .encoding _ | .internal .noActiveRound => true
  | _ => false

/-- Delivers the transactions from the given index on, until one fails otherwise than by rejection.
The answer lists the index and reason of those that were left out. -/
def deliverAll (replica : Replica ρ ε κ σ) (index : Nat) :
    List (List UInt8) → Checked (Except Error (List (Nat × Error)) × Replica ρ ε κ σ)
  | [] => .ok (.ok [], replica)
  | bytes :: rest => do
    let (answer, after) ← replica.deliverTx bytes
    match answer with
    | .ok () => after.deliverAll (index + 1) rest
    | .error e =>
      if isRejection e then
        let (others, last) ← after.deliverAll (index + 1) rest
        pure (others.map ((index, e) :: ·), last)
      else pure (.error e, after)

/-- Delivers, ends and commits a block that has begun. -/
def runBlock (replica : Replica ρ ε κ σ) (transactions : List (List UInt8)) :
    Checked (Except Error (BlockOutcome ε) × Replica ρ ε κ σ) := do
  let (delivered, after) ← replica.deliverAll 0 transactions
  match delivered with
  | .error e => pure (.error e, after)
  | .ok rejected =>
    let (answer, ended) ← after.endBlock
    match answer with
    | .error e => pure (.error e, ended)
    | .ok event =>
      let (answer, committed) ← ended.commit
      pure (answer.map fun _ => ⟨rejected, event⟩, committed)

/-- Begins the block and runs it. A block that fails later than at its beginning is aborted. -/
def processBlock (replica : Replica ρ ε κ σ) (block : Block) :
    Checked (Except Error (BlockOutcome ε) × Replica ρ ε κ σ) := do
  let (answer, begun) ← replica.beginBlock block.header
  match answer with
  | .error e => pure (.error e, begun)
  | .ok () =>
    let (outcome, after) ← begun.runBlock block.transactions
    match outcome with
    | .error e => pure (.error e, after.abort)
    | .ok outcome => pure (.ok outcome, after)

end Rounds

end Replica

end QuorumRounds
