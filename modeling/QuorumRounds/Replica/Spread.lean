import QuorumRounds.Machine.Spread
import QuorumRounds.Replica.Calls

/-! # The replica with its fields spread out

A `Replica` knows the block in progress by the point that it has reached. A `SpreadReplica` has a field
for the stage and a field for the block, and its calls write them one after the other. Its machine is
one whose fields are spread out as well.

* `SpreadReplica.atStage`: a request looks at the stage alone.
* `Replica.spread`: the replica with its fields spread out.
-/

namespace QuorumRounds
set_option autoImplicit false

/-- A machine and its log, field by field. -/
structure SpreadReplica (ρ ε κ σ : Type) [Ord ρ] [Ord ε] [Ord κ] where
  machine : SpreadMachine ρ ε κ σ
  /-- How far the block in progress has come. -/
  stage : Stage
  /-- The block in progress. -/
  block : Option Block
  height : UInt64
  blocks : List Block
  transitionHeight : UInt64

/-- The replica, field by field. -/
def Replica.spread {ρ ε κ σ : Type} [Ord ρ] [Ord ε] [Ord κ] (replica : Replica ρ ε κ σ) :
    SpreadReplica ρ ε κ σ where
  machine := replica.machine.spread
  stage := replica.phase.stage
  block := replica.phase.block?
  height := replica.height
  blocks := replica.blocks
  transitionHeight := replica.transitionHeight

namespace SpreadReplica
variable {ρ ε κ σ : Type} [Ord ρ] [Ord ε] [Ord κ]

/-- Makes a request that is allowed at this stage only. -/
def atStage {α : Type} (replica : SpreadReplica ρ ε κ σ) (stage : Stage) (request : Request)
    (made : Checked (Except Error α × SpreadReplica ρ ε κ σ)) :
    Checked (Except Error α × SpreadReplica ρ ε κ σ) :=
  if replica.stage = stage then made
  else .ok (.error (.requestNotAllowed request replica.stage), replica)

/-- Takes the block away and appends it to the log, if there is one. -/
def commit (replica : SpreadReplica ρ ε κ σ) :
    Checked (Except Error Unit × SpreadReplica ρ ε κ σ) :=
  replica.atStage .ended .commit <|
    let committed :=
      match replica.block with
      | some block =>
        { replica with
          block := none
          height := block.header.height
          blocks := replica.blocks ++ [block] }
      | none => replica
    .ok (.ok (), { committed with stage := .idle })

/-- Takes the block away, if there is one. -/
def abort (replica : SpreadReplica ρ ε κ σ) : SpreadReplica ρ ε κ σ :=
  { replica with block := none, stage := .idle }

section Rounds
variable {P : Type} [RoundBehavior σ P ε]

/-- The transition height, the block and the stage are written once the machine has answered. -/
def beginBlock (replica : SpreadReplica ρ ε κ σ) (header : BlockHeader) :
    Checked (Except Error Unit × SpreadReplica ρ ε κ σ) :=
  replica.atStage .idle .beginBlock do
    let next ← Word.succ replica.height
    if header.height = next then
      let (answer, machine) ← replica.machine.updateTime header.timestamp
      let timed := { replica with machine := machine }
      match answer with
      | .error e => pure (.error e, timed)
      | .ok event =>
        let moved := if event.isSome then { timed with transitionHeight := header.height } else timed
        pure (.ok (), { moved with block := some ⟨header, []⟩, stage := .delivering })
    else pure (.error (.heightDoesNotFollow header.height replica.height), replica)

variable [Wire P]

/-- Validates a transaction. -/
def checkTx (replica : SpreadReplica ρ ε κ σ) (bytes : List UInt8) : Checked (Except Error Unit) :=
  match Wire.decode (Transaction P) bytes with
  | .error e => .ok (.error e)
  | .ok tx => replica.machine.checkTransaction tx

/-- A transaction that is accepted is appended to the block in progress, if there is one. -/
def deliverTx (replica : SpreadReplica ρ ε κ σ) (bytes : List UInt8) :
    Checked (Except Error Unit × SpreadReplica ρ ε κ σ) :=
  replica.atStage .delivering .deliverTx <|
    match Wire.decode (Transaction P) bytes with
    | .error e => .ok (.error e, replica)
    | .ok tx => do
      match ← replica.machine.checkTransaction tx with
      | .error e => pure (.error e, replica)
      | .ok () =>
        let (answer, machine) ← replica.machine.processTransaction tx
        let processed := { replica with machine := machine }
        match answer with
        | .error e => pure (.error e, processed)
        | .ok () =>
          pure (.ok (),
            { processed with
              block := replica.block.map fun block =>
                { block with transactions := block.transactions ++ [bytes] } })

omit [Wire P] in
/-- The stage is written before the machine is asked. -/
def endBlock (replica : SpreadReplica ρ ε κ σ) :
    Checked (Except Error (Option ε) × SpreadReplica ρ ε κ σ) :=
  replica.atStage .delivering .endBlock do
    let ended := { replica with stage := .ended }
    let (answer, machine) ← ended.machine.endBlock
    let asked := { ended with machine := machine }
    match answer with
    | .ok (some event) =>
      let height ← Word.succ asked.height
      pure (.ok (some event), { asked with transitionHeight := height })
    | other => pure (other, asked)

/-! ## Whole blocks -/

/-- Delivers the transactions from the given index on. -/
def deliverAll (replica : SpreadReplica ρ ε κ σ) (index : Nat) :
    List (List UInt8) → Checked (Except Error (List (Nat × Error)) × SpreadReplica ρ ε κ σ)
  | [] => .ok (.ok [], replica)
  | bytes :: rest => do
    let (answer, after) ← replica.deliverTx bytes
    match answer with
    | .ok () => after.deliverAll (index + 1) rest
    | .error e =>
      if Replica.isRejection e then
        let (others, last) ← after.deliverAll (index + 1) rest
        pure (others.map ((index, e) :: ·), last)
      else pure (.error e, after)

/-- Delivers, ends and commits a block that has begun. -/
def runBlock (replica : SpreadReplica ρ ε κ σ) (transactions : List (List UInt8)) :
    Checked (Except Error (BlockOutcome ε) × SpreadReplica ρ ε κ σ) := do
  let (delivered, after) ← replica.deliverAll 0 transactions
  match delivered with
  | .error e => pure (.error e, after)
  | .ok rejected =>
    let (answer, ended) ← after.endBlock
    match answer with
    | .error e => pure (.error e, ended)
    | .ok event =>
      let (answer, committed) ← ended.commit
      pure (answer.map fun _ => ⟨rejected, event⟩, committed)

/-- Begins the block and runs it, and aborts it where it fails. -/
def processBlock (replica : SpreadReplica ρ ε κ σ) (block : Block) :
    Checked (Except Error (BlockOutcome ε) × SpreadReplica ρ ε κ σ) := do
  let (answer, begun) ← replica.beginBlock block.header
  match answer with
  | .error e => pure (.error e, begun)
  | .ok () =>
    let (outcome, after) ← begun.runBlock block.transactions
    match outcome with
    | .error e => pure (.error e, after.abort)
    | .ok outcome => pure (.ok outcome, after)

/-! ## Calls -/

/-- Makes a call, and gives its answer. -/
def reply (replica : SpreadReplica ρ ε κ σ) :
    Replica.Call → Checked (Except Error Unit × SpreadReplica ρ ε κ σ)
  | .beginBlock header => replica.beginBlock header
  | .checkTx bytes => (replica.checkTx bytes).map fun answer => (answer, replica)
  | .deliverTx bytes => replica.deliverTx bytes
  | .endBlock => replica.endBlock.map fun (answer, after) => (answer.map fun _ => (), after)
  | .commit => replica.commit
  | .abort => .ok (.ok (), replica.abort)
  | .processBlock block =>
    (replica.processBlock block).map fun (answer, after) => (answer.map fun _ => (), after)

/-- The calls one after the other, each with its answer, and the replica after all of them. -/
def transcript (replica : SpreadReplica ρ ε κ σ) :
    List Replica.Call → Checked (List Replica.Entry × SpreadReplica ρ ε κ σ)
  | [] => .ok ([], replica)
  | call :: calls => do
    let (answer, next) ← replica.reply call
    let (entries, last) ← next.transcript calls
    pure (⟨call, answer⟩ :: entries, last)

end Rounds

end SpreadReplica

end QuorumRounds
