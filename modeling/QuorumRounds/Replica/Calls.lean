import QuorumRounds.Replica

/-! # All that can be called on a replica

A `Call` is a call with its arguments. Calls may come in any order and with any arguments; a refused
call is a call as well.

* `Replica.reply`: makes a call, and gives its answer.
* `Replica.call`, `Replica.run`: the replica after a call, and after a list of them.
* `Replica.transcript`: makes calls in their order, and keeps the answers.
* `Replica.processAll`: processes whole blocks, and lists what became of each.
-/

namespace QuorumRounds.Replica
set_option autoImplicit false

variable {ρ ε κ σ P : Type} [Ord ρ] [Ord ε] [Ord κ] [RoundBehavior σ P ε] [Wire P]

/-- What the consensus engine calls. -/
inductive Call where
  | beginBlock (header : BlockHeader)
  | checkTx (bytes : List UInt8)
  | deliverTx (bytes : List UInt8)
  | endBlock
  | commit
  | abort
  | processBlock (block : Block)
deriving DecidableEq, Repr

namespace Call

/-- The calls that drive a block from its beginning to its commit. -/
def isStep : Call → Bool
  | .abort | .processBlock _ => false
  | _ => true

/-- The calls that do one thing. -/
def isSingle : Call → Bool
  | .processBlock _ => false
  | _ => true

/-- What is asked for, where it is allowed only at a certain point of a block. -/
def request? : Call → Option Request
  | .beginBlock _ => some .beginBlock
  | .deliverTx _ => some .deliverTx
  | .endBlock => some .endBlock
  | .commit => some .commit
  | _ => none

end Call

/-- The replica after a call, whatever the call has answered. -/
def call (replica : Replica ρ ε κ σ) : Call → Checked (Replica ρ ε κ σ)
  | .beginBlock header => (replica.beginBlock header).map (·.2)
  | .checkTx bytes => (replica.checkTx bytes).map fun _ => replica
  | .deliverTx bytes => (replica.deliverTx bytes).map (·.2)
  | .endBlock => replica.endBlock.map (·.2)
  | .commit => replica.commit.map (·.2)
  | .abort => .ok replica.abort
  | .processBlock block => (replica.processBlock block).map (·.2)

/-- The replica after the calls. -/
def run (replica : Replica ρ ε κ σ) (calls : List Call) : Checked (Replica ρ ε κ σ) :=
  calls.foldlM call replica

/-- The blocks one after the other, each with what became of it. -/
def processAll (replica : Replica ρ ε κ σ) :
    List Block → Checked (List (Except Error (BlockOutcome ε)) × Replica ρ ε κ σ)
  | [] => .ok ([], replica)
  | block :: rest => do
    let (outcome, next) ← replica.processBlock block
    let (others, last) ← next.processAll rest
    pure (outcome :: others, last)

/-! ## Answers -/

/-- Makes a call. The event of a block that ends is left out of the answer. -/
def reply (replica : Replica ρ ε κ σ) : Call → Checked (Except Error Unit × Replica ρ ε κ σ)
  | .beginBlock header => replica.beginBlock header
  | .checkTx bytes => (replica.checkTx bytes).map fun answer => (answer, replica)
  | .deliverTx bytes => replica.deliverTx bytes
  | .endBlock => replica.endBlock.map fun (answer, after) => (answer.map fun _ => (), after)
  | .commit => replica.commit
  | .abort => .ok (.ok (), replica.abort)
  | .processBlock block =>
    (replica.processBlock block).map fun (answer, after) => (answer.map fun _ => (), after)

/-- A call, and what it has answered. -/
structure Entry where
  call : Call
  answer : Except Error Unit

/-- The calls one after the other, each with its answer, and the replica after all of them. -/
def transcript (replica : Replica ρ ε κ σ) :
    List Call → Checked (List Entry × Replica ρ ε κ σ)
  | [] => .ok ([], replica)
  | call :: calls => do
    let (answer, next) ← replica.reply call
    let (entries, last) ← next.transcript calls
    pure (⟨call, answer⟩ :: entries, last)

end QuorumRounds.Replica
