import QuorumRounds.Machine.Basic

/-! # All that can be called on a machine

A `Call` is a call with its arguments, so that any calls can be made one after the other.

* `Machine.call`: makes a call, and says whether it has succeeded.
* `Machine.run`: the machine after calls.
* `Machine.ask`: makes a call, and says also on which event a round has ended by itself.
* `Machine.transcript`: makes calls in their order, and keeps the answers.
-/

namespace QuorumRounds.Machine
set_option autoImplicit false

variable {ρ ε κ σ P : Type} [Ord ρ] [Ord ε] [Ord κ] [RoundBehavior σ P ε]

/-- What changes a machine. -/
inductive Call (ε P : Type) where
  | setup
  | processTransaction (tx : Transaction P)
  | processEvent (event : ε) (result : Option Store)
  | endBlock
  | updateTime (now : Duration)
  | cleanup (depth : Nat)

/-- Makes the call. The event that has been fired is left out of the answer. -/
def call (machine : Machine ρ ε κ σ) :
    Call ε P → Checked (Except Error Unit × Machine ρ ε κ σ)
  | .setup => machine.setup
  | .processTransaction tx => machine.processTransaction tx
  | .processEvent event result => machine.processEvent event result
  | .endBlock => machine.endBlock.map fun (answer, after) => (answer.map fun _ => (), after)
  | .updateTime now =>
    (machine.updateTime now).map fun (answer, after) => (answer.map fun _ => (), after)
  | .cleanup depth => .ok (.ok (), machine.cleanup depth)

/-- The machine after the calls, whatever they have answered. -/
def run (machine : Machine ρ ε κ σ) (calls : List (Call ε P)) : Checked (Machine ρ ε κ σ) :=
  calls.foldlM (fun machine call => (machine.call call).map (·.2)) machine

/-- Makes the call. The answer names the event on which the current round has ended by itself. -/
def ask (machine : Machine ρ ε κ σ) :
    Call ε P → Checked (Except Error (Option ε) × Machine ρ ε κ σ)
  | .endBlock => machine.endBlock
  | .updateTime now => machine.updateTime now
  | call => (machine.call call).map fun (answer, after) => (answer.map fun _ => none, after)

/-- The calls one after the other, each with its answer, and the machine after all of them. -/
def transcript (machine : Machine ρ ε κ σ) : List (Call ε P) →
    Checked (List (Call ε P × Except Error (Option ε)) × Machine ρ ε κ σ)
  | [] => .ok ([], machine)
  | call :: calls => do
    let (answer, next) ← machine.ask call
    let (replies, last) ← next.transcript calls
    pure ((call, answer) :: replies, last)

end QuorumRounds.Machine
