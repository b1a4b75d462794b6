import QuorumRounds.Proofs.Machine.Spread
import QuorumRounds.Replica.Spread

/-! # The stage and the block are kept in step

A call on a replica whose fields are spread out does what it does on the replica itself
(`Spreads.reply`), so the two answer alike however they are called (`spread_transcript`).

The fields are in step when there is a block in progress exactly at the stages of one
(`SpreadReplica.InStep`). Those are the replicas that have been spread out
(`SpreadReplica.inStep_iff`), so every call keeps them in step (`SpreadReplica.InStep.reply`). -/

namespace QuorumRounds.Replica
set_option autoImplicit false

open Checked (Both SameAnswer)

variable {ρ ε κ σ P : Type} [Ord ρ] [Ord ε] [Ord κ] {replica : Replica ρ ε κ σ}
  {fields : SpreadReplica ρ ε κ σ}

/-- The fields are those of the replica. -/
def Spreads (replica : Replica ρ ε κ σ) (fields : SpreadReplica ρ ε κ σ) : Prop :=
  fields = replica.spread

namespace Spreads

theorem commit (h : Spreads replica fields) :
    Both (SameAnswer Spreads) replica.commit fields.commit := by
  subst h
  rcases replica with ⟨machine, _ | block | block, height, blocks, transitionHeight⟩
  all_goals exact .ok ⟨rfl, rfl⟩

theorem abort (h : Spreads replica fields) : Spreads replica.abort fields.abort := by
  subst h
  rfl

/-! ## Steps -/

section Rounds
variable [RoundBehavior σ P ε]

theorem beginBlock (h : Spreads replica fields) (header : BlockHeader) :
    Both (SameAnswer Spreads) (replica.beginBlock header) (fields.beginBlock header) := by
  subst h
  rcases replica with ⟨machine, _ | block | block, height, blocks, transitionHeight⟩
  · refine Both.bind (Both.of_eq (S := (· = ·)) rfl fun _ _ => rfl) ?_
    rintro next _ rfl
    by_cases hheight : header.height = next
    · simp only [if_pos hheight]
      refine Both.bind (Machine.Spreads.updateTime rfl header.timestamp) ?_
      rintro ⟨answer, after⟩ ⟨_, _⟩ ⟨rfl, rfl⟩
      cases answer with
      | error e => exact .ok ⟨rfl, rfl⟩
      | ok event => cases event <;> exact .ok ⟨rfl, rfl⟩
    · simp only [if_neg hheight]
      exact .ok ⟨rfl, rfl⟩
  all_goals exact .ok ⟨rfl, rfl⟩

theorem endBlock (h : Spreads replica fields) :
    Both (SameAnswer Spreads) replica.endBlock fields.endBlock := by
  subst h
  rcases replica with ⟨machine, _ | block | block, height, blocks, transitionHeight⟩
  case delivering =>
    refine Both.bind (Machine.Spreads.endBlock rfl) ?_
    rintro ⟨answer, after⟩ ⟨_, _⟩ ⟨rfl, rfl⟩
    rcases answer with e | _ | event
    · exact .ok ⟨rfl, rfl⟩
    · exact .ok ⟨rfl, rfl⟩
    · refine Both.bind (Both.of_eq (S := (· = ·)) rfl fun _ _ => rfl) ?_
      rintro next _ rfl
      exact .ok ⟨rfl, rfl⟩
  all_goals exact .ok ⟨rfl, rfl⟩

variable [Wire P]

theorem checkTx (h : Spreads replica fields) (bytes : List UInt8) :
    replica.checkTx bytes = fields.checkTx bytes := by
  subst h
  rw [Replica.checkTx, SpreadReplica.checkTx]
  cases Wire.decode (Transaction P) bytes with
  | error e => rfl
  | ok tx => exact Machine.Spreads.checkTransaction rfl tx

theorem deliverTx (h : Spreads replica fields) (bytes : List UInt8) :
    Both (SameAnswer Spreads) (replica.deliverTx bytes) (fields.deliverTx bytes) := by
  subst h
  rcases replica with ⟨machine, _ | block | block, height, blocks, transitionHeight⟩
  case delivering =>
    simp only [Replica.deliverTx, SpreadReplica.deliverTx, SpreadReplica.atStage, spread, Phase.stage,
      if_true]
    cases Wire.decode (Transaction P) bytes with
    | error e => exact .ok ⟨rfl, rfl⟩
    | ok tx =>
      have hcheck := Machine.Spreads.checkTransaction (rfl : Machine.Spreads machine _) tx
      refine Both.bind (Both.of_eq (S := (· = ·)) hcheck fun _ _ => rfl) ?_
      rintro checked _ rfl
      cases checked with
      | error e => exact .ok ⟨rfl, rfl⟩
      | ok _ =>
        refine Both.bind (Machine.Spreads.processTransaction rfl tx) ?_
        rintro ⟨answer, after⟩ ⟨_, _⟩ ⟨rfl, rfl⟩
        cases answer <;> exact .ok ⟨rfl, rfl⟩
  all_goals exact .ok ⟨rfl, rfl⟩

/-! ## Whole blocks -/

theorem deliverAll (h : Spreads replica fields) (index : Nat) (transactions : List (List UInt8)) :
    Both (SameAnswer Spreads) (replica.deliverAll index transactions)
      (fields.deliverAll index transactions) := by
  induction transactions generalizing replica fields index with
  | nil => exact .ok ⟨rfl, h⟩
  | cons bytes rest ih =>
    refine Both.bind (h.deliverTx bytes) ?_
    rintro ⟨answer, after⟩ ⟨_, _⟩ ⟨rfl, hafter⟩
    cases answer with
    | ok _ => exact ih hafter (index + 1)
    | error e =>
      by_cases hrejection : isRejection e = true
      · simp only [hrejection, if_true]
        refine Both.bind (ih hafter (index + 1)) ?_
        rintro ⟨others, last⟩ ⟨_, _⟩ ⟨rfl, hlast⟩
        exact .ok ⟨rfl, hlast⟩
      · simp only [hrejection]
        exact .ok ⟨rfl, hafter⟩

theorem runBlock (h : Spreads replica fields) (transactions : List (List UInt8)) :
    Both (SameAnswer Spreads) (replica.runBlock transactions) (fields.runBlock transactions) := by
  refine Both.bind (h.deliverAll 0 transactions) ?_
  rintro ⟨delivered, after⟩ ⟨_, _⟩ ⟨rfl, hafter⟩
  cases delivered with
  | error e => exact .ok ⟨rfl, hafter⟩
  | ok rejected =>
    refine Both.bind hafter.endBlock ?_
    rintro ⟨answer, ended⟩ ⟨_, _⟩ ⟨rfl, hended⟩
    cases answer with
    | error e => exact .ok ⟨rfl, hended⟩
    | ok event =>
      refine Both.bind hended.commit ?_
      rintro ⟨answer, committed⟩ ⟨_, _⟩ ⟨rfl, hcommitted⟩
      exact .ok ⟨rfl, hcommitted⟩

theorem processBlock (h : Spreads replica fields) (block : Block) :
    Both (SameAnswer Spreads) (replica.processBlock block) (fields.processBlock block) := by
  refine Both.bind (h.beginBlock block.header) ?_
  rintro ⟨answer, begun⟩ ⟨_, _⟩ ⟨rfl, hbegun⟩
  cases answer with
  | error e => exact .ok ⟨rfl, hbegun⟩
  | ok _ =>
    refine Both.bind (hbegun.runBlock block.transactions) ?_
    rintro ⟨outcome, after⟩ ⟨_, _⟩ ⟨rfl, hafter⟩
    cases outcome with
    | error e => exact .ok ⟨rfl, hafter.abort⟩
    | ok outcome => exact .ok ⟨rfl, hafter⟩

/-! ## Calls -/

theorem reply (h : Spreads replica fields) (call : Call) :
    Both (SameAnswer Spreads) (replica.reply call) (fields.reply call) := by
  cases call with
  | beginBlock header => exact h.beginBlock header
  | checkTx bytes =>
    refine Both.map (Both.of_eq (S := (· = ·)) (h.checkTx bytes) fun _ _ => rfl) ?_
    rintro answer _ rfl
    exact ⟨rfl, h⟩
  | deliverTx bytes => exact h.deliverTx bytes
  | endBlock =>
    refine Both.map h.endBlock ?_
    rintro ⟨answer, after⟩ ⟨_, _⟩ ⟨rfl, hafter⟩
    exact ⟨rfl, hafter⟩
  | commit => exact h.commit
  | abort => exact .ok ⟨rfl, h.abort⟩
  | processBlock block =>
    refine Both.map (h.processBlock block) ?_
    rintro ⟨answer, after⟩ ⟨_, _⟩ ⟨rfl, hafter⟩
    exact ⟨rfl, hafter⟩

theorem transcript (h : Spreads replica fields) (calls : List Call) :
    Both (SameAnswer Spreads) (replica.transcript calls) (fields.transcript calls) := by
  induction calls generalizing replica fields with
  | nil => exact .ok ⟨rfl, h⟩
  | cons call calls ih =>
    refine Both.bind (h.reply call) ?_
    rintro ⟨answer, next⟩ ⟨_, _⟩ ⟨rfl, hnext⟩
    refine Both.bind (ih hnext) ?_
    rintro ⟨entries, last⟩ ⟨_, _⟩ ⟨rfl, hlast⟩
    exact .ok ⟨rfl, hlast⟩

end Rounds

end Spreads

/-- However it is called, the replica answers as it does with its fields spread out. -/
theorem spread_transcript [RoundBehavior σ P ε] [Wire P] (replica : Replica ρ ε κ σ)
    (calls : List Call) :
    replica.spread.transcript calls =
      (replica.transcript calls).map fun (entries, last) => (entries, last.spread) :=
  (Spreads.transcript rfl calls).eq_map_of_sameAnswer

end QuorumRounds.Replica

/-! ## Fields that are in step -/

namespace QuorumRounds.SpreadReplica

open Replica (Call Spreads)

variable {ρ ε κ σ P : Type} [Ord ρ] [Ord ε] [Ord κ] {fields after : SpreadReplica ρ ε κ σ}

structure InStep (fields : SpreadReplica ρ ε κ σ) : Prop where
  machine : fields.machine.InStep
  in_progress : fields.block.isSome = true ↔ fields.stage = .delivering ∨ fields.stage = .ended

theorem inStep_spread (replica : Replica ρ ε κ σ) : replica.spread.InStep where
  machine := SpreadMachine.inStep_spread replica.machine
  in_progress := by
    cases hphase : replica.phase <;> simp [Replica.spread, hphase, Phase.block?, Phase.stage]

theorem inStep_iff : fields.InStep ↔ ∃ replica, Spreads replica fields := by
  constructor
  · rintro ⟨hmachine, hprogress⟩
    obtain ⟨machine, hspreads⟩ := SpreadMachine.inStep_iff.1 hmachine
    rcases fields with ⟨_, stage, block, height, blocks, transitionHeight⟩
    obtain rfl := hspreads
    have hspreads : ∀ phase : Phase, phase.stage = stage → phase.block? = block →
        Spreads ⟨machine, phase, height, blocks, transitionHeight⟩
          ⟨machine.spread, stage, block, height, blocks, transitionHeight⟩ := by
      rintro phase rfl rfl
      rfl
    cases block with
    | none =>
      cases stage with
      | idle => exact ⟨_, hspreads .idle rfl rfl⟩
      | delivering => cases hprogress.2 (.inl rfl)
      | ended => cases hprogress.2 (.inr rfl)
    | some block =>
      cases stage with
      | idle => rcases hprogress.1 rfl with hstage | hstage <;> cases hstage
      | delivering => exact ⟨_, hspreads (.delivering block) rfl rfl⟩
      | ended => exact ⟨_, hspreads (.ended block) rfl rfl⟩
  · rintro ⟨replica, rfl⟩
    exact inStep_spread replica

/-- Whatever is called, and whatever it answers, the fields stay in step. -/
theorem InStep.reply [RoundBehavior σ P ε] [Wire P] {call : Call} {answer : Except Error Unit}
    (h : fields.InStep) (hreply : fields.reply call = .ok (answer, after)) : after.InStep := by
  obtain ⟨replica, hspreads⟩ := inStep_iff.1 h
  obtain ⟨⟨_, last⟩, _, _, hlast⟩ := (hspreads.reply call).symm.eq_ok hreply
  exact inStep_iff.2 ⟨last, hlast⟩

end QuorumRounds.SpreadReplica
