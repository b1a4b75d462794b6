import QuorumRounds.Proofs.Checked
import QuorumRounds.Replica

/-! # What a call of a replica does

For each call one lemma lists all that it can do: it is refused by the replica itself, the machine
fails, or it succeeds (`beginBlock_cases` and so on).

`Machine.Tracks holds` rules the failures of the machine out: `holds g taken machine` says that the
machine is in the round `g`, which has taken the transactions in `taken`, and such a machine refuses
nothing but transactions that do not pass their check. -/

namespace QuorumRounds
set_option autoImplicit false

variable {ρ ε κ σ P γ : Type} [Ord ρ] [Ord ε] [Ord κ] [RoundBehavior σ P ε]

/-! ## Machines that do not fail -/

namespace Machine

/-- Without an event the round goes on, and with one another round begins. -/
inductive Passes (holds : γ → List (Transaction P) → Machine ρ ε κ σ → Prop) (g : γ)
    (taken : List (Transaction P)) : Option ε → Machine ρ ε κ σ → Prop where
  | stays {machine : Machine ρ ε κ σ} (h : holds g taken machine) :
    Passes holds g taken none machine
  | moves {machine : Machine ρ ε κ σ} {event : ε} {next : γ} (h : holds next [] machine) :
    Passes holds g taken (some event) machine

structure Tracks (holds : γ → List (Transaction P) → Machine ρ ε κ σ → Prop) : Prop where
  updateTime : ∀ {g taken machine now answer after}, holds g taken machine →
    machine.updateTime now = .ok (answer, after) →
    ∃ event, answer = .ok event ∧ Passes holds g taken event after
  processTransaction : ∀ {g taken machine tx answer after}, holds g taken machine →
    machine.checkTransaction tx = .ok (.ok ()) →
    machine.processTransaction tx = .ok (answer, after) →
    answer = .ok () ∧ holds g (taken ++ [tx]) after
  endBlock : ∀ {g taken machine answer after}, holds g taken machine →
    machine.endBlock = .ok (answer, after) →
    ∃ event, answer = .ok event ∧ Passes holds g taken event after

/-- The part of the taken transactions that an event leaves to the current round. -/
def remaining (event : Option ε) (taken : List (Transaction P)) : List (Transaction P) :=
  if event.isSome then [] else taken

omit [RoundBehavior σ P ε] in
theorem Passes.exists_holds {holds : γ → List (Transaction P) → Machine ρ ε κ σ → Prop} {g : γ}
    {taken : List (Transaction P)} {event : Option ε} {machine : Machine ρ ε κ σ}
    (h : Passes holds g taken event machine) : ∃ next, holds next (remaining event taken) machine := by
  cases h with
  | stays h => exact ⟨g, h⟩
  | @moves _ _ next h => exact ⟨next, h⟩

theorem isRejection_of_checkTransaction {machine : Machine ρ ε κ σ} {tx : Transaction P} {e : Error}
    (h : machine.checkTransaction tx = .ok (.error e)) : Replica.isRejection e = true := by
  cases hcurrent : machine.current with
  | none =>
    simp only [checkTransaction, hcurrent] at h
    cases h
    rfl
  | some entry =>
    simp only [checkTransaction, hcurrent] at h
    obtain ⟨answer, _, heq⟩ := Checked.bind_eq_ok_iff.1 h
    cases answer with
    | error reason =>
      cases heq
      rfl
    | ok _ => cases heq

end Machine

namespace Replica
variable {replica after : Replica ρ ε κ σ} {block : Block}

/-! ## All that a call can do -/

omit [RoundBehavior σ P ε] in
theorem refuse_eq_ok {α : Type} {request : Request} {answer : Except Error α}
    (h : replica.refuse request = .ok (answer, after)) :
    (∃ e, answer = .error e) ∧ after = replica := by
  cases h
  exact ⟨⟨_, rfl⟩, rfl⟩

theorem beginBlock_cases {header : BlockHeader} {answer : Except Error Unit}
    (h : replica.beginBlock header = .ok (answer, after)) :
    (∃ e, answer = .error e) ∧ after = replica ∨
      replica.phase = .idle ∧ Word.succ replica.height = .ok header.height ∧
        ∃ fired machine, replica.machine.updateTime header.timestamp = .ok (fired, machine) ∧
          ((∃ e, fired = .error e ∧ answer = .error e ∧
              after = { replica with machine := machine }) ∨
            ∃ event, fired = .ok event ∧ answer = .ok () ∧ after = { replica with
              machine := machine
              phase := .delivering ⟨header, []⟩
              transitionHeight :=
                if event.isSome then header.height else replica.transitionHeight }) := by
  cases hphase : replica.phase with
  | idle =>
    simp only [beginBlock, hphase] at h
    obtain ⟨next, hnext, hrest⟩ := Checked.bind_eq_ok_iff.1 h
    by_cases hheight : header.height = next
    · rw [if_pos hheight] at hrest
      obtain ⟨⟨fired, machine⟩, htime, heq⟩ := Checked.bind_eq_ok_iff.1 hrest
      refine .inr ⟨rfl, hheight ▸ hnext, fired, machine, htime, ?_⟩
      cases fired with
      | error e =>
        cases heq
        exact .inl ⟨e, rfl, rfl, rfl⟩
      | ok event =>
        cases heq
        exact .inr ⟨event, rfl, rfl, rfl⟩
    · rw [if_neg hheight] at hrest
      cases hrest
      exact .inl ⟨⟨_, rfl⟩, rfl⟩
  | delivering block =>
    simp only [beginBlock, hphase] at h
    exact .inl (refuse_eq_ok h)
  | ended block =>
    simp only [beginBlock, hphase] at h
    exact .inl (refuse_eq_ok h)

/-- The block is ended whatever the machine answers. -/
theorem endBlock_cases {answer : Except Error (Option ε)}
    (h : replica.endBlock = .ok (answer, after)) :
    ((∀ block, replica.phase ≠ .delivering block) ∧ (∃ e, answer = .error e) ∧ after = replica) ∨
      ∃ block machine height, replica.phase = .delivering block ∧
        replica.machine.endBlock = .ok (answer, machine) ∧
        ((∃ event, answer = .ok (some event)) ∧ Word.succ replica.height = .ok height ∨
          (∀ event, answer ≠ .ok (some event)) ∧ height = replica.transitionHeight) ∧
        after = { replica with
          machine := machine, phase := .ended block, transitionHeight := height } := by
  cases hphase : replica.phase with
  | idle =>
    simp only [endBlock, hphase] at h
    exact .inl ⟨by simp, refuse_eq_ok h⟩
  | delivering block =>
    simp only [endBlock, hphase] at h
    obtain ⟨⟨decided, machine⟩, hend, hrest⟩ := Checked.bind_eq_ok_iff.1 h
    cases decided with
    | error e =>
      cases hrest
      exact .inr ⟨block, machine, replica.transitionHeight, rfl, hend, .inr ⟨by simp, rfl⟩, rfl⟩
    | ok event =>
      cases event with
      | none =>
        cases hrest
        exact .inr ⟨block, machine, replica.transitionHeight, rfl, hend, .inr ⟨by simp, rfl⟩, rfl⟩
      | some event =>
        obtain ⟨height, hheight, heq⟩ := Checked.bind_eq_ok_iff.1 hrest
        cases heq
        exact .inr ⟨block, machine, height, rfl, hend, .inl ⟨⟨event, rfl⟩, hheight⟩, rfl⟩
  | ended block =>
    simp only [endBlock, hphase] at h
    exact .inl ⟨by simp, refuse_eq_ok h⟩

omit [RoundBehavior σ P ε] in
theorem commit_cases {answer : Except Error Unit} (h : replica.commit = .ok (answer, after)) :
    (∃ e, answer = .error e) ∧ after = replica ∨
      ∃ block, replica.phase = .ended block ∧ answer = .ok () ∧
        after = { replica with
          phase := .idle
          height := block.header.height
          blocks := replica.blocks ++ [block] } := by
  cases hphase : replica.phase with
  | idle =>
    simp only [commit, hphase] at h
    exact .inl (refuse_eq_ok h)
  | delivering block =>
    simp only [commit, hphase] at h
    exact .inl (refuse_eq_ok h)
  | ended block =>
    simp only [commit, hphase] at h
    cases h
    exact .inr ⟨block, rfl, rfl, rfl⟩

section Delivery
variable [Wire P] {bytes : List UInt8}

/-- Reads a transaction, whatever follows it. -/
def decoded? (P : Type) [Wire P] (bytes : List UInt8) : Option (Transaction P) :=
  (Wire.decode (Transaction P) bytes).toOption

omit [RoundBehavior σ P ε] in
theorem decoded?_of_decode {tx : Transaction P}
    (h : Wire.decode (Transaction P) bytes = .ok tx) : decoded? P bytes = some tx := by
  rw [decoded?, h]
  rfl

omit [RoundBehavior σ P ε] in
theorem decode_of_decoded? {tx : Transaction P} (h : decoded? P bytes = some tx) :
    Wire.decode (Transaction P) bytes = .ok tx := by
  rw [decoded?] at h
  cases hdecode : Wire.decode (Transaction P) bytes with
  | error e =>
    rw [hdecode] at h
    cases h
  | ok read =>
    rw [hdecode] at h
    cases h
    rfl

theorem isRejection_of_decode {α : Type} [Wire α] {e : Error}
    (h : Wire.decode α bytes = .error e) : isRejection e = true := by
  rw [Wire.decode] at h
  cases hread : (Wire.read : Reader α).run bytes with
  | error cause =>
    rw [hread] at h
    cases h
    rfl
  | ok pair =>
    rw [hread] at h
    cases h

/-- Bytes that do not decode or do not pass the check leave the replica as it was. -/
theorem deliverTx_cases {answer : Except Error Unit}
    (h : replica.deliverTx bytes = .ok (answer, after)) :
    (∃ e, answer = .error e ∧ ∀ block, replica.phase = .delivering block → isRejection e = true) ∧
        after = replica ∨
      ∃ block tx machine, replica.phase = .delivering block ∧ decoded? P bytes = some tx ∧
        replica.machine.checkTransaction tx = .ok (.ok ()) ∧
        replica.machine.processTransaction tx = .ok (answer, machine) ∧
        ((∃ e, answer = .error e) ∧ after = { replica with machine := machine } ∨
          answer = .ok () ∧ after = { replica with
            machine := machine
            phase := .delivering ⟨block.header, block.transactions ++ [bytes]⟩ }) := by
  cases hphase : replica.phase with
  | idle =>
    simp only [deliverTx, hphase] at h
    obtain ⟨⟨e, he⟩, hafter⟩ := refuse_eq_ok h
    exact .inl ⟨⟨e, he, fun _ hf => by cases hf⟩, hafter⟩
  | delivering block =>
    simp only [deliverTx, hphase] at h
    cases hdecode : Wire.decode (Transaction P) bytes with
    | error e =>
      rw [hdecode] at h
      cases h
      exact .inl ⟨⟨e, rfl, fun _ _ => isRejection_of_decode hdecode⟩, rfl⟩
    | ok tx =>
      simp only [hdecode] at h
      obtain ⟨checked, hcheck, hrest⟩ := Checked.bind_eq_ok_iff.1 h
      cases checked with
      | error e =>
        cases hrest
        exact .inl ⟨⟨e, rfl, fun _ _ => Machine.isRejection_of_checkTransaction hcheck⟩, rfl⟩
      | ok _ =>
        obtain ⟨⟨processed, machine⟩, hprocess, heq⟩ := Checked.bind_eq_ok_iff.1 hrest
        have htx := decoded?_of_decode hdecode
        cases processed with
        | error e =>
          cases heq
          exact .inr ⟨block, tx, machine, rfl, htx, hcheck, hprocess, .inl ⟨⟨e, rfl⟩, rfl⟩⟩
        | ok _ =>
          cases heq
          exact .inr ⟨block, tx, machine, rfl, htx, hcheck, hprocess, .inr ⟨rfl, rfl⟩⟩
  | ended block =>
    simp only [deliverTx, hphase] at h
    obtain ⟨⟨e, he⟩, hafter⟩ := refuse_eq_ok h
    exact .inl ⟨⟨e, he, fun _ hf => by cases hf⟩, hafter⟩

/-- A block that fails once it has begun is aborted. -/
theorem processBlock_cases {answer : Except Error (BlockOutcome ε)}
    (h : replica.processBlock block = .ok (answer, after)) :
    (∃ e, answer = .error e ∧ replica.beginBlock block.header = .ok (.error e, after)) ∨
      ∃ begun last, replica.beginBlock block.header = .ok (.ok (), begun) ∧
        begun.runBlock block.transactions = .ok (answer, last) ∧
        ((∃ e, answer = .error e) ∧ after = last.abort ∨
          (∃ outcome, answer = .ok outcome) ∧ after = last) := by
  rw [processBlock] at h
  obtain ⟨⟨beginning, begun⟩, hbegin, hrest⟩ := Checked.bind_eq_ok_iff.1 h
  cases beginning with
  | error e =>
    cases hrest
    exact .inl ⟨e, rfl, hbegin⟩
  | ok _ =>
    obtain ⟨⟨ended, last⟩, hrun, heq⟩ := Checked.bind_eq_ok_iff.1 hrest
    cases ended with
    | error e =>
      cases heq
      exact .inr ⟨begun, last, hbegin, hrun, .inl ⟨⟨e, rfl⟩, rfl⟩⟩
    | ok outcome =>
      cases heq
      exact .inr ⟨begun, after, hbegin, hrun, .inr ⟨⟨outcome, rfl⟩, rfl⟩⟩

end Delivery

/-! ## Calls that succeed -/

theorem beginBlock_eq_ok {header : BlockHeader}
    (h : replica.beginBlock header = .ok (.ok (), after)) :
    replica.phase = .idle ∧ Word.succ replica.height = .ok header.height ∧
      ∃ event machine, replica.machine.updateTime header.timestamp = .ok (.ok event, machine) ∧
        after = { replica with
          machine := machine
          phase := .delivering ⟨header, []⟩
          transitionHeight := if event.isSome then header.height else replica.transitionHeight } := by
  rcases beginBlock_cases h with ⟨⟨e, hf⟩, _⟩ | ⟨hphase, hheight, fired, machine, htime, hcase⟩
  · cases hf
  · rcases hcase with ⟨e, _, hf, _⟩ | ⟨event, rfl, _, hafter⟩
    · cases hf
    · exact ⟨hphase, hheight, event, machine, htime, hafter⟩

theorem endBlock_eq_ok {event : Option ε} (h : replica.endBlock = .ok (.ok event, after)) :
    ∃ block machine height, replica.phase = .delivering block ∧
      replica.machine.endBlock = .ok (.ok event, machine) ∧
      after = { replica with
        machine := machine, phase := .ended block, transitionHeight := height } := by
  rcases endBlock_cases h with ⟨_, ⟨e, hf⟩, _⟩ | ⟨block, machine, height, hphase, hend, _, hafter⟩
  · cases hf
  · exact ⟨block, machine, height, hphase, hend, hafter⟩

omit [RoundBehavior σ P ε] in
theorem commit_eq_ok (h : replica.commit = .ok (.ok (), after)) :
    ∃ block, replica.phase = .ended block ∧
      after = { replica with
        phase := .idle
        height := block.header.height
        blocks := replica.blocks ++ [block] } := by
  rcases commit_cases h with ⟨⟨e, hf⟩, _⟩ | ⟨block, hphase, _, hafter⟩
  · cases hf
  · exact ⟨block, hphase, hafter⟩

theorem deliverTx_eq_ok [Wire P] {bytes : List UInt8}
    (h : replica.deliverTx bytes = .ok (.ok (), after)) :
    ∃ block tx machine, replica.phase = .delivering block ∧ decoded? P bytes = some tx ∧
      replica.machine.checkTransaction tx = .ok (.ok ()) ∧
      replica.machine.processTransaction tx = .ok (.ok (), machine) ∧
      after = { replica with
        machine := machine
        phase := .delivering ⟨block.header, block.transactions ++ [bytes]⟩ } := by
  rcases deliverTx_cases h with ⟨⟨e, hf, _⟩, _⟩ | ⟨block, tx, machine, hphase, htx, hcheck,
    hprocess, hcase⟩
  · cases hf
  · rcases hcase with ⟨⟨e, hf⟩, _⟩ | ⟨_, hafter⟩
    · cases hf
    · exact ⟨block, tx, machine, hphase, htx, hcheck, hprocess, hafter⟩

theorem begun_of_processBlock [Wire P] {outcome : BlockOutcome ε}
    (h : replica.processBlock block = .ok (.ok outcome, after)) :
    ∃ begun, replica.beginBlock block.header = .ok (.ok (), begun) ∧
      begun.runBlock block.transactions = .ok (.ok outcome, after) := by
  rcases processBlock_cases h with ⟨e, hf, _⟩ | ⟨begun, last, hbegin, hrun, hcase⟩
  · cases hf
  · rcases hcase with ⟨⟨e, hf⟩, _⟩ | ⟨_, rfl⟩
    · cases hf
    · exact ⟨begun, hbegin, hrun⟩

/-! ## Calls that are refused -/

section Refused
variable {holds : γ → List (Transaction P) → Machine ρ ε κ σ → Prop} {g : γ}
  {taken : List (Transaction P)} {e : Error}

omit [RoundBehavior σ P ε] in
theorem commit_eq_error (h : replica.commit = .ok (.error e, after)) : after = replica := by
  rcases commit_cases h with ⟨_, hafter⟩ | ⟨_, _, hf, _⟩
  · exact hafter
  · cases hf

theorem beginBlock_eq_error (htracks : Machine.Tracks holds) (hholds : holds g taken replica.machine)
    {header : BlockHeader} (h : replica.beginBlock header = .ok (.error e, after)) :
    after = replica := by
  rcases beginBlock_cases h with ⟨_, hafter⟩ | ⟨_, _, fired, machine, htime, hcase⟩
  · exact hafter
  · obtain ⟨event, rfl, _⟩ := htracks.updateTime hholds htime
    rcases hcase with ⟨_, hf, _⟩ | ⟨_, _, hf, _⟩
    · cases hf
    · cases hf

theorem endBlock_eq_error (htracks : Machine.Tracks holds) (hholds : holds g taken replica.machine)
    (h : replica.endBlock = .ok (.error e, after)) :
    (∀ block, replica.phase ≠ .delivering block) ∧ after = replica := by
  rcases endBlock_cases h with ⟨hphase, _, hafter⟩ | ⟨block, machine, height, _, hend, _⟩
  · exact ⟨hphase, hafter⟩
  · obtain ⟨event, hf, _⟩ := htracks.endBlock hholds hend
    cases hf

/-- Within a block, a transaction that is refused is left out. -/
theorem deliverTx_eq_error [Wire P] (htracks : Machine.Tracks holds)
    (hholds : holds g taken replica.machine) {bytes : List UInt8}
    (h : replica.deliverTx bytes = .ok (.error e, after)) :
    after = replica ∧ ∀ block, replica.phase = .delivering block → isRejection e = true := by
  rcases deliverTx_cases h with ⟨⟨e', he, hrejection⟩, hafter⟩ | ⟨_, tx, machine, _, _, hcheck,
    hprocess, _⟩
  · cases he
    exact ⟨hafter, hrejection⟩
  · obtain ⟨hf, _⟩ := htracks.processTransaction hholds hcheck hprocess
    cases hf

end Refused

end Replica

end QuorumRounds
