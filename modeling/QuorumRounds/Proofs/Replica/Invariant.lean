import QuorumRounds.Proofs.Machine.Calls
import QuorumRounds.Proofs.Replica.Log

/-! # What every call keeps

A replica whose machine tracks its round goes on doing so, whatever is called on it and with
whatever arguments: a call that is refused changes nothing, an aborted block leaves the machine as it
is, and every other call is a step of the machine (`Held.call`).

Such a replica refuses the beginning or the end of a block only at the wrong point of a block, or for
the wrong height (`beginBlock_refusal`, `endBlock_refusal`). -/

namespace QuorumRounds.Replica
set_option autoImplicit false

variable {ρ ε κ σ P γ : Type} [Ord ρ] [Ord ε] [Ord κ] [RoundBehavior σ P ε]
  {holds : γ → List (Transaction P) → Machine ρ ε κ σ → Prop} {replica after : Replica ρ ε κ σ}

/-- The machine is in some round, which has taken some transactions. -/
def Held (holds : γ → List (Transaction P) → Machine ρ ε κ σ → Prop) (replica : Replica ρ ε κ σ) :
    Prop := ∃ g taken, holds g taken replica.machine

omit [RoundBehavior σ P ε] in
theorem held_of_passes {g : γ} {taken : List (Transaction P)} {event : Option ε}
    (h : Machine.Passes holds g taken event replica.machine) : Held holds replica := by
  obtain ⟨next, hnext⟩ := h.exists_holds
  exact ⟨next, _, hnext⟩

namespace Held

theorem beginBlock (htracks : Machine.Tracks holds) (h : Held holds replica)
    {header : BlockHeader} {answer : Except Error Unit}
    (hbegin : replica.beginBlock header = .ok (answer, after)) : Held holds after := by
  obtain ⟨g, taken, hholds⟩ := h
  cases answer with
  | error e =>
    rw [beginBlock_eq_error htracks hholds hbegin]
    exact ⟨g, taken, hholds⟩
  | ok _ =>
    obtain ⟨_, _, event, machine, htime, rfl⟩ := beginBlock_eq_ok hbegin
    obtain ⟨_, _, hpasses⟩ := htracks.updateTime hholds htime
    exact held_of_passes hpasses

theorem deliverTx [Wire P] (htracks : Machine.Tracks holds) (h : Held holds replica)
    {bytes : List UInt8} {answer : Except Error Unit}
    (hdeliver : replica.deliverTx bytes = .ok (answer, after)) : Held holds after := by
  obtain ⟨g, taken, hholds⟩ := h
  cases answer with
  | error e =>
    rw [(deliverTx_eq_error htracks hholds hdeliver).1]
    exact ⟨g, taken, hholds⟩
  | ok _ =>
    obtain ⟨block, tx, machine, _, _, hcheck, hprocess, rfl⟩ := deliverTx_eq_ok hdeliver
    exact ⟨g, _, (htracks.processTransaction hholds hcheck hprocess).2⟩

theorem endBlock (htracks : Machine.Tracks holds) (h : Held holds replica)
    {answer : Except Error (Option ε)} (hend : replica.endBlock = .ok (answer, after)) :
    Held holds after := by
  obtain ⟨g, taken, hholds⟩ := h
  cases answer with
  | error e =>
    rw [(endBlock_eq_error htracks hholds hend).2]
    exact ⟨g, taken, hholds⟩
  | ok event =>
    obtain ⟨block, machine, height, _, hmachine, rfl⟩ := endBlock_eq_ok hend
    obtain ⟨_, _, hpasses⟩ := htracks.endBlock hholds hmachine
    exact held_of_passes hpasses

omit [RoundBehavior σ P ε] in
theorem commit (h : Held holds replica) {answer : Except Error Unit}
    (hcommit : replica.commit = .ok (answer, after)) : Held holds after := by
  rcases commit_cases hcommit with ⟨_, rfl⟩ | ⟨block, _, _, rfl⟩
  · exact h
  · exact h

theorem processBlock [Wire P] (htracks : Machine.Tracks holds) (h : Held holds replica)
    {block : Block} {answer : Except Error (BlockOutcome ε)}
    (hblock : replica.processBlock block = .ok (answer, after)) : Held holds after := by
  obtain ⟨g, taken, hholds⟩ := h
  cases answer with
  | error e =>
    rw [processBlock_eq_error htracks hholds hblock]
    exact ⟨g, taken, hholds⟩
  | ok outcome =>
    obtain ⟨_, _, _, _, delivered, ended, _, _, _, hdelivered, hended, rfl⟩ :=
      processBlock_eq_ok htracks hholds hblock
    obtain ⟨_, _, hpasses⟩ := htracks.endBlock hdelivered hended
    exact held_of_passes hpasses

theorem call [Wire P] (htracks : Machine.Tracks holds) (h : Held holds replica) {c : Call}
    (hcall : replica.call c = .ok after) : Held holds after := by
  cases c with
  | beginBlock header =>
    obtain ⟨_, hbegin, rfl⟩ := Checked.map_eq_ok_iff.1 hcall
    exact h.beginBlock htracks hbegin
  | checkTx bytes =>
    obtain ⟨_, _, rfl⟩ := Checked.map_eq_ok_iff.1 hcall
    exact h
  | deliverTx bytes =>
    obtain ⟨_, hdeliver, rfl⟩ := Checked.map_eq_ok_iff.1 hcall
    exact h.deliverTx htracks hdeliver
  | endBlock =>
    obtain ⟨_, hend, rfl⟩ := Checked.map_eq_ok_iff.1 hcall
    exact h.endBlock htracks hend
  | commit =>
    obtain ⟨_, hcommit, rfl⟩ := Checked.map_eq_ok_iff.1 hcall
    exact h.commit hcommit
  | abort =>
    cases hcall
    exact h
  | processBlock block =>
    obtain ⟨_, hblock, rfl⟩ := Checked.map_eq_ok_iff.1 hcall
    exact h.processBlock htracks hblock

theorem run [Wire P] (htracks : Machine.Tracks holds) (h : Held holds replica) {calls : List Call}
    (hrun : replica.run calls = .ok after) : Held holds after :=
  Checked.holds_of_foldlM (Held holds) (fun _ _ _ h hcall => h.call htracks hcall) h hrun

theorem processAll [Wire P] (htracks : Machine.Tracks holds) (h : Held holds replica)
    (hidle : replica.phase = .idle) {blocks : List Block}
    {outcomes : List (Except Error (BlockOutcome ε))}
    (hall : replica.processAll blocks = .ok (outcomes, after)) :
    Held holds after ∧ after.phase = .idle := by
  induction blocks generalizing replica outcomes with
  | nil =>
    cases hall
    exact ⟨h, hidle⟩
  | cons block rest ih =>
    obtain ⟨answer, others, next, rfl, hblock, hothers⟩ := processAll_cons_eq_ok hall
    refine ih (h.processBlock htracks hblock) ?_ hothers
    obtain ⟨g, taken, hholds⟩ := h
    cases answer with
    | error e =>
      rw [processBlock_eq_error htracks hholds hblock]
      exact hidle
    | ok outcome =>
      obtain ⟨_, _, _, _, _, _, _, _, _, _, _, rfl⟩ := processBlock_eq_ok htracks hholds hblock
      rfl

end Held

/-! ## All that can be done to a replica -/

/-- Calls on the replica, or behind its back on its machine, lead from the one to the other. -/
inductive Reachable [Wire P] (start : Replica ρ ε κ σ) : Replica ρ ε κ σ → Prop where
  | start : Reachable start start
  | called {replica after : Replica ρ ε κ σ} {call : Call} (hreplica : Reachable start replica)
    (hcall : replica.call call = .ok after) : Reachable start after
  | setup {replica after : Replica ρ ε κ σ} {answer : Except Error Unit}
    (hreplica : Reachable start replica) (hsetup : replica.setup = .ok (answer, after)) :
    Reachable start after
  | machine {replica : Replica ρ ε κ σ} {machine : Machine ρ ε κ σ} {call : Machine.Call ε P}
    {answer : Except Error Unit} (hreplica : Reachable start replica)
    (hcall : replica.machine.call call = .ok (answer, machine)) :
    Reachable start { replica with machine := machine }

/-- A property of machines that every call on the machine keeps is tracked through all of them. -/
theorem Held.reachable [Wire P] {start : Replica ρ ε κ σ} (htracks : Machine.Tracks holds)
    (hkept : ∀ (g : γ) (taken : List (Transaction P)) (machine after : Machine ρ ε κ σ)
      (call : Machine.Call ε P) (answer : Except Error Unit), holds g taken machine →
      machine.call call = .ok (answer, after) → ∃ g taken, holds g taken after)
    (h : Held holds start) (hreplica : Reachable start replica) : Held holds replica := by
  induction hreplica with
  | start => exact h
  | called _ hcall ih => exact ih.call htracks hcall
  | setup _ hsetup ih =>
    obtain ⟨g, taken, hholds⟩ := ih
    obtain ⟨⟨answer, machine⟩, hmachine, heq⟩ := Checked.bind_eq_ok_iff.1 hsetup
    cases heq
    exact hkept g taken _ _ .setup _ hholds hmachine
  | machine _ hcall ih =>
    obtain ⟨g, taken, hholds⟩ := ih
    exact hkept g taken _ _ _ _ hholds hcall

/-! ## Why a call is refused -/

theorem beginBlock_refusal (htracks : Machine.Tracks holds) (h : Held holds replica)
    {header : BlockHeader} {e : Error} (hbegin : replica.beginBlock header = .ok (.error e, after)) :
    replica.phase ≠ .idle ∧ e = .requestNotAllowed .beginBlock replica.phase.stage ∨
      replica.phase = .idle ∧ Word.succ replica.height ≠ .ok header.height ∧
        e = .heightDoesNotFollow header.height replica.height := by
  cases hphase : replica.phase with
  | idle =>
    simp only [Replica.beginBlock, hphase] at hbegin
    obtain ⟨next, hnext, hrest⟩ := Checked.bind_eq_ok_iff.1 hbegin
    by_cases hheight : header.height = next
    · rw [if_pos hheight] at hrest
      obtain ⟨⟨answer, machine⟩, htime, heq⟩ := Checked.bind_eq_ok_iff.1 hrest
      obtain ⟨g, taken, hholds⟩ := h
      obtain ⟨event, rfl, _⟩ := htracks.updateTime hholds htime
      cases heq
    · rw [if_neg hheight] at hrest
      cases hrest
      refine .inr ⟨rfl, ?_, rfl⟩
      rw [hnext]
      exact fun heq => hheight (Except.ok.inj heq).symm
  | delivering block =>
    simp only [Replica.beginBlock, hphase] at hbegin
    cases hbegin
    exact .inl ⟨by simp, by rw [hphase]⟩
  | ended block =>
    simp only [Replica.beginBlock, hphase] at hbegin
    cases hbegin
    exact .inl ⟨by simp, by rw [hphase]⟩

/-- A block of the next height is not refused. -/
theorem exists_outcome [Wire P] (htracks : Machine.Tracks holds) (h : Held holds replica)
    (hidle : replica.phase = .idle) {block : Block}
    (hheight : Word.succ replica.height = .ok block.header.height)
    {answer : Except Error (BlockOutcome ε)}
    (hblock : replica.processBlock block = .ok (answer, after)) :
    ∃ outcome, answer = .ok outcome := by
  rcases processBlock_cases hblock with ⟨e, -, hbegin⟩ | ⟨timed, last, hbegin, hrun, -⟩
  · rcases beginBlock_refusal htracks h hbegin with ⟨hphase, _⟩ | ⟨_, hnext, _⟩
    · exact absurd hidle hphase
    · exact absurd hheight hnext
  · obtain ⟨g, taken, hholds⟩ := h.beginBlock htracks hbegin
    obtain ⟨_, _, _, _, _, hphase⟩ := beginBlock_eq_ok hbegin
    have hdelivering : timed.phase = .delivering ⟨block.header, []⟩ := by rw [hphase]
    obtain ⟨outcome, _, _, _, _, rfl, _⟩ := runBlock_eq_ok htracks hdelivering hholds hrun
    exact ⟨outcome, rfl⟩

theorem endBlock_refusal (htracks : Machine.Tracks holds) (h : Held holds replica) {e : Error}
    (hend : replica.endBlock = .ok (.error e, after)) :
    (∀ block, replica.phase ≠ .delivering block) ∧
      e = .requestNotAllowed .endBlock replica.phase.stage := by
  obtain ⟨g, taken, hholds⟩ := h
  refine ⟨(endBlock_eq_error htracks hholds hend).1, ?_⟩
  cases hphase : replica.phase with
  | delivering block =>
    exact absurd hphase ((endBlock_eq_error htracks hholds hend).1 block)
  | idle =>
    simp only [Replica.endBlock, hphase] at hend
    cases hend
    rw [hphase]
  | ended block =>
    simp only [Replica.endBlock, hphase] at hend
    cases hend
    rw [hphase]

end QuorumRounds.Replica
