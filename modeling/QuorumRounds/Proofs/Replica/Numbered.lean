import QuorumRounds.Proofs.Machine.Progress
import QuorumRounds.Proofs.Replica.Lifecycle
import QuorumRounds.Proofs.Replica.Runs

/-! # What a numbered run forgets

A numbered run adds up votes and gives numbers to timeouts, on words. When none of them overflows, its
result is that of the run that it numbers (`Numbered.run_forget`). -/

namespace QuorumRounds
set_option autoImplicit false

/-! ## Counting on words -/

namespace Word

theorem exists_advance {start : UInt64} {n : Nat} (h : start.toNat + n < UInt64.size) :
    ∃ reached, advance start n = .ok reached ∧ reached.toNat = start.toNat + n := by
  induction n with
  | zero => exact ⟨start, rfl, rfl⟩
  | succ n ih =>
    obtain ⟨reached, hreached, hvalue⟩ := ih (by omega)
    obtain ⟨next, hnext⟩ := exists_succ (a := reached) (by omega)
    refine ⟨next, ?_, ?_⟩
    · rw [advance, hreached, Checked.ok_bind, hnext]
    · rw [succ_eq_ok_iff.1 hnext, hvalue, Nat.add_assoc]

end Word

variable {ρ ε κ σ P : Type} [Ord ρ] [Ord ε] [Ord κ]

/-! ## The run without the numbers -/

namespace Numbered
variable {sum : σ → Checked UInt64}

section Forgetting
variable {numbered last : Numbered ρ ε κ σ}

theorem moveOn_eq_ok {after : Replica ρ ε κ σ} {scheduled : Nat}
    (h : numbered.moveOn after scheduled = .ok last) : last.replica = after := by
  obtain ⟨next, _, rfl⟩ := Checked.map_eq_ok_iff.1 h
  rfl

theorem setup_forget (h : numbered.setup = .ok last) :
    numbered.replica.setup.map (·.2) = .ok last.replica := by
  obtain ⟨⟨answer, after⟩, hsetup, hcounted⟩ := Checked.bind_eq_ok_iff.1 h
  rw [hsetup, moveOn_eq_ok hcounted]
  rfl

variable [RoundBehavior σ P ε]

theorem beginBlock_forget {header : BlockHeader} {answer : Except Error Unit}
    (h : numbered.beginBlock header = .ok (answer, last)) :
    numbered.replica.beginBlock header = .ok (answer, last.replica) := by
  obtain ⟨⟨answer, after⟩, hbegin, hrest⟩ := Checked.bind_eq_ok_iff.1 h
  obtain ⟨counted, hcounted, heq⟩ := Checked.bind_eq_ok_iff.1 hrest
  cases heq
  rw [hbegin, moveOn_eq_ok hcounted]

theorem endBlock_forget {answer : Except Error (Option ε)}
    (h : numbered.endBlock sum = .ok (answer, last)) :
    numbered.replica.endBlock = .ok (answer, last.replica) := by
  obtain ⟨_, _, hasked⟩ := Checked.bind_eq_ok_iff.1 h
  obtain ⟨⟨answer, after⟩, hend, hrest⟩ := Checked.bind_eq_ok_iff.1 hasked
  obtain ⟨counted, hcounted, heq⟩ := Checked.bind_eq_ok_iff.1 hrest
  cases heq
  rw [hend, moveOn_eq_ok hcounted]

variable [Wire P]

theorem runBlock_forget {transactions : List (List UInt8)} {answer : Except Error (BlockOutcome ε)}
    (h : numbered.runBlock sum transactions = .ok (answer, last)) :
    numbered.replica.runBlock transactions = .ok (answer, last.replica) := by
  obtain ⟨⟨delivered, taken⟩, hdeliver, hrest⟩ := Checked.bind_eq_ok_iff.1 h
  rw [Replica.runBlock, hdeliver, Checked.ok_bind]
  cases delivered with
  | error e =>
    cases hrest
    rfl
  | ok rejected =>
    obtain ⟨⟨decided, ended⟩, hend, hended⟩ := Checked.bind_eq_ok_iff.1 hrest
    have hforget : taken.endBlock = .ok (decided, ended.replica) := endBlock_forget hend
    simp only [hforget, Checked.ok_bind]
    cases decided with
    | error e =>
      cases hended
      rfl
    | ok event =>
      obtain ⟨⟨committing, committed⟩, hcommit, heq⟩ := Checked.bind_eq_ok_iff.1 hended
      cases heq
      simp only [hcommit, Checked.ok_bind]
      rfl

theorem processBlock_forget {block : Block} {answer : Except Error (BlockOutcome ε)}
    (h : numbered.processBlock sum block = .ok (answer, last)) :
    numbered.replica.processBlock block = .ok (answer, last.replica) := by
  obtain ⟨⟨begins, begun⟩, hbegin, hrest⟩ := Checked.bind_eq_ok_iff.1 h
  rw [Replica.processBlock, beginBlock_forget hbegin, Checked.ok_bind]
  cases begins with
  | error e =>
    cases hrest
    rfl
  | ok _ =>
    obtain ⟨⟨outcome, after⟩, hrun, heq⟩ := Checked.bind_eq_ok_iff.1 hrest
    simp only [runBlock_forget hrun, Checked.ok_bind]
    cases outcome with
    | error e =>
      cases heq
      rfl
    | ok outcome =>
      cases heq
      rfl

theorem serve_forget {demand : Demand} (h : numbered.serve sum demand = .ok last) :
    numbered.replica.serve demand = .ok last.replica := by
  have hplain : ∀ call, (numbered.replica.call call).map
      (fun after => (⟨after, numbered.next⟩ : Numbered ρ ε κ σ)) = .ok last →
      numbered.replica.call call = .ok last.replica := by
    intro call hcall
    obtain ⟨after, hafter, rfl⟩ := Checked.map_eq_ok_iff.1 hcall
    exact hafter
  cases demand with
  | setup => exact setup_forget h
  | call call =>
    cases call with
    | beginBlock header =>
      obtain ⟨⟨answer, after⟩, hbegin, rfl⟩ := Checked.map_eq_ok_iff.1 h
      exact Checked.map_eq_ok_iff.2 ⟨_, beginBlock_forget hbegin, rfl⟩
    | endBlock =>
      obtain ⟨⟨answer, after⟩, hend, rfl⟩ := Checked.map_eq_ok_iff.1 h
      exact Checked.map_eq_ok_iff.2 ⟨_, endBlock_forget hend, rfl⟩
    | processBlock block =>
      obtain ⟨⟨answer, after⟩, hprocess, rfl⟩ := Checked.map_eq_ok_iff.1 h
      exact Checked.map_eq_ok_iff.2 ⟨_, processBlock_forget hprocess, rfl⟩
    | checkTx bytes => exact hplain _ h
    | deliverTx bytes => exact hplain _ h
    | commit => exact hplain _ h
    | abort => exact hplain .abort h

theorem run_forget {demands : List Demand} (h : numbered.run sum demands = .ok last) :
    numbered.replica.serveAll demands = .ok last.replica := by
  induction demands generalizing numbered with
  | nil =>
    cases h
    rfl
  | cons demand rest ih =>
    rw [run, List.foldlM_cons] at h
    obtain ⟨next, hserve, hrest⟩ := Checked.bind_eq_ok_iff.1 h
    rw [Replica.serveAll, List.foldlM_cons, serve_forget hserve]
    exact ih hrest

end Forgetting

end Numbered

end QuorumRounds
