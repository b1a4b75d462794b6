import QuorumRounds.Confirmations
import QuorumRounds.Decision
import QuorumRounds.Proofs.Checked

/-! # The blocks for which a decision is held back

`heldBack required outcome n` is what `n` successive blocks past the threshold answer: the required
number of them wait, and every later one gives the outcome. -/

namespace QuorumRounds
set_option autoImplicit false

namespace Confirmations

theorem tick_eq_ok_iff {before after : Confirmations} :
    before.tick = .ok after ↔
      after.required = before.required ∧ after.seen.toNat = before.seen.toNat + 1 := by
  obtain ⟨required, seen⟩ := after
  simp only [tick, Checked.bind_eq_ok_iff, Checked.pure_eq_ok, Except.ok.injEq, mk.injEq]
  constructor
  · rintro ⟨next, hnext, rfl, rfl⟩
    exact ⟨rfl, Word.succ_eq_ok_iff.1 hnext⟩
  · rintro ⟨rfl, hseen⟩
    exact ⟨seen, Word.succ_eq_ok_iff.2 hseen, rfl, rfl⟩

theorem tick_eq_error {confirmations : Confirmations}
    (h : confirmations.seen.toNat + 1 = UInt64.size) : confirmations.tick = .error .add := by
  rw [tick, Word.succ_eq_error h]
  rfl

theorem exists_tick {confirmations : Confirmations}
    (h : confirmations.seen.toNat + 1 < UInt64.size) : ∃ after, confirmations.tick = .ok after := by
  obtain ⟨seen, hseen⟩ := Word.exists_succ h
  rw [tick, hseen]
  exact ⟨_, rfl⟩

end Confirmations

def heldBack {α : Type} (required : Nat) (outcome : α) (n : Nat) : List (Decision α) :=
  List.replicate (min required n) .pending ++ List.replicate (n - required) (.reached outcome)

theorem heldBack_succ {α : Type} (required : Nat) (outcome : α) (n : Nat) :
    heldBack required outcome (n + 1) =
      heldBack required outcome n ++ [if required < n + 1 then .reached outcome else .pending] := by
  unfold heldBack
  by_cases h : required < n + 1
  · have hmin : min required (n + 1) = min required n := by omega
    have hsub : n + 1 - required = n - required + 1 := by omega
    rw [if_pos h, hmin, hsub, List.replicate_succ', List.append_assoc]
  · have hmin : min required (n + 1) = min required n + 1 := by omega
    have hsub : n + 1 - required = 0 := by omega
    have hsub' : n - required = 0 := by omega
    rw [if_neg h, hmin, hsub, hsub', List.replicate_succ']
    simp

end QuorumRounds
