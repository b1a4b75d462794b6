import QuorumRounds.PriceOracle.Payload

/-! # Equality of payloads

Payloads are one vote when `Payload.same` says so. That relation is symmetric and transitive, but
not reflexive: a price that is no number equals no price. -/

namespace QuorumRounds
set_option autoImplicit false

class LawfulPayload (P : Type) {κ : outParam Type} [Payload P κ] : Prop where
  same_symm : ∀ {p q : P}, Payload.same p q = true → Payload.same q p = true
  same_trans : ∀ {p q r : P}, Payload.same p q = true → Payload.same q r = true →
    Payload.same p r = true

namespace PriceOracle.Payload

theorem same_comm (p q : Payload) : same p q = same q p := by
  cases p <;> cases q <;> simp [same, Binary64.equals_comm, BEq.comm]

theorem same_trans {p q r : Payload} (hpq : same p q = true) (hqr : same q r = true) :
    same p r = true := by
  cases p <;> cases q <;> simp only [same, Bool.false_eq_true] at hpq
  all_goals cases r <;> simp only [same, Bool.false_eq_true] at hqr ⊢
  · exact Binary64.equals_trans hpq hqr
  · exact Binary64.equals_trans hpq hqr
  · rw [beq_iff_eq] at hpq hqr ⊢
    exact hpq.trans hqr

instance : LawfulPayload Payload where
  same_symm := fun {p q} h => by
    change same q p = true
    rw [same_comm]
    exact h
  same_trans := same_trans

end PriceOracle.Payload

end QuorumRounds
