import Mathlib.Algebra.Group.Nat.Defs
import Mathlib.Data.Finset.Card
import QuorumRounds.Params

/-! # What two quorums share

The threshold is more than half of the greatest admissible number of participants, and two
thresholds exceed that number by more than the faulty participants it tolerates. So two majorities
always have a member in common (`exists_mem_both`), and a common member outside any set of faulty
participants (`exists_sound_mem_both`). -/

namespace QuorumRounds
set_option autoImplicit false

namespace ConsensusParams

theorem threshold_eq_ok_iff {params : ConsensusParams} {t : Nat} :
    params.threshold = .ok t ↔
      2 * params.maxParticipants.toNat < UInt64.size ∧
        t = 2 * params.maxParticipants.toNat / 3 + 1 :=
  QuorumRounds.threshold_eq_ok_iff

theorem exists_threshold {params : ConsensusParams}
    (h : params.maxParticipants.toNat < 2 ^ 63) : ∃ t, params.threshold = .ok t :=
  ⟨_, threshold_eq_ok_iff.2 ⟨by simp only [UInt64.size]; omega, rfl⟩⟩

theorem lt_two_mul_threshold {params : ConsensusParams} {t : Nat}
    (h : params.threshold = .ok t) : params.maxParticipants.toNat < 2 * t := by
  obtain ⟨_, rfl⟩ := threshold_eq_ok_iff.1 h
  omega

theorem threshold_pos {params : ConsensusParams} {t : Nat} (h : params.threshold = .ok t) :
    0 < t := by
  obtain ⟨_, rfl⟩ := threshold_eq_ok_iff.1 h
  omega

/-- Holds for each remainder of the number of participants by three. -/
theorem add_maxFaulty_lt_two_mul_threshold {params : ConsensusParams} {t : Nat}
    (h : params.threshold = .ok t) :
    params.maxParticipants.toNat + params.maxFaulty < 2 * t := by
  obtain ⟨_, rfl⟩ := threshold_eq_ok_iff.1 h
  have hpos := params.positive
  unfold maxFaulty
  omega

end ConsensusParams

section Intersection
variable {α : Type} [DecidableEq α] {everyone a b : Finset α} {n t : Nat}

theorem card_add_card_le (ha : a ⊆ everyone) (hb : b ⊆ everyone) :
    a.card + b.card ≤ everyone.card + (a ∩ b).card := by
  have hunion := Finset.card_le_card (Finset.union_subset ha hb)
  have hsum := Finset.card_union_add_card_inter a b
  omega

theorem exists_mem_both (ha : a ⊆ everyone) (hb : b ⊆ everyone) (hcard : everyone.card ≤ n)
    (hat : t ≤ a.card) (hbt : t ≤ b.card) (hn : n < 2 * t) : ∃ x ∈ a, x ∈ b := by
  have hle := card_add_card_le ha hb
  have hpos : 0 < (a ∩ b).card := by omega
  obtain ⟨x, hx⟩ := Finset.card_pos.1 hpos
  rw [Finset.mem_inter] at hx
  exact ⟨x, hx⟩

theorem exists_sound_mem_both {faulty : Finset α} {f : Nat} (ha : a ⊆ everyone)
    (hb : b ⊆ everyone) (hcard : everyone.card ≤ n) (hat : t ≤ a.card) (hbt : t ≤ b.card)
    (hf : faulty.card ≤ f) (hn : n + f < 2 * t) : ∃ x ∈ a, x ∈ b ∧ x ∉ faulty := by
  have hle := card_add_card_le ha hb
  have hlt : faulty.card < (a ∩ b).card := by omega
  obtain ⟨x, hx, hsound⟩ := Finset.exists_mem_notMem_of_card_lt_card hlt
  rw [Finset.mem_inter] at hx
  exact ⟨x, hx.1, hx.2, hsound⟩

end Intersection

end QuorumRounds
