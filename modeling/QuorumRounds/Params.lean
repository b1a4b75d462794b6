import QuorumRounds.Error
import QuorumRounds.Overflow

/-! # Quorum arithmetic

A decision needs more than two thirds of the greatest admissible number of participants, so that any
two quorums share a participant who is not faulty.

* `threshold n`: the least number above two thirds of `n`. Doubling `n` may overflow.
* `ConsensusParams`: the greatest admissible number of participants, which is not zero.
-/

namespace QuorumRounds
set_option autoImplicit false

/-- The number of participants that a decision needs, of at most so many. -/
def threshold (maxParticipants : UInt64) : Checked Nat :=
  (Word.double maxParticipants).map fun doubled => doubled.toNat / 3 + 1

/-- The parameters that are fixed for a run. -/
structure ConsensusParams where
  maxParticipants : UInt64
  positive : 0 < maxParticipants.toNat
deriving DecidableEq

namespace ConsensusParams

/-- No participants at all are too few. -/
def ofMaxParticipants (n : UInt64) : Except ConfigError ConsensusParams :=
  if h : 0 < n.toNat then .ok ⟨n, h⟩ else .error (.maxParticipantsTooLow n)

/-- The number of participants that a decision needs. -/
def threshold (params : ConsensusParams) : Checked Nat :=
  QuorumRounds.threshold params.maxParticipants

/-- The most participants that may be faulty: the greatest `f` with `3 * f + 1` at most the
number of participants. -/
def maxFaulty (params : ConsensusParams) : Nat := (params.maxParticipants.toNat - 1) / 3

/-- As many as are never faulty. -/
def consensusThreshold (params : ConsensusParams) : Nat :=
  params.maxParticipants.toNat - params.maxFaulty

end ConsensusParams

/-! ## On words -/

/-- The number of participants that a decision needs, made on words. -/
def thresholdWord (maxParticipants : UInt64) : Checked UInt64 := do
  let doubled ← Word.double maxParticipants
  Word.succ (doubled / 3)

namespace ConsensusParams

/-- The most participants that may be faulty, made on words. -/
def maxFaultyWord? (params : ConsensusParams) : Option UInt64 :=
  (Word.sub? params.maxParticipants 1).map (· / 3)

/-- As many as are never faulty, made on words. -/
def consensusThresholdWord? (params : ConsensusParams) : Option UInt64 := do
  let faulty ← params.maxFaultyWord?
  Word.sub? params.maxParticipants faulty

end ConsensusParams

/-! ## The threshold -/

theorem threshold_eq_ok_iff {n : UInt64} {t : Nat} :
    threshold n = .ok t ↔ 2 * n.toNat < UInt64.size ∧ t = 2 * n.toNat / 3 + 1 := by
  unfold threshold
  cases h : Word.double n with
  | error e =>
    refine ⟨fun hf => (by cases hf), fun hf => ?_⟩
    have hd : Word.double n = .ok (2 * n) := if_pos hf.1
    rw [h] at hd
    cases hd
  | ok d =>
    have hd := Word.double_eq_ok_iff.1 h
    have hlt := Word.toNat_lt_size d
    change Except.ok (d.toNat / 3 + 1) = Except.ok t ↔ _
    rw [Except.ok.injEq, hd]
    constructor
    · rintro rfl
      exact ⟨by omega, rfl⟩
    · rintro ⟨_, rfl⟩
      rfl

end QuorumRounds
