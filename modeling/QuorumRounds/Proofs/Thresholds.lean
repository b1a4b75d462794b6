import Mathlib.Order.Bounds.Basic
import QuorumRounds.Proofs.Quorum
import QuorumRounds.Proofs.Wire.Configs

/-! # Thresholds over the whole range of words

A threshold is the least number above two thirds of the participants, and also what remains of them
without the greatest tolerable number of faulty ones: one formula doubles the number of participants
and the other does not, so beyond half the range of words only the other one has a value. Both are
computed on words here, where every intermediate result has to fit. -/

namespace QuorumRounds
set_option autoImplicit false

/-! ## On words -/

/-- Once the number of participants is doubled, nothing overflows any more. -/
theorem threshold_eq_thresholdWord (n : UInt64) :
    threshold n = (thresholdWord n).map UInt64.toNat := by
  unfold threshold thresholdWord
  cases Word.double n with
  | error e => rfl
  | ok doubled =>
    have hdiv : (doubled / 3).toNat = doubled.toNat / 3 := UInt64.toNat_div _ _
    have hlt := Word.toNat_lt_size doubled
    have hfits : doubled.toNat / 3 + 1 < UInt64.size := by
      simp only [UInt64.size] at hlt ⊢
      omega
    have hword : (UInt64.ofNat (doubled.toNat / 3 + 1)).toNat = doubled.toNat / 3 + 1 :=
      UInt64.toNat_ofNat_of_lt' hfits
    have hsucc : Word.succ (doubled / 3) = .ok (UInt64.ofNat (doubled.toNat / 3 + 1)) :=
      Word.succ_eq_ok_iff.2 (by rw [hword, hdiv])
    show Except.ok _ = Except.map UInt64.toNat (Word.succ (doubled / 3))
    rw [hsucc, Except.map, hword]

theorem threshold_eq_error_iff {n : UInt64} {e : Overflow} :
    threshold n = .error e ↔ 2 ^ 63 ≤ n.toNat ∧ e = .multiply := by
  have hhalf : 2 * n.toNat < UInt64.size ↔ n.toNat < 2 ^ 63 := by
    simp only [UInt64.size]
    omega
  unfold threshold Word.double
  by_cases h : n.toNat < 2 ^ 63
  · rw [if_pos (hhalf.2 h)]
    constructor
    · intro herr
      cases herr
    · rintro ⟨hle, -⟩
      exact absurd h (Nat.not_lt.2 hle)
  · rw [if_neg (mt hhalf.1 h)]
    constructor
    · intro herr
      cases herr
      exact ⟨Nat.not_lt.1 h, rfl⟩
    · rintro ⟨-, rfl⟩
      rfl

namespace ConsensusParams
variable (params : ConsensusParams)

theorem maxFaulty_lt : params.maxFaulty < params.maxParticipants.toNat := by
  have hpos := params.positive
  unfold maxFaulty
  omega

theorem exists_maxFaultyWord :
    ∃ faulty, params.maxFaultyWord? = some faulty ∧ faulty.toNat = params.maxFaulty := by
  have hpos := params.positive
  have hle : (1 : UInt64) ≤ params.maxParticipants := UInt64.le_iff_toNat_le.2 hpos
  have hsub : Word.sub? params.maxParticipants 1 = some (params.maxParticipants - 1) := if_pos hle
  refine ⟨(params.maxParticipants - 1) / 3, by rw [maxFaultyWord?, hsub, Option.map_some], ?_⟩
  rw [UInt64.toNat_div, UInt64.toNat_sub_of_le _ _ hle]
  rfl

theorem exists_consensusThresholdWord :
    ∃ t, params.consensusThresholdWord? = some t ∧ t.toNat = params.consensusThreshold := by
  obtain ⟨faulty, hword, hfaulty⟩ := params.exists_maxFaultyWord
  have hlt := params.maxFaulty_lt
  have hle : faulty ≤ params.maxParticipants := UInt64.le_iff_toNat_le.2 (by omega)
  refine ⟨params.maxParticipants - faulty, ?_, ?_⟩
  · rw [consensusThresholdWord?, hword]
    exact if_pos hle
  · rw [UInt64.toNat_sub_of_le _ _ hle, hfaulty]
    rfl

end ConsensusParams

/-! ## Quorums -/

/-- What `t` of `n` participants decide although up to `f` of them are faulty. -/
structure Quorate (n f t : Nat) : Prop where
  least : IsLeast {t | 2 * n < 3 * t} t
  pos : 1 ≤ t
  le : t ≤ n
  greatest : IsGreatest {f | 3 * f + 1 ≤ n} f
  others : n - f = t
  share {α : Type} [DecidableEq α] {everyone a b : Finset α} (hcard : everyone.card = n)
    (ha : a ⊆ everyone) (hb : b ⊆ everyone) (hat : t ≤ a.card) (hbt : t ≤ b.card) :
    f < (a ∩ b).card
  reach {α : Type} [DecidableEq α] {everyone faulty : Finset α} (hcard : everyone.card = n)
    (hfaulty : faulty.card ≤ f) : t ≤ (everyone \ faulty).card

/-- Whatever the remainder of the number of participants by three. -/
theorem quorate_of_pos {n : Nat} (hn : 0 < n) : Quorate n ((n - 1) / 3) (2 * n / 3 + 1) where
  least := by
    constructor
    · show 2 * n < 3 * (2 * n / 3 + 1)
      omega
    · intro t (ht : 2 * n < 3 * t)
      omega
  pos := by omega
  le := by omega
  greatest := by
    constructor
    · show 3 * ((n - 1) / 3) + 1 ≤ n
      omega
    · intro f (hf : 3 * f + 1 ≤ n)
      omega
  others := by omega
  share hcard ha hb hat hbt := by
    have hle := card_add_card_le ha hb
    omega
  reach {_ _ everyone faulty} hcard hfaulty := by
    have hle := Finset.le_card_sdiff faulty everyone
    omega

namespace ConsensusParams

theorem quorate {params : ConsensusParams} {t : Nat} (h : params.threshold = .ok t) :
    Quorate params.maxParticipants.toNat params.maxFaulty t := by
  obtain ⟨-, rfl⟩ := threshold_eq_ok_iff.1 h
  exact quorate_of_pos params.positive

end ConsensusParams

/-- One participant more raises the threshold by one at most. -/
theorem threshold_mono {m n : UInt64} {s t : Nat} (hs : threshold m = .ok s)
    (ht : threshold n = .ok t) (hle : m.toNat ≤ n.toNat) :
    s ≤ t ∧ t ≤ s + (n.toNat - m.toNat) := by
  obtain ⟨-, rfl⟩ := threshold_eq_ok_iff.1 hs
  obtain ⟨-, rfl⟩ := threshold_eq_ok_iff.1 ht
  constructor <;> omega

/-- A number of participants is refused exactly if it is zero, by the constructor and by the reader,
whatever follows the number. -/
theorem quorum_arithmetic_over_the_whole_range :
    (∀ n : UInt64,
      (∀ reason, ConsensusParams.ofMaxParticipants n = .error reason ↔
        n = 0 ∧ reason = .maxParticipantsTooLow 0) ∧
      (n ≠ 0 → ∃ params : ConsensusParams, params.maxParticipants = n ∧
        ConsensusParams.ofMaxParticipants n = .ok params) ∧
      ∀ rest,
        (n = 0 → Wire.decode ConsensusParams (Wire.write n ++ rest) =
          .error (.encoding (.invalidConfig (.maxParticipantsTooLow 0)))) ∧
        (n ≠ 0 → ∃ params : ConsensusParams, params.maxParticipants = n ∧
          (Wire.read : Reader ConsensusParams).run (Wire.write n ++ rest) = .ok (params, rest))) ∧
    (∀ params : ConsensusParams, params.maxParticipants.toNat < 2 ^ 63 →
      ∃ t, threshold params.maxParticipants = .ok t ∧ params.threshold = .ok t ∧
        params.consensusThreshold = t ∧
        Quorate params.maxParticipants.toNat params.maxFaulty t) ∧
    (∀ m n : UInt64, ∀ s t, threshold m = .ok s → threshold n = .ok t → m.toNat ≤ n.toNat →
      s ≤ t ∧ t ≤ s + (n.toNat - m.toNat)) ∧
    ∀ params : ConsensusParams,
      (∀ e, params.threshold = .error e ↔
        2 ^ 63 ≤ params.maxParticipants.toNat ∧ e = .multiply) ∧
      params.threshold = (thresholdWord params.maxParticipants).map UInt64.toNat ∧
      (∃ faulty, params.maxFaultyWord? = some faulty ∧ faulty.toNat = params.maxFaulty) ∧
      ∃ t, params.consensusThresholdWord? = some t ∧ t.toNat = params.consensusThreshold := by
  refine ⟨fun n => ⟨?_, ?_, fun rest => ⟨?_, ?_⟩⟩, ?_, ?_, ?_⟩
  · exact fun reason => ConsensusParams.ofMaxParticipants_eq_error_iff
  · intro hn
    obtain ⟨params, rfl⟩ := ConsensusParams.exists_of_ne_zero hn
    exact ⟨params, rfl, ConsensusParams.ofMaxParticipants_eq_ok_iff.2 rfl⟩
  · rintro rfl
    rw [Wire.decode, ConsensusParams.read_of_zero]
  · intro hn
    obtain ⟨params, rfl⟩ := ConsensusParams.exists_of_ne_zero hn
    exact ⟨params, rfl, (ConsensusParams.reads_params.spells rfl).whole rest⟩
  · intro params hlt
    obtain ⟨t, ht⟩ := ConsensusParams.exists_threshold hlt
    exact ⟨t, ht, ht, (ConsensusParams.quorate ht).others, ConsensusParams.quorate ht⟩
  · exact fun m n s t => threshold_mono
  · exact fun params => ⟨fun e => threshold_eq_error_iff, threshold_eq_thresholdWord _,
      params.exists_maxFaultyWord, params.exists_consensusThresholdWord⟩

/-- Four participants, one of whom may be faulty. Half the range of words has no threshold. -/
theorem quorum_arithmetic_for_four_and_for_half_the_range :
    (∃ params : ConsensusParams, params.maxParticipants = 4 ∧ params.maxFaulty = 1 ∧
      params.threshold = .ok 3 ∧ params.consensusThreshold = 3 ∧
      1 < (({0, 1, 2} : Finset Nat) ∩ {1, 2, 3}).card ∧
      3 ≤ (({0, 1, 2, 3} : Finset Nat) \ {2}).card) ∧
    ConsensusParams.ofMaxParticipants 0 = .error (.maxParticipantsTooLow 0) ∧
    Wire.decode ConsensusParams (Wire.write (0 : UInt64) ++ [7]) =
      .error (.encoding (.invalidConfig (.maxParticipantsTooLow 0))) ∧
    ∃ params : ConsensusParams, params.maxParticipants = 0x8000000000000000 ∧
      params.threshold = .error .multiply ∧ params.maxFaulty = 3074457345618258602 ∧
      params.consensusThreshold = 6148914691236517206 := by
  obtain ⟨hrange, hquorate, hmono, hwords⟩ := quorum_arithmetic_over_the_whole_range
  obtain ⟨four, hfour, -⟩ := (hrange 4).2.1 (by decide)
  obtain ⟨t, hthreshold, hparams, hconsensus, hq⟩ := hquorate four (by rw [hfour]; decide)
  obtain ⟨half, hhalf, -⟩ := (hrange 0x8000000000000000).2.1 (by decide)
  obtain rfl : t = 3 := by
    rw [hfour] at hthreshold
    have h3 : threshold 4 = .ok 3 := rfl
    rw [h3] at hthreshold
    cases hthreshold
    rfl
  have hfaulty : four.maxFaulty = 1 := by rw [ConsensusParams.maxFaulty, hfour]; rfl
  rw [hfour, hfaulty] at hq
  have hcard : ({0, 1, 2, 3} : Finset Nat).card = 4 := rfl
  refine ⟨⟨four, hfour, hfaulty, hparams, hconsensus, ?_, ?_⟩, ((hrange 0).1 _).2 ⟨rfl, rfl⟩,
    ((hrange 0).2.2 [7]).1 rfl, half, hhalf, ?_, ?_, ?_⟩
  · exact hq.share hcard (by decide) (by decide) (by decide) (by decide)
  · exact hq.reach hcard (by decide)
  · exact ((hwords half).1 _).2 ⟨by rw [hhalf]; decide, rfl⟩
  · rw [ConsensusParams.maxFaulty, hhalf]
    rfl
  · rw [ConsensusParams.consensusThreshold, ConsensusParams.maxFaulty, hhalf]
    rfl

end QuorumRounds
