import QuorumRounds.Proofs.Ballot.Votes
import QuorumRounds.Proofs.Payload.Same
import QuorumRounds.PriceOracle.Basic

/-! # Agreement between ballots

Two ballots of the same participants may see different transactions, in different orders. If no more
senders than are tolerated as faulty have sent different payloads to the two, both majorities have a
sender in common that has sent equal payloads to both, and so the majorities are for equal
payloads. -/

namespace QuorumRounds.Ballot
set_option autoImplicit false

variable {P κ : Type} [Ord κ] [Payload P κ] [DecidableEq κ] [Named κ]

omit [Ord κ] [DecidableEq κ] [Named κ] in
/-- The payloads of a common backer connect the two leading payloads. -/
theorem same_of_common_backer [LawfulPayload P] {v w p q : P}
    (hp : p = v ∨ Payload.same v p = true) (hq : q = w ∨ Payload.same w q = true)
    (hpq : Payload.same p q = true) : Payload.same v w = true := by
  have hvq : Payload.same v q = true := by
    rcases hp with rfl | hvp
    · exact hpq
    · exact LawfulPayload.same_trans hvp hpq
  rcases hq with rfl | hwq
  · exact hvq
  · exact LawfulPayload.same_trans hvq (LawfulPayload.same_symm hwq)

theorem majorities_agree [LawfulPayload P] {roundId₁ roundId₂ : String} {allowed₁ allowed₂ : κ}
    {context₁ context₂ : RoundContext κ} {opened₁ opened₂ : Ballot P κ}
    (hopen₁ : ofContext roundId₁ allowed₁ context₁ = .ok opened₁)
    (hopen₂ : ofContext roundId₂ allowed₂ context₂ = .ok opened₂)
    (hparams : context₁.params = context₂.params)
    (hparticipants : opened₁.poll.participants = opened₂.poll.participants)
    (hsize : opened₁.poll.participants.size ≤ context₁.params.maxParticipants.toNat)
    (txs₁ txs₂ : List (Transaction P)) (faulty : Finset String)
    (hfaulty : faulty.card ≤ context₁.params.maxFaulty)
    (hsound : ∀ s ∉ faulty, ∀ p q, (opened₁.feed txs₁).collection.get? s = some p →
      (opened₂.feed txs₂).collection.get? s = some q → Payload.same p q = true)
    (hreached₁ : (opened₁.feed txs₁).isReached = .ok true)
    (hreached₂ : (opened₂.feed txs₂).isReached = .ok true) :
    ∃ v w, (opened₁.feed txs₁).mostVoted = .ok (.ok v) ∧
      (opened₂.feed txs₂).mostVoted = .ok (.ok w) ∧ Payload.same v w = true := by
  obtain ⟨taken₁, h₁⟩ := (took_ofContext hopen₁).feed txs₁
  obtain ⟨taken₂, h₂⟩ := (took_ofContext hopen₂).feed txs₂
  have hparams₁ := params_of_ofContext hopen₁
  have hparams₂ := params_of_ofContext hopen₂
  obtain ⟨t, ht, _⟩ := Checked.map_eq_ok_iff.1 hreached₁
  have ht₂ : (opened₂.feed txs₂).poll.threshold = .ok t := by
    rw [h₁.poll_eq, Poll.threshold, hparams₁, hparams, ← hparams₂] at ht
    rw [h₂.poll_eq]
    exact ht
  obtain ⟨v, votes₁, hlead₁, hvotes₁, hmost₁⟩ := exists_leader_of_isReached ht hreached₁
  obtain ⟨w, votes₂, hlead₂, hvotes₂, hmost₂⟩ := exists_leader_of_isReached ht₂ hreached₂
  obtain ⟨senders₁, hcard₁, hsub₁, hback₁⟩ := h₁.backers hlead₁
  obtain ⟨senders₂, hcard₂, hsub₂, hback₂⟩ := h₂.backers hlead₂
  have hquorum : context₁.params.maxParticipants.toNat + context₁.params.maxFaulty < 2 * t := by
    rw [h₁.poll_eq, Poll.threshold, hparams₁] at ht
    exact ConsensusParams.add_maxFaulty_lt_two_mul_threshold ht
  rw [← hparticipants] at hsub₂
  obtain ⟨s, hs₁, hs₂, hs⟩ := exists_sound_mem_both hsub₁ hsub₂
    ((SortedMap.card_domain _).trans_le hsize) (hcard₁ ▸ hvotes₁) (hcard₂ ▸ hvotes₂) hfaulty hquorum
  obtain ⟨p, hp, hvp⟩ := hback₁ s hs₁
  obtain ⟨q, hq, hwq⟩ := hback₂ s hs₂
  exact ⟨v, w, hmost₁, hmost₂, same_of_common_backer hvp hwq (hsound s hs p q hp hq)⟩

/-! ## Four participants, one of them faulty -/

section Instance
open PriceOracle

def fourParticipants : RoundContext Kind where
  store := .ofSetup (Settings.setupData ["a", "b", "c", "d"])
  params := ⟨4, by decide⟩
  registry := ⟨.ofList PriceOracle.Payload.shapes⟩
  requiredConfirmations := 1

def zeroEstimate : PriceOracle.Payload := .estimate ⟨0⟩

def negativeZeroEstimate : PriceOracle.Payload := .estimate ⟨0x8000000000000000⟩

def oneEstimate : PriceOracle.Payload := .estimate ⟨0x3ff0000000000000⟩

/-- The last participant votes for one here and for zero in `otherVotes`, twice. -/
def someVotes : List (Transaction PriceOracle.Payload) :=
  [⟨"a", zeroEstimate⟩, ⟨"d", oneEstimate⟩, ⟨"b", zeroEstimate⟩, ⟨"c", negativeZeroEstimate⟩]

def otherVotes : List (Transaction PriceOracle.Payload) :=
  [⟨"d", zeroEstimate⟩, ⟨"d", zeroEstimate⟩, ⟨"c", negativeZeroEstimate⟩, ⟨"a", zeroEstimate⟩]

def openedByFour : Ballot PriceOracle.Payload Kind where
  poll :=
    { roundId := "estimate_consensus"
      allowed := .estimate
      store := fourParticipants.store
      params := fourParticipants.params
      participants := .ofList ["a", "b", "c", "d"]
      registry := fourParticipants.registry }
  collection := ∅
  tally := ∅
  confirmations := .ofRequired 1

theorem majorities_agree_on_zero :
    ofContext "estimate_consensus" .estimate fourParticipants = .ok openedByFour ∧
      (openedByFour.feed someVotes).isReached = .ok true ∧
      (openedByFour.feed otherVotes).isReached = .ok true ∧
      ∃ v w, (openedByFour.feed someVotes).mostVoted = .ok (.ok v) ∧
        (openedByFour.feed otherVotes).mostVoted = .ok (.ok w) ∧ Payload.same v w = true := by
  have hopen : ofContext "estimate_consensus" .estimate fourParticipants = .ok openedByFour := rfl
  have hsome : (openedByFour.feed someVotes).isReached = .ok true := by decide +kernel
  have hother : (openedByFour.feed otherVotes).isReached = .ok true := by decide +kernel
  have hsound : ∀ e ∈ (openedByFour.feed someVotes).collection.entries,
      ∀ f ∈ (openedByFour.feed otherVotes).collection.entries,
        e.1 ∉ ({"d"} : Finset String) → e.1 = f.1 → Payload.same e.2 f.2 = true := by
    decide +kernel
  refine ⟨hopen, hsome, hother, ?_⟩
  refine majorities_agree hopen hopen rfl rfl (by decide) _ _ {"d"} (by decide) ?_ hsome hother
  intro s hs p q hp hq
  exact hsound (s, p) (SortedMap.mem_entries_iff.2 hp) (s, q) (SortedMap.mem_entries_iff.2 hq) hs rfl

end Instance

end QuorumRounds.Ballot
