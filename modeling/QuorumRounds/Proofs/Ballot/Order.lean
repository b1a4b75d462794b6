import QuorumRounds.Proofs.Ballot.Votes
import QuorumRounds.Proofs.Payload.Same
import QuorumRounds.Proofs.Tally.Groups

/-! # Votes in any order

The order in which votes come in decides in which order a tally lists its candidates, and which of
several equal payloads stands for its group. It does not decide how many votes a candidate has, so
ballots that have taken the same votes stand at the same point (`SameVotes.decide`), if need be with
different payloads that lead. -/

namespace QuorumRounds.Ballot
set_option autoImplicit false
open Checked (Both)

variable {P κ : Type} [Ord κ] {ballot other : Ballot P κ}

/-- The same payloads of the same senders, among the same participants. -/
structure SameVotes (ballot other : Ballot P κ) : Prop where
  params_eq : ballot.poll.params = other.poll.params
  participants_eq : ballot.poll.participants = other.poll.participants
  collection_eq : ballot.collection = other.collection
  confirmations_eq : ballot.confirmations = other.confirmations

namespace SameVotes
variable [Payload P κ] [DecidableEq κ] [Named κ] {poll poll' : Poll κ} {required required' : UInt64}
  {taken taken' : List (Transaction P)}

theorem ballots_perm (hsame : SameVotes ballot other) (h : ballot.Took poll required taken)
    (h' : other.Took poll' required' taken') : (ballots taken).Perm (ballots taken') := by
  have hcollected : collected taken = collected taken' :=
    h.collection_eq.symm.trans (hsame.collection_eq.trans h'.collection_eq)
  have hperm := h.took.perm_entries
  rw [hcollected] at hperm
  exact hperm.trans h'.took.perm_entries.symm

variable [LawfulPayload P]

theorem hasMajority_eq (hsame : SameVotes ballot other) (h : ballot.Took poll required taken)
    (h' : other.Took poll' required' taken') (threshold : Nat) :
    ballot.tally.hasMajority threshold = other.tally.hasMajority threshold := by
  rw [h.tally_eq, h'.tally_eq]
  apply Tally.hasMajority_perm (hsame.ballots_perm h h')
  rw [map_fst_ballots]
  exact h.took.senders_nodup

theorem isMajorityPossible_eq (hsame : SameVotes ballot other) (h : ballot.Took poll required taken)
    (h' : other.Took poll' required' taken') (threshold : Nat) :
    ballot.tally.isMajorityPossible ballot.poll.participants.size threshold =
      other.tally.isMajorityPossible other.poll.participants.size threshold := by
  have hvotes : ballot.tally.mostVotes = other.tally.mostVotes := by
    rw [h.tally_eq, h'.tally_eq]
    apply Tally.mostVotes_perm (hsame.ballots_perm h h')
    rw [map_fst_ballots]
    exact h.took.senders_nodup
  have hvoters : ballot.tally.voters.size = other.tally.voters.size := by
    rw [← SortedMap.card_domain, ← SortedMap.card_domain, h.voters_eq, h'.voters_eq,
      hsame.collection_eq]
  rw [Tally.isMajorityPossible, Tally.isMajorityPossible, hvotes, hvoters, hsame.participants_eq]

/-- Both ballots wait, have an outcome, or can have none any more. -/
theorem decide (hsame : SameVotes ballot other) (h : ballot.Took poll required taken)
    (h' : other.Took poll' required' taken') :
    Both (fun x y => x.1.map (fun _ => ()) = y.1.map (fun _ => ()) ∧ ∃ confirmations,
        x.2 = { ballot with confirmations := confirmations } ∧
        y.2 = { other with confirmations := confirmations })
      ballot.decide other.decide := by
  have hthreshold : other.poll.threshold = ballot.poll.threshold := by
    rw [Poll.threshold, Poll.threshold, hsame.params_eq]
  cases ht : ballot.poll.threshold with
  | error e =>
    rw [Ballot.decide, Ballot.decide, hthreshold, ht]
    exact .error e
  | ok threshold =>
    rw [ht] at hthreshold
    have hreached := hsame.hasMajority_eq h h' threshold
    cases hmajority : ballot.tally.hasMajority threshold with
    | false =>
      have hmajority' : other.tally.hasMajority threshold = false := hreached.symm.trans hmajority
      rw [decide_of_not_hasMajority ht hmajority, decide_of_not_hasMajority hthreshold hmajority',
        hsame.isMajorityPossible_eq h h']
      exact .ok ⟨rfl, ballot.confirmations, rfl, by rw [hsame.confirmations_eq]⟩
    | true =>
      obtain ⟨payload, votes, hlead, hvotes⟩ := Tally.exists_leader? hmajority
      obtain ⟨payload', votes', hlead', hvotes'⟩ :=
        Tally.exists_leader? (hreached.symm.trans hmajority)
      rw [decide_of_leader ht hlead hvotes, decide_of_leader hthreshold hlead' hvotes',
        hsame.confirmations_eq]
      apply Both.map (Both.of_eq rfl fun _ _ => rfl)
      rintro confirmations _ rfl
      refine ⟨?_, confirmations, rfl, rfl⟩
      cases confirmations.isComplete <;> rfl

end SameVotes

end QuorumRounds.Ballot
