import QuorumRounds.Proofs.Round.Confirmations
import QuorumRounds.Proofs.Round.Poll
import QuorumRounds.Proofs.Tally.Votes
import QuorumRounds.Round.Ballot

/-! # What a ballot holds

A ballot keeps its votes twice, by sender and as a tally. Both follow from the transactions that it
has taken, in their order (`Ballot.Took`), so they never drift apart.

* `Ballot.Took.accept`: taking one more transaction.
* `Ballot.feed`: processes transactions in turn, refused ones included; what it leaves behind is
  always a ballot that has taken some of them (`Took.feed`).
* `Ballot.Took.backers`: the senders behind the leader. -/

namespace QuorumRounds.Ballot
set_option autoImplicit false

variable {P κ : Type} [Ord κ] [Payload P κ] [DecidableEq κ] [Named κ]

omit [Payload P κ] [DecidableEq κ] [Named κ] in
theorem ofContext_eq_ok_iff {roundId : String} {allowed : κ} {context : RoundContext κ}
    {ballot : Ballot P κ} :
    ofContext roundId allowed context = .ok ballot ↔
      ∃ poll, Poll.ofContext roundId allowed context = .ok poll ∧
        ballot = ⟨poll, ∅, ∅, .ofRequired context.requiredConfirmations⟩ := by
  unfold ofContext
  cases Poll.ofContext roundId allowed context with
  | error e => simp [Except.map]
  | ok poll => simp [Except.map, eq_comm]

omit [Payload P κ] [DecidableEq κ] [Named κ] in
theorem params_of_ofContext {roundId : String} {allowed : κ} {context : RoundContext κ}
    {ballot : Ballot P κ} (h : ofContext roundId allowed context = .ok ballot) :
    ballot.poll.params = context.params := by
  obtain ⟨poll, hpoll, rfl⟩ := ofContext_eq_ok_iff.1 h
  obtain ⟨participants, _, rfl⟩ := Poll.ofContext_eq_ok_iff.1 hpoll
  rfl

/-! ## Payloads -/

theorem check_eq_ok_iff {ballot : Ballot P κ} {tx : Transaction P} :
    ballot.check tx = .ok () ↔
      ballot.poll.check tx = .ok () ∧ ballot.collection.contains tx.sender = false := by
  unfold check
  cases ballot.poll.check tx with
  | error reason => simp
  | ok _ =>
    cases hsent : ballot.collection.contains tx.sender <;> simp

theorem process_eq_ok_iff {ballot after : Ballot P κ} {tx : Transaction P} :
    ballot.process tx = .ok after ↔ ballot.check tx = .ok () ∧ after = ballot.accept tx := by
  unfold process
  cases ballot.check tx with
  | error reason => simp
  | ok _ => simp [eq_comm]

/-- Nobody is refused for what another one has sent. -/
theorem check_accept {ballot : Ballot P κ} {tx other : Transaction P}
    (h : tx.sender ≠ other.sender) : (ballot.accept tx).check other = ballot.check other := by
  simp only [check, accept, SortedMap.contains_insert_of_ne _ h.symm]

/-- Processes the transactions in turn; a refused one changes nothing. -/
def feed (ballot : Ballot P κ) (txs : List (Transaction P)) : Ballot P κ :=
  txs.foldl (fun b tx => match b.process tx with
    | .ok after => after
    | .error _ => b) ballot

structure Took (ballot : Ballot P κ) (poll : Poll κ) (required : UInt64)
    (taken : List (Transaction P)) : Prop where
  poll_eq : ballot.poll = poll
  required_eq : ballot.confirmations.required = required
  took : poll.Took taken
  collection_eq : ballot.collection = collected taken
  tally_eq : ballot.tally = Tally.ofVotes (ballots taken)

theorem took_ofContext {roundId : String} {allowed : κ} {context : RoundContext κ}
    {ballot : Ballot P κ} (h : ofContext roundId allowed context = .ok ballot) :
    ballot.Took ballot.poll context.requiredConfirmations [] := by
  obtain ⟨poll, _, rfl⟩ := ofContext_eq_ok_iff.1 h
  exact ⟨rfl, rfl, Poll.Took.nil poll, rfl, rfl⟩

namespace Took
variable {ballot : Ballot P κ} {poll : Poll κ} {required : UInt64} {taken : List (Transaction P)}

theorem accept {tx : Transaction P} (h : ballot.Took poll required taken)
    (hcheck : ballot.check tx = .ok ()) :
    (ballot.accept tx).Took poll required (taken ++ [tx]) := by
  obtain ⟨hpass, hnew⟩ := check_eq_ok_iff.1 hcheck
  rw [h.poll_eq] at hpass
  rw [h.collection_eq] at hnew
  refine ⟨h.poll_eq, h.required_eq, h.took.concat hpass hnew, ?_, ?_⟩
  · rw [collected_concat, ← h.collection_eq]
    rfl
  · rw [ballots, List.map_append, List.map_singleton, Tally.ofVotes_concat, ← ballots,
      ← h.tally_eq]
    rfl

theorem feed (h : ballot.Took poll required taken) (txs : List (Transaction P)) :
    ∃ more, (ballot.feed txs).Took poll required (taken ++ more) := by
  induction txs generalizing ballot taken with
  | nil => exact ⟨[], by simpa [Ballot.feed] using h⟩
  | cons tx txs ih =>
    cases hprocess : ballot.process tx with
    | error e =>
      have hfeed : ballot.feed (tx :: txs) = ballot.feed txs := by
        simp only [Ballot.feed, List.foldl_cons, hprocess]
      rw [hfeed]
      exact ih h
    | ok after =>
      obtain ⟨hcheck, rfl⟩ := process_eq_ok_iff.1 hprocess
      have hfeed : ballot.feed (tx :: txs) = (ballot.accept tx).feed txs := by
        simp only [Ballot.feed, List.foldl_cons, hprocess]
      rw [hfeed]
      obtain ⟨more, hmore⟩ := ih (h.accept hcheck)
      exact ⟨tx :: more, by simpa using hmore⟩

theorem counts (h : ballot.Took poll required taken) : ballot.tally.Counts (ballots taken) := by
  rw [h.tally_eq]
  apply Tally.counts_ofVotes
  rw [map_fst_ballots]
  exact h.took.senders_nodup

theorem voters_eq (h : ballot.Took poll required taken) :
    ballot.tally.voters.domain = ballot.collection.domain := by
  rw [h.counts.voters_eq, h.collection_eq, domain_collected, map_fst_ballots]

theorem voters_size_le (h : ballot.Took poll required taken) :
    ballot.tally.voters.size ≤ poll.participants.size := by
  rw [← SortedMap.card_domain, h.voters_eq, h.collection_eq, SortedMap.card_domain]
  exact h.took.size_le

/-- Fewer have voted than two thresholds, if the participants are as many as admissible. -/
theorem voters_size_lt (h : ballot.Took poll required taken) {threshold : Nat}
    (ht : poll.threshold = .ok threshold)
    (hsize : poll.participants.size ≤ poll.params.maxParticipants.toNat) :
    ballot.tally.voters.size < 2 * threshold := by
  have hvoters := h.voters_size_le
  have hn := ConsensusParams.lt_two_mul_threshold ht
  omega

/-- Each sender behind the leader is a participant that has sent the leading payload, or an equal
one. -/
theorem backers (h : ballot.Took poll required taken) {payload : P} {votes : Nat}
    (hlead : ballot.tally.leader? = some (payload, votes)) :
    ∃ senders : Finset String, senders.card = votes ∧ senders ⊆ poll.participants.domain ∧
      ∀ s ∈ senders, ∃ q, ballot.collection.get? s = some q ∧
        (q = payload ∨ Payload.same payload q = true) := by
  obtain ⟨senders, hmem, hsize⟩ := (Tally.leader?_eq_some hlead).exists_mem
  refine ⟨senders.domain, (SortedMap.card_domain senders).trans hsize, ?_, ?_⟩
  · have hsub := h.counts.senders_subset hmem
    rw [h.voters_eq, h.collection_eq] at hsub
    exact hsub.trans h.took.senders_subset
  · intro s hs
    obtain ⟨q, hq, heq⟩ := h.counts.backed _ hmem s hs
    refine ⟨q, ?_, heq⟩
    obtain ⟨tx, htx, hpair⟩ := List.mem_map.1 hq
    obtain ⟨rfl, rfl⟩ := Prod.mk.inj hpair
    rw [h.collection_eq, h.took.get?_collected]
    exact htx

end Took

/-! ## Outcome -/

section Outcome
omit [Payload P κ] [DecidableEq κ] [Named κ]
variable {ballot : Ballot P κ} {threshold : Nat}

theorem isReached_eq (ht : ballot.poll.threshold = .ok threshold) :
    ballot.isReached = .ok (ballot.tally.hasMajority threshold) := by
  rw [isReached, ht]
  rfl

theorem mostVoted_of_leader (ht : ballot.poll.threshold = .ok threshold) {payload : P}
    {votes : Nat} (hlead : ballot.tally.leader? = some (payload, votes)) :
    ballot.mostVoted =
      .ok (if threshold ≤ votes then .ok payload else .error .notEnoughVotes) := by
  rw [mostVoted, hlead]
  simp only [ht]
  rfl

theorem exists_leader_of_isReached (ht : ballot.poll.threshold = .ok threshold)
    (h : ballot.isReached = .ok true) :
    ∃ payload votes, ballot.tally.leader? = some (payload, votes) ∧ threshold ≤ votes ∧
      ballot.mostVoted = .ok (.ok payload) := by
  rw [isReached_eq ht, Except.ok.injEq] at h
  obtain ⟨payload, votes, hlead, hvotes⟩ := Tally.exists_leader? h
  exact ⟨payload, votes, hlead, hvotes, by rw [mostVoted_of_leader ht hlead, if_pos hvotes]⟩

theorem mostVoted_of_not_isReached (ht : ballot.poll.threshold = .ok threshold)
    (h : ballot.isReached = .ok false) : ballot.mostVoted = .ok (.error .notEnoughVotes) := by
  rw [isReached_eq ht, Except.ok.injEq, Tally.hasMajority] at h
  cases hlead : ballot.tally.leader? with
  | none => rw [mostVoted, hlead]
  | some leader =>
    obtain ⟨payload, votes⟩ := leader
    simp only [hlead, decide_eq_false_iff_not] at h
    rw [mostVoted_of_leader ht hlead, if_neg h]

/-- The branch for a majority without a leader is never taken. -/
theorem decide_of_leader (ht : ballot.poll.threshold = .ok threshold) {payload : P} {votes : Nat}
    (hlead : ballot.tally.leader? = some (payload, votes)) (hvotes : threshold ≤ votes) :
    ballot.decide = ballot.confirmations.tick.map fun confirmations =>
      (if confirmations.isComplete then .reached payload else .pending,
        { ballot with confirmations := confirmations }) := by
  have hreached : ballot.reachedAt threshold = true :=
    Tally.hasMajority_of_leader? hlead hvotes
  rw [Ballot.decide, ht]
  simp only [Checked.ok_bind, hreached, if_true]
  cases ballot.confirmations.tick with
  | error e => rfl
  | ok confirmations =>
    simp only [Checked.ok_bind, hlead]
    cases hcomplete : confirmations.isComplete <;> simp [Except.map, hcomplete]

theorem decide_of_not_hasMajority (ht : ballot.poll.threshold = .ok threshold)
    (h : ballot.tally.hasMajority threshold = false) :
    ballot.decide =
      .ok (if ballot.tally.isMajorityPossible ballot.poll.participants.size threshold
        then .pending else .noMajority, ballot) := by
  rw [Ballot.decide, ht]
  simp only [Checked.ok_bind, reachedAt, isPossibleAt, h, Bool.false_eq_true, if_false,
    Bool.false_or]
  split <;> rfl

/-- A decision counts blocks and changes nothing else. -/
theorem decide_eq_ok {decision : Decision P} {after : Ballot P κ}
    (h : ballot.decide = .ok (decision, after)) :
    ∃ threshold confirmations, ballot.poll.threshold = .ok threshold ∧
      confirmations.required = ballot.confirmations.required ∧
      after = { ballot with confirmations := confirmations } ∧
      (decision = .pending ∨ decision = .noMajority ∨
        ∃ payload votes, decision = .reached payload ∧
          ballot.tally.leader? = some (payload, votes) ∧ threshold ≤ votes) := by
  obtain ⟨threshold, ht, _⟩ := Checked.bind_eq_ok_iff.1 h
  cases hmajority : ballot.tally.hasMajority threshold with
  | false =>
    rw [decide_of_not_hasMajority ht hmajority, Except.ok.injEq, Prod.mk.injEq] at h
    obtain ⟨rfl, rfl⟩ := h
    refine ⟨threshold, ballot.confirmations, ht, rfl, rfl, ?_⟩
    by_cases hpossible :
        ballot.tally.isMajorityPossible ballot.poll.participants.size threshold = true
    · exact .inl (if_pos hpossible)
    · exact .inr (.inl (if_neg hpossible))
  | true =>
    obtain ⟨payload, votes, hlead, hvotes⟩ := Tally.exists_leader? hmajority
    rw [decide_of_leader ht hlead hvotes] at h
    obtain ⟨confirmations, htick, heq⟩ := Checked.map_eq_ok_iff.1 h
    obtain ⟨rfl, rfl⟩ := Prod.mk.inj heq
    refine ⟨threshold, confirmations, ht, (Confirmations.tick_eq_ok_iff.1 htick).1, rfl, ?_⟩
    by_cases hcomplete : confirmations.isComplete = true
    · exact .inr (.inr ⟨payload, votes, if_pos hcomplete, hlead, hvotes⟩)
    · exact .inl (if_neg hcomplete)

theorem seen_of_decide {decision : Decision P} {after : Ballot P κ}
    (h : ballot.decide = .ok (decision, after)) :
    after.confirmations.seen.toNat ≤ ballot.confirmations.seen.toNat + 1 := by
  obtain ⟨threshold, ht, _⟩ := Checked.bind_eq_ok_iff.1 h
  cases hmajority : ballot.tally.hasMajority threshold with
  | false =>
    rw [decide_of_not_hasMajority ht hmajority] at h
    cases h
    exact Nat.le_succ _
  | true =>
    obtain ⟨payload, votes, hlead, hvotes⟩ := Tally.exists_leader? hmajority
    rw [decide_of_leader ht hlead hvotes] at h
    obtain ⟨confirmations, htick, heq⟩ := Checked.map_eq_ok_iff.1 h
    cases heq
    exact Nat.le_of_eq (Confirmations.tick_eq_ok_iff.1 htick).2

end Outcome

theorem Took.decide {ballot after : Ballot P κ} {poll : Poll κ} {required : UInt64}
    {taken : List (Transaction P)} {decision : Decision P} (h : ballot.Took poll required taken)
    (hdecide : ballot.decide = .ok (decision, after)) :
    after.Took poll required taken ∧
      (decision = .pending ∨ decision = .noMajority ∨
        ∃ payload votes threshold, decision = .reached payload ∧
          ballot.tally.leader? = some (payload, votes) ∧ poll.threshold = .ok threshold ∧
          threshold ≤ votes) := by
  obtain ⟨threshold, confirmations, ht, hrequired, rfl, hdecision⟩ := decide_eq_ok hdecide
  rw [h.poll_eq] at ht
  refine ⟨⟨h.poll_eq, hrequired.trans h.required_eq, h.took, h.collection_eq, h.tally_eq⟩, ?_⟩
  rcases hdecision with hpending | hnone | ⟨payload, votes, hreached, hlead, hvotes⟩
  · exact .inl hpending
  · exact .inr (.inl hnone)
  · exact .inr (.inr ⟨payload, votes, threshold, hreached, hlead, ht, hvotes⟩)

end QuorumRounds.Ballot
