import QuorumRounds.Proofs.Ballot.Votes
import QuorumRounds.Proofs.Tally.Groups

/-! # What a ballot can still reach

`potential poll taken` is the most votes that any payload can get if everyone who has not voted yet
votes for it. A ballot is possible exactly when the threshold is at most that number
(`Took.isPossibleAt_iff`), and one more vote never raises it (`potential_concat_le`), so that a ballot
that has become impossible stays so.

The number is attained when all the absent participants vote for the leading payload
(`hasMajority_unanimous`). That payload has to equal itself: a vote for one that does not is a group of
its own. -/

namespace QuorumRounds.Ballot
set_option autoImplicit false

variable {P κ : Type} [Ord κ] [Payload P κ] [DecidableEq κ] [Named κ] {poll : Poll κ}
  {taken : List (Transaction P)}

def potential (poll : Poll κ) (taken : List (Transaction P)) : Nat :=
  (Tally.ofVotes (ballots taken)).mostVotes + (poll.participants.size - taken.length)

omit [DecidableEq κ] [Named κ] in
theorem mostVotes_le_potential (poll : Poll κ) (taken : List (Transaction P)) :
    (Tally.ofVotes (ballots taken)).mostVotes ≤ potential poll taken := Nat.le_add_right _ _

omit [Payload P κ] [DecidableEq κ] [Named κ] in
/-- A threshold that has been reached is not looked at again, which makes no difference. -/
theorem isPossibleAt_eq (ballot : Ballot P κ) (threshold : Nat) :
    ballot.isPossibleAt threshold = Decidable.decide (threshold ≤
      ballot.tally.mostVotes + (ballot.poll.participants.size - ballot.tally.voters.size)) := by
  rcases Nat.eq_zero_or_pos threshold with rfl | hpos
  · simp [isPossibleAt, Tally.isMajorityPossible]
  · rw [Bool.eq_iff_iff, isPossibleAt, Bool.or_eq_true, reachedAt,
      Tally.hasMajority_iff_le_mostVotes hpos, Tally.isMajorityPossible, decide_eq_true_iff]
    omega

/-- The vote is one more for the leader at most, and one absent participant less. -/
theorem potential_concat_le {tx : Transaction P} (h : poll.Took (taken ++ [tx])) :
    potential poll (taken ++ [tx]) ≤ potential poll taken := by
  have hsize := h.size_le
  have hvotes : ballots (taken ++ [tx]) = ballots taken ++ [(tx.sender, tx.payload)] := by
    simp [ballots]
  have hmost := Tally.mostVotes_add_le (Tally.ofVotes (ballots taken)) tx.sender tx.payload
  rw [h.size_collected, List.length_append, List.length_singleton] at hsize
  rw [potential, potential, hvotes, Tally.ofVotes_concat, List.length_append,
    List.length_singleton]
  dsimp only
  omega

namespace Took
variable {ballot : Ballot P κ} {required : UInt64} {threshold : Nat}

theorem reachedAt_iff (h : ballot.Took poll required taken) (hpos : 0 < threshold) :
    ballot.reachedAt threshold = true ↔
      threshold ≤ (Tally.ofVotes (ballots taken)).mostVotes := by
  rw [reachedAt, h.tally_eq, Tally.hasMajority_iff_le_mostVotes hpos]

theorem voters_size (h : ballot.Took poll required taken) :
    ballot.tally.voters.size = taken.length := by
  rw [← h.took.size_collected, ← h.collection_eq, ← SortedMap.card_domain, ← SortedMap.card_domain,
    h.voters_eq]

theorem isPossibleAt_iff (h : ballot.Took poll required taken) :
    ballot.isPossibleAt threshold = true ↔ threshold ≤ potential poll taken := by
  rw [isPossibleAt_eq, decide_eq_true_iff, h.voters_size, h.poll_eq, h.tally_eq, ← potential]

end Took

omit [Payload P κ] [DecidableEq κ] [Named κ] in
/-- As long as another block of confirmation fits the counter, a decision is made, and it gives the
ballot up exactly when the threshold has become impossible. -/
theorem exists_decide {ballot : Ballot P κ} {threshold : Nat}
    (ht : ballot.poll.threshold = .ok threshold)
    (hseen : ballot.confirmations.seen.toNat + 1 < UInt64.size) :
    ∃ decision after, ballot.decide = .ok (decision, after) ∧
      (decision = .noMajority ↔ ballot.isPossibleAt threshold = false) := by
  cases hmajority : ballot.tally.hasMajority threshold with
  | true =>
    obtain ⟨payload, votes, hlead, hvotes⟩ := Tally.exists_leader? hmajority
    obtain ⟨confirmations, htick⟩ := Confirmations.exists_tick hseen
    have hpossible : ballot.isPossibleAt threshold = true := by
      rw [isPossibleAt, reachedAt, hmajority, Bool.true_or]
    rw [decide_of_leader ht hlead hvotes, htick]
    refine ⟨_, _, rfl, ?_⟩
    rw [hpossible]
    split <;> simp
  | false =>
    have hpossible : ballot.isPossibleAt threshold =
        ballot.tally.isMajorityPossible ballot.poll.participants.size threshold := by
      rw [isPossibleAt, reachedAt, hmajority, Bool.false_or]
    rw [decide_of_not_hasMajority ht hmajority, hpossible]
    refine ⟨_, _, rfl, ?_⟩
    split <;> simp_all

omit [Payload P κ] [DecidableEq κ] [Named κ] in
/-- A ballot that cannot reach the threshold any more is given up. -/
theorem decide_of_impossible {ballot : Ballot P κ} {threshold : Nat}
    (ht : ballot.poll.threshold = .ok threshold) (h : ballot.isPossibleAt threshold = false) :
    ballot.decide = .ok (.noMajority, ballot) := by
  rw [isPossibleAt, Bool.or_eq_false_iff] at h
  rw [decide_of_not_hasMajority ht h.1, h.2]
  rfl

omit [Payload P κ] [DecidableEq κ] [Named κ] in
theorem isPossibleAt_of_decide {ballot after : Ballot P κ} {threshold : Nat}
    (ht : ballot.poll.threshold = .ok threshold) (h : ballot.decide = .ok (.noMajority, after)) :
    ballot.isPossibleAt threshold = false := by
  rw [decide, ht, Checked.ok_bind] at h
  by_cases hreached : ballot.reachedAt threshold = true
  · rw [if_pos hreached] at h
    obtain ⟨confirmations, _, hrest⟩ := Checked.bind_eq_ok_iff.1 h
    dsimp only at hrest
    split at hrest <;> cases hrest
  · rw [if_neg hreached] at h
    by_cases hpossible : ballot.isPossibleAt threshold = true
    · rw [if_pos hpossible] at h
      cases h
    · exact Bool.eq_false_iff.2 hpossible

/-! ## The leading payload -/

omit [Ord κ] [DecidableEq κ] [Named κ] in
/-- The group of a payload that was voted for and equals itself is counted in full. -/
theorem weight_eq_countP [LawfulPayload P] {tx : Transaction P} (hmem : tx ∈ taken)
    (hself : Payload.same tx.payload tx.payload = true) :
    Tally.weight (ballots taken) tx.payload =
      (ballots taken).countP fun v => Payload.same tx.payload v.2 := by
  have hpos : 0 < (ballots taken).countP fun v => Payload.same tx.payload v.2 :=
    List.countP_pos_iff.2 ⟨_, List.mem_map.2 ⟨tx, hmem, rfl⟩, hself⟩
  rw [Tally.weight]
  omega

/-- Some payload that was voted for has as many votes as any. -/
theorem exists_leading [LawfulPayload P] (h : poll.Took taken) (hsome : taken ≠ [])
    (hself : ∀ tx ∈ taken, Payload.same tx.payload tx.payload = true) :
    ∃ tx ∈ taken, (Tally.ofVotes (ballots taken)).mostVotes ≤
      (ballots taken).countP fun v => Payload.same tx.payload v.2 := by
  have hnodup := h.senders_nodup
  rw [← map_fst_ballots] at hnodup
  rcases Nat.eq_zero_or_pos (Tally.ofVotes (ballots taken)).mostVotes with hzero | hpos
  · obtain ⟨tx, htx⟩ := List.exists_mem_of_ne_nil taken hsome
    exact ⟨tx, htx, by omega⟩
  · have hmajority := (Tally.hasMajority_iff_le_mostVotes hpos).2 (Nat.le_refl _)
    obtain ⟨v, hv, hle⟩ := (Tally.hasMajority_ofVotes_iff hnodup).1 hmajority
    obtain ⟨tx, htx, rfl⟩ := List.mem_map.1 hv
    exact ⟨tx, htx, weight_eq_countP htx (hself tx htx) ▸ hle⟩

/-- At best, all the participants vote for the same payload. -/
theorem potential_le (h : poll.Took taken) : potential poll taken ≤ poll.participants.size := by
  induction taken using List.reverseRecOn with
  | nil =>
    have hnone : (Tally.ofVotes (ballots ([] : List (Transaction P)))).mostVotes = 0 := rfl
    rw [potential, hnone, List.length_nil]
    omega
  | append_singleton taken tx ih => exact (potential_concat_le h).trans (ih h.of_append)

/-- As long as all the votes are for the same payload, everyone can still vote for it. -/
theorem potential_of_same [LawfulPayload P] (h : poll.Took taken)
    (hsame : ∀ tx ∈ taken, ∀ other ∈ taken, Payload.same tx.payload other.payload = true) :
    potential poll taken = poll.participants.size := by
  apply Nat.le_antisymm (potential_le h)
  have hsize := h.size_le
  rw [h.size_collected] at hsize
  rw [potential]
  by_cases hsome : taken = []
  · rw [hsome, List.length_nil]
    omega
  · obtain ⟨tx, htx, hleads⟩ := exists_leading h hsome fun tx htx => hsame tx htx tx htx
    have hcount : ((ballots taken).countP fun v => Payload.same tx.payload v.2) = taken.length := by
      rw [List.countP_eq_length.2, ballots, List.length_map]
      intro v hv
      obtain ⟨other, hother, rfl⟩ := List.mem_map.1 hv
      exact hsame tx htx other hother
    have hnodup := h.senders_nodup
    rw [← map_fst_ballots] at hnodup
    have hmajority : (Tally.ofVotes (ballots taken)).hasMajority taken.length = true := by
      refine (Tally.hasMajority_ofVotes_iff hnodup).2 ⟨_, List.mem_map.2 ⟨tx, htx, rfl⟩, ?_⟩
      rw [weight_eq_countP htx (hsame tx htx tx htx), hcount]
    have hmost := (Tally.hasMajority_iff_le_mostVotes (List.length_pos_iff.2 hsome)).1 hmajority
    omega

/-! ## Everyone who has not voted -/

def absent (poll : Poll κ) (taken : List (Transaction P)) : List String :=
  poll.participants.toList.filter fun s => !(collected taken).contains s

/-- All the absent participants vote for the payload. -/
def unanimous (poll : Poll κ) (taken : List (Transaction P)) (payload : P) :
    List (Transaction P) := (absent poll taken).map (⟨·, payload⟩)

omit [Payload P κ] [DecidableEq κ] [Named κ] in
theorem mem_absent_iff {s : String} :
    s ∈ absent poll taken ↔
      poll.participants.contains s = true ∧ (collected taken).contains s = false := by
  rw [absent, List.mem_filter, SortedSet.toList, ← SortedMap.contains_iff_mem_keys, Bool.not_eq_true']

theorem length_absent (h : poll.Took taken) :
    (absent poll taken).length + taken.length = poll.participants.size := by
  have hpresent : (poll.participants.toList.filter fun s =>
      (collected taken).contains s).length = taken.length := by
    have hnodup := poll.participants.nodup_keys.filter fun s => (collected taken).contains s
    rw [SortedSet.toList, ← List.toFinset_card_of_nodup hnodup, ← h.size_collected,
      ← SortedMap.card_domain]
    congr 1
    ext s
    rw [List.mem_toFinset, List.mem_filter, ← SortedMap.contains_iff_mem_keys, SortedMap.mem_domain]
    refine ⟨fun hs => hs.2, fun hs => ⟨?_, hs⟩⟩
    exact SortedMap.mem_domain.1 (h.senders_subset (SortedMap.mem_domain.2 hs))
  have hsplit := List.length_eq_length_filter_add (l := poll.participants.toList)
    fun s => (collected taken).contains s
  have hsize : poll.participants.toList.length = poll.participants.size := by
    simp [SortedSet.toList, SortedMap.keys, SortedMap.size]
  rw [absent]
  omega

/-- Their votes make up the whole potential of a payload that has the most votes so far, or of any
payload if nobody has voted. -/
theorem hasMajority_unanimous [LawfulPayload P] {payload : P} {threshold : Nat}
    (h : poll.Took taken) (hafter : poll.Took (taken ++ unanimous poll taken payload))
    (hself : Payload.same payload payload = true)
    (hleads : (Tally.ofVotes (ballots taken)).mostVotes ≤
      (ballots taken).countP fun v => Payload.same payload v.2)
    (hpos : 0 < threshold) (hpossible : threshold ≤ potential poll taken) :
    (Tally.ofVotes (ballots (taken ++ unanimous poll taken payload))).hasMajority threshold =
      true := by
  have hnodup := hafter.senders_nodup
  rw [← map_fst_ballots] at hnodup
  have habsent := length_absent h
  have hvotes : ballots (unanimous poll taken payload) =
      (absent poll taken).map fun s => (s, payload) := by
    rw [ballots, unanimous, List.map_map]
    rfl
  have hall : ((absent poll taken).map fun s => (s, payload)).countP
      (fun v => Payload.same payload v.2) = (absent poll taken).length := by
    rw [List.countP_map, List.countP_eq_length.2]
    intro s _
    exact hself
  have hcount : threshold ≤ (ballots (taken ++ unanimous poll taken payload)).countP
      fun v => Payload.same payload v.2 := by
    rw [ballots, List.map_append, ← ballots, ← ballots, hvotes, List.countP_append, hall]
    rw [potential] at hpossible
    omega
  -- Somebody has voted for an equal payload, before or now.
  obtain ⟨v, hv, hsame⟩ := List.countP_pos_iff.1 (hpos.trans_le hcount)
  refine (Tally.hasMajority_ofVotes_iff hnodup).2 ⟨v, hv, ?_⟩
  rw [← Tally.weight_eq_of_same hsame, Tally.weight]
  omega

theorem took_unanimous {payload : P} (h : poll.Took taken)
    (hpass : ∀ s, poll.participants.contains s = true → poll.check ⟨s, payload⟩ = .ok ()) :
    poll.Took (taken ++ unanimous poll taken payload) where
  senders_nodup := by
    have hsenders : (unanimous poll taken payload).map (·.sender) = absent poll taken := by
      rw [unanimous, List.map_map]
      exact List.map_id _
    rw [List.map_append, hsenders, List.nodup_append]
    refine ⟨h.senders_nodup, poll.participants.nodup_keys.filter _, ?_⟩
    rintro s hs u hu rfl
    have hnew := (mem_absent_iff.1 hu).2
    rw [contains_collected.2 hs] at hnew
    cases hnew
  passed := by
    intro tx htx
    rcases List.mem_append.1 htx with hold | hnew
    · exact h.passed tx hold
    · obtain ⟨s, hs, rfl⟩ := List.mem_map.1 hnew
      exact hpass s (mem_absent_iff.1 hs).1

end QuorumRounds.Ballot
