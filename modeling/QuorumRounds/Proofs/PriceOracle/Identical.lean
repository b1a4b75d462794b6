import QuorumRounds.Proofs.PriceOracle.Encoding
import QuorumRounds.Proofs.PriceOracle.Winnable

/-! # Votes for one and the same estimate

Votes are counted together when they are equal as numbers. So a threshold of votes that are written
with the same bytes decides the round, whatever else has been voted for, as long as the estimate is a
number (`identical_votes_decide`). Votes for a NaN are never counted together, not even those of the
same bits: each of them stands alone. -/

namespace QuorumRounds
set_option autoImplicit false

/-! ## The groups that decide -/

theorem Tally.hasMajority_iff_exists_group {P κ : Type} [Payload P κ] [LawfulPayload P]
    {votes : List (String × P)} {threshold : Nat} (h : (votes.map Prod.fst).Nodup) :
    (ofVotes votes).hasMajority threshold = true ↔
      threshold ≤ 1 ∧ votes ≠ [] ∨ ∃ v ∈ votes, Payload.same v.2 v.2 = true ∧
        threshold ≤ votes.countP fun w => Payload.same v.2 w.2 := by
  rw [hasMajority_ofVotes_iff h]
  constructor
  · rintro ⟨v, hv, hle⟩
    by_cases hone : threshold ≤ 1
    · exact .inl ⟨hone, List.ne_nil_of_mem hv⟩
    · have hcount : threshold ≤ votes.countP fun w => Payload.same v.2 w.2 := by
        rcases le_max_iff.1 hle with hfew | hcount
        · exact absurd hfew hone
        · exact hcount
      have hpos : 0 < votes.countP fun w => Payload.same v.2 w.2 := by omega
      obtain ⟨w, _, hsame⟩ := List.countP_pos_iff.1 hpos
      exact .inr ⟨v, hv, same_self hsame, hcount⟩
  · rintro (⟨hone, hsome⟩ | ⟨v, hv, _, hcount⟩)
    · obtain ⟨v, hv⟩ := List.exists_mem_of_ne_nil votes hsome
      exact ⟨v, hv, hone.trans (Nat.le_max_left _ _)⟩
    · exact ⟨v, hv, hcount.trans (Nat.le_max_right _ _)⟩

namespace PriceOracle

theorem Payload.eq_of_write_eq {p q : Payload} (h : Wire.write p = Wire.write q) : p = q :=
  (reads_payload.spells rfl).value_unique (h ▸ reads_payload.spells rfl)

/-- The threshold is reached by votes for a number, or by any vote if one is enough. -/
theorem hasMajority_iff_exists_number {poll : Poll Kind} {taken : List (Transaction Payload)}
    (h : poll.Took taken) (threshold : Nat) :
    (Tally.ofVotes (ballots taken)).hasMajority threshold = true ↔
      threshold ≤ 1 ∧ taken ≠ [] ∨ ∃ vote ∈ taken, vote.payload.isNaN = false ∧
        threshold ≤ taken.countP fun tx => vote.payload.same tx.payload := by
  have hcount : ∀ payload : Payload,
      (ballots taken).countP (fun v => QuorumRounds.Payload.same payload v.2) =
        taken.countP fun tx => payload.same tx.payload := fun payload => List.countP_map ..
  rw [Tally.hasMajority_iff_exists_group (map_fst_ballots taken ▸ h.senders_nodup)]
  refine or_congr ?_ ?_
  · rw [ballots, ne_eq, List.map_eq_nil_iff]
  · constructor
    · rintro ⟨v, hv, hself, hle⟩
      obtain ⟨vote, hvote, rfl⟩ := List.mem_map.1 hv
      refine ⟨vote, hvote, ?_, (hcount vote.payload) ▸ hle⟩
      have hnumber : vote.payload.same vote.payload = true := hself
      rwa [Payload.same_self, Bool.not_eq_true'] at hnumber
    · rintro ⟨vote, hvote, hnumber, hle⟩
      refine ⟨_, List.mem_map.2 ⟨vote, hvote, rfl⟩, ?_, (hcount vote.payload).symm ▸ hle⟩
      change vote.payload.same vote.payload = true
      rw [Payload.same_self, hnumber, Bool.not_false]

/-- Senders who have each sent the payload are as many as its votes at most. -/
theorem card_le_countP {taken : List (Transaction Payload)} {vote : Payload}
    (hnumber : vote.isNaN = false) {senders : Finset String}
    (hsent : ∀ s ∈ senders, ∃ tx ∈ taken, tx.sender = s ∧ tx.payload = vote) :
    senders.card ≤ taken.countP fun tx => vote.same tx.payload := by
  have hsub : senders ⊆ ((taken.filter fun tx => vote.same tx.payload).map (·.sender)).toFinset := by
    intro s hs
    obtain ⟨tx, htx, rfl, rfl⟩ := hsent s hs
    have hsame : tx.payload.same tx.payload = true := by
      rw [Payload.same_self, hnumber, Bool.not_false]
    rw [List.mem_toFinset]
    exact List.mem_map.2 ⟨tx, List.mem_filter.2 ⟨htx, hsame⟩, rfl⟩
  calc
    senders.card ≤ _ := Finset.card_le_card hsub
    _ ≤ ((taken.filter fun tx => vote.same tx.payload).map (·.sender)).length :=
      List.toFinset_card_le _
    _ = taken.countP fun tx => vote.same tx.payload := by
      rw [List.length_map, List.countP_eq_length_filter]

namespace Round
variable {ballot : Ballot Payload Kind} {poll : Poll Kind} {required : UInt64}
  {taken : List (Transaction Payload)} {threshold : Nat}

/-! ## Rounds of votes -/

/-- Votes are taken or refused, and a round that has decided stays so. -/
theorem processAll_estimateConsensus (h : ballot.Took poll required taken)
    (txs : List (Transaction Payload)) :
    ∃ answers after,
      (estimateConsensus ballot).processAll txs = .ok (answers, .estimateConsensus after) ∧
      after.Took poll required (taken ++ accepted txs answers) ∧
      after.confirmations = ballot.confirmations ∧ Tally.Grows ballot.tally after.tally := by
  induction txs generalizing ballot taken with
  | nil => exact ⟨[], ballot, rfl, by simpa [accepted] using h, rfl, .refl _⟩
  | cons tx rest ih =>
    cases hcheck : ballot.check tx with
    | error reason =>
      obtain ⟨answers, after, hall, htook, hsame, hgrows⟩ := ih h
      have hrefused : (estimateConsensus ballot).process tx =
          .ok (.error (.invalidPayload reason), .estimateConsensus ballot) := by
        rw [process_eq, checkCommon, hcheck]
        rfl
      refine ⟨.error (.invalidPayload reason) :: answers, after, ?_, htook, hsame, hgrows⟩
      simp only [processAll, hrefused, Checked.ok_bind, hall, Checked.pure_eq_ok]
    | ok _ =>
      obtain ⟨answers, after, hall, htook, hsame, hgrows⟩ := ih (h.accept hcheck)
      have htaken : (estimateConsensus ballot).process tx =
          .ok (.ok (), .estimateConsensus (ballot.accept tx)) :=
        process_of_check (congrArg Except.ok hcheck)
      refine ⟨.ok () :: answers, after, ?_, ?_, hsame, (Tally.Grows.add _ _ _).trans hgrows⟩
      · simp only [processAll, htaken, Checked.ok_bind, hall, Checked.pure_eq_ok]
      · rw [List.append_assoc] at htook
        exact htook

/-- Past the threshold another block counts as a confirmation, and the decision is handed on once
there are more than required. -/
theorem endBlock_of_majority (ht : ballot.poll.threshold = .ok threshold)
    (hmajority : ballot.tally.hasMajority threshold = true)
    (hseen : ballot.confirmations.seen.toNat + 1 < UInt64.size) :
    ∃ outcome confirmations, (estimateConsensus ballot).endBlock =
        .ok (outcome, .estimateConsensus { ballot with confirmations := confirmations }) ∧
      confirmations.required = ballot.confirmations.required ∧
      confirmations.seen.toNat = ballot.confirmations.seen.toNat + 1 ∧
      outcome.map (·.2) =
        if ballot.confirmations.required.toNat ≤ ballot.confirmations.seen.toNat then some .done
        else none := by
  obtain ⟨payload, votes, hlead, hvotes⟩ := Tally.exists_leader? hmajority
  obtain ⟨confirmations, htick⟩ := Confirmations.exists_tick hseen
  obtain ⟨hrequired, hcounted⟩ := Confirmations.tick_eq_ok_iff.1 htick
  have hcomplete : confirmations.isComplete = true ↔
      ballot.confirmations.required.toNat ≤ ballot.confirmations.seen.toNat := by
    rw [Confirmations.isComplete, decide_eq_true_eq, hrequired, hcounted, Nat.lt_succ_iff]
  have hdecide : ballot.decide = .ok (if confirmations.isComplete then .reached payload else .pending,
      { ballot with confirmations := confirmations }) := by
    rw [Ballot.decide_of_leader ht hlead hvotes, htick]
    rfl
  by_cases hdone : confirmations.isComplete = true
  · rw [if_pos hdone] at hdecide
    rw [if_pos (hcomplete.1 hdone)]
    exact ⟨some (ballot.poll.store.update (mostVotedUpdates payload), .done), confirmations,
      by rw [endBlock, hdecide]; rfl, hrequired, hcounted, rfl⟩
  · rw [if_neg hdone] at hdecide
    rw [if_neg fun hle => hdone (hcomplete.2 hle)]
    exact ⟨none, confirmations, by rw [endBlock, hdecide]; rfl, hrequired, hcounted, rfl⟩

/-- Blocks of transactions one after the other, each asked for its decision, and with which event it
has answered. -/
def blocks (round : Round) :
    List (List (Transaction Payload)) → Checked (List (Option Event) × Round)
  | [] => .ok ([], round)
  | txs :: rest => do
    let (_, asked) ← round.processAll txs
    let (outcome, next) ← asked.endBlock
    let (events, last) ← next.blocks rest
    pure (outcome.map (·.2) :: events, last)

/-- The events of so many blocks past the threshold, when some have been counted before. -/
def heldBackEvents (required counted n : Nat) : List (Option Event) :=
  (List.range' counted n).map fun i => if required ≤ i then some .done else none

theorem blocks_of_majority (h : ballot.Took poll required taken)
    (ht : poll.threshold = .ok threshold) (hmajority : ballot.tally.hasMajority threshold = true)
    (txs : List (List (Transaction Payload)))
    (hseen : ballot.confirmations.seen.toNat + txs.length < UInt64.size) :
    ∃ last, (estimateConsensus ballot).blocks txs = .ok
      (heldBackEvents required.toNat ballot.confirmations.seen.toNat txs.length, last) := by
  induction txs generalizing ballot taken with
  | nil => exact ⟨_, rfl⟩
  | cons block rest ih =>
    rw [List.length_cons] at hseen
    obtain ⟨answers, asked, hall, htook, hsame, hgrows⟩ := processAll_estimateConsensus h block
    have hfits : asked.confirmations.seen.toNat + 1 < UInt64.size := by
      rw [hsame]
      omega
    obtain ⟨outcome, confirmations, hend, hrequired, hcounted, hevent⟩ :=
      endBlock_of_majority (htook.poll_eq ▸ ht) (hgrows.hasMajority hmajority) hfits
    have hnext : Ballot.Took { asked with confirmations := confirmations } poll required _ :=
      ⟨htook.poll_eq, hrequired.trans htook.required_eq, htook.took, htook.collection_eq,
        htook.tally_eq⟩
    rw [hsame] at hcounted
    obtain ⟨last, hrest⟩ := ih hnext (hgrows.hasMajority hmajority) (by
      change confirmations.seen.toNat + rest.length < UInt64.size
      omega)
    refine ⟨last, ?_⟩
    simp only [blocks, hall, Checked.ok_bind, hend, hrest, Checked.pure_eq_ok]
    rw [hevent, htook.required_eq, hsame, hcounted]
    rfl

end Round

/-- A threshold of participants who have sent the same bytes decide the round, and the decision is
handed on after the configured number of blocks, unless the bytes are those of a NaN. The round has
reached its threshold only by votes for a number, or when one vote is enough. -/
theorem identical_votes_decide {keys : List String} {depth : UInt64} {context : RoundContext Kind}
    {opened : Round} {threshold : Nat}
    (hopen : buildRound keys depth .estimateConsensus context = .ok opened)
    (ht : context.params.threshold = .ok threshold) (txs : List (Transaction Payload)) :
    ∃ answers round, opened.processAll txs = .ok (answers, round) ∧
      (∀ (vote : Payload) (senders : Finset String), vote.isNaN = false →
        threshold ≤ senders.card →
        (∀ s ∈ senders, ∃ tx ∈ Round.accepted txs answers,
          tx.sender = s ∧ Wire.write tx.payload = Wire.write vote) →
        round.isReached = .ok true ∧
          ∀ more, List.length more < UInt64.size → ∃ last, round.blocks more = .ok
            (Round.heldBackEvents context.requiredConfirmations.toNat 0 more.length, last)) ∧
      (round.isReached = .ok true ↔
        threshold ≤ 1 ∧ Round.accepted txs answers ≠ [] ∨
          ∃ vote ∈ Round.accepted txs answers, vote.payload.isNaN = false ∧
            threshold ≤ (Round.accepted txs answers).countP fun tx =>
              vote.payload.same tx.payload) := by
  obtain ⟨poll, hvoting, _, _, hparams, _⟩ := Round.voting_buildRound (.inl rfl) hopen
  have ht' : poll.threshold = .ok threshold := by
    rw [Poll.threshold, hparams]
    exact ht
  cases hvoting with
  | @estimate ballot htook hseen => ?_
  obtain ⟨answers, after, hall, htaken, hsame, _⟩ := Round.processAll_estimateConsensus htook txs
  rw [List.nil_append] at htaken
  have hreached : (Round.estimateConsensus after).isReached =
      .ok (after.tally.hasMajority threshold) := Ballot.isReached_eq (htaken.poll_eq ▸ ht')
  have hgroups : after.tally.hasMajority threshold = true ↔
      threshold ≤ 1 ∧ Round.accepted txs answers ≠ [] ∨
        ∃ vote ∈ Round.accepted txs answers, vote.payload.isNaN = false ∧
          threshold ≤ (Round.accepted txs answers).countP fun tx =>
            vote.payload.same tx.payload := by
    rw [htaken.tally_eq]
    exact hasMajority_iff_exists_number htaken.took threshold
  refine ⟨answers, _, hall, ?_, ?_⟩
  · intro vote senders hnumber hcard hsent
    have hpos := ConsensusParams.threshold_pos ht
    obtain ⟨first, hfirst⟩ := Finset.card_pos.1 (Nat.lt_of_lt_of_le hpos hcard)
    have hsent' : ∀ s ∈ senders, ∃ tx ∈ Round.accepted txs answers,
        tx.sender = s ∧ tx.payload = vote := by
      intro s hs
      obtain ⟨tx, htx, hsender, hbytes⟩ := hsent s hs
      exact ⟨tx, htx, hsender, Payload.eq_of_write_eq hbytes⟩
    obtain ⟨tx, htx, _, rfl⟩ := hsent' first hfirst
    have hmajority := hgroups.2 (.inr ⟨tx, htx, hnumber,
      hcard.trans (card_le_countP hnumber hsent')⟩)
    refine ⟨by rw [hreached, hmajority], fun more hmore => ?_⟩
    have hstart : after.confirmations.seen.toNat = 0 := by
      rw [hsame, hseen]
      rfl
    obtain ⟨last, hlast⟩ := Round.blocks_of_majority htaken ht' hmajority more (by omega)
    rw [hstart] at hlast
    exact ⟨last, hlast⟩
  · rw [hreached, Except.ok.injEq]
    exact hgroups

def threeZeros : List (Transaction Payload) :=
  [⟨"a", Ballot.zeroEstimate⟩, ⟨"d", Ballot.oneEstimate⟩, ⟨"b", Ballot.zeroEstimate⟩,
    ⟨"c", Ballot.zeroEstimate⟩]

/-- Three votes for zero are enough, and the decision waits for one more block. -/
theorem identical_votes_decide_on_zero :
    buildRound [] 0 .estimateConsensus Ballot.fourParticipants =
      .ok (.estimateConsensus Ballot.openedByFour) ∧
    Ballot.fourParticipants.params.threshold = .ok 3 ∧
    ∃ answers round last,
      (Round.estimateConsensus Ballot.openedByFour).processAll threeZeros = .ok (answers, round) ∧
      round.isReached = .ok true ∧ round.blocks [[], []] = .ok ([none, some .done], last) := by
  have hopen : buildRound [] 0 .estimateConsensus Ballot.fourParticipants =
      .ok (.estimateConsensus Ballot.openedByFour) := rfl
  have ht : Ballot.fourParticipants.params.threshold = .ok 3 := by decide
  refine ⟨hopen, ht, ?_⟩
  obtain ⟨answers, round, hall, hdecides, _⟩ := identical_votes_decide hopen ht threeZeros
  have hrun : ((Round.estimateConsensus Ballot.openedByFour).processAll threeZeros).map
      (fun out => Round.accepted threeZeros out.1) = .ok threeZeros := by decide +kernel
  rw [hall] at hrun
  have haccepted : Round.accepted threeZeros answers = threeZeros := Except.ok.inj hrun
  obtain ⟨hreached, hblocks⟩ := hdecides Ballot.zeroEstimate {"a", "b", "c"} rfl (by decide) (by
    rw [haccepted]
    decide +kernel)
  obtain ⟨last, hlast⟩ := hblocks [[], []] (by decide)
  exact ⟨answers, round, last, hall, hreached, hlast⟩

/-- Everybody votes for the same NaN. -/
def fourNaNs : List (Transaction Payload) :=
  ["a", "b", "c", "d"].map fun sender => ⟨sender, .estimate ⟨0x7ff8000000000000⟩⟩

/-- All are taken, and the round is given up. -/
theorem identical_nans_do_not_decide :
    ∃ answers round outcome after,
      (Round.estimateConsensus Ballot.openedByFour).processAll fourNaNs = .ok (answers, round) ∧
      Round.accepted fourNaNs answers = fourNaNs ∧
      Ballot.fourParticipants.params.threshold = .ok 3 ∧ round.isReached = .ok false ∧
      round.endBlock = .ok (outcome, after) ∧ outcome.map (·.2) = some .noMajority := by
  have hrun : ((Round.estimateConsensus Ballot.openedByFour).processAll fourNaNs >>= fun out =>
      out.2.isReached >>= fun reached => out.2.endBlock.map fun asked =>
        (Round.accepted fourNaNs out.1, reached, asked.1.map (·.2))) =
      .ok (fourNaNs, false, some .noMajority) := by decide +kernel
  obtain ⟨⟨answers, round⟩, hall, hrest⟩ := Checked.bind_eq_ok_iff.1 hrun
  obtain ⟨reached, hreached, hend⟩ := Checked.bind_eq_ok_iff.1 hrest
  obtain ⟨⟨outcome, after⟩, hasked, heq⟩ := Checked.map_eq_ok_iff.1 hend
  simp only [Prod.mk.injEq] at heq
  obtain ⟨haccepted, rfl, hnone⟩ := heq
  exact ⟨answers, round, outcome, after, hall, haccepted, by decide, hreached, hasked, hnone⟩

end PriceOracle

end QuorumRounds
