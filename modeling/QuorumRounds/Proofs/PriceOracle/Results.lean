import QuorumRounds.Proofs.PriceOracle.Backed
import QuorumRounds.Proofs.PriceOracle.Sessions

/-! # What a round hands on

A round that is done hands on the store that it was built from with one value more, under the key
that the readers of its result look at, and what they read is what the round has collected
(`HandsOn`). A reset hands on the next period instead. Without a majority the store is handed on as
it is, and a round itself goes on returning that store in any case. -/

namespace QuorumRounds.PriceOracle
set_option autoImplicit false

/-! ## What is read back -/

/-- The addresses that are written are read back as the senders. -/
theorem registered_senders (store : Store) (collection : SortedMap String Payload) :
    ∃ addresses : SortedSet String, addresses.domain = collection.domain ∧
      store.AppendsOnly participantsKey (participantsValue addresses.toList)
        (store.update [(participantsKey, participantsValue collection.keys)]) ∧
      (store.update [(participantsKey, participantsValue collection.keys)]).participants =
        .ok addresses := by
  let addresses : SortedSet String := collection.mapValues fun _ => ()
  have hkeys : addresses.toList = collection.keys := SortedMap.keys_mapValues _ _
  refine ⟨addresses, SortedMap.domain_mapValues _ _, ?_, ?_⟩
  · rw [hkeys]
    exact store.appendsOnly_update _ _
  · rw [Store.participants_of_value (by rw [Store.get?_update, if_pos rfl]), ← hkeys,
      SortedSet.ofList_toList]

section Poll
variable {poll : Poll Kind} {taken : List (Transaction Payload)}

/-- No payload that has been taken is left out, since each is an observation. -/
theorem domain_prices (h : poll.Took taken) (hallowed : poll.allowed = .observation) :
    (prices taken).domain = (collected taken).domain := by
  ext sender
  rw [SortedMap.mem_domain, SortedMap.mem_domain, SortedMap.contains, SortedMap.contains, prices,
    SortedMap.get?_filterMap]
  cases hpayload : (collected taken).get? sender with
  | none => rfl
  | some payload =>
    have hkind := Round.Took.kind_of_mem h (h.get?_collected.1 hpayload)
    obtain ⟨price, rfl⟩ := Payload.exists_observation (hkind.trans hallowed)
    rfl

theorem observed_prices (h : poll.Took taken) (hallowed : poll.allowed = .observation)
    (store : Store) :
    ∃ prices : SortedMap String Binary64,
      prices.domain = (collected taken).domain ∧
      (∀ sender price, prices.get? sender = some price ↔
        (collected taken).get? sender = some (.observation price)) ∧
      store.AppendsOnly observationsKey (.ofMap (prices.mapValues .float))
        (store.update
          [(observationsKey, .ofMap (Round.collectedObservations (collected taken)))]) ∧
      observations (store.update
        [(observationsKey, .ofMap (Round.collectedObservations (collected taken)))]) =
          .ok prices := by
  rw [collectedObservations_eq]
  refine ⟨prices taken, domain_prices h hallowed, ?_, store.appendsOnly_update _ _, ?_⟩
  · intro sender price
    rw [get?_prices h, h.get?_collected]
  · apply observations_of_value
    rw [Store.get?_update, if_pos rfl]

end Poll

/-! ## The four rounds -/

/-- What a round of this kind that is done makes of the store. -/
def HandsOn (keys : List String) (depth : UInt64) (round : Round) (before data : Store) :
    RoundKind → Prop
  | .registration => ∃ addresses : SortedSet String,
    addresses.domain = round.collection.domain ∧
    before.AppendsOnly participantsKey (participantsValue addresses.toList) data ∧
    data.participants = .ok addresses
  | .collectObservation => ∃ prices : SortedMap String Binary64,
    prices.domain = round.collection.domain ∧
    (∀ sender price, prices.get? sender = some price ↔
      round.collection.get? sender = some (.observation price)) ∧
    before.AppendsOnly observationsKey (.ofMap (prices.mapValues .float)) data ∧
    observations data = .ok prices
  | .estimateConsensus => ∃ ballot price,
    round = .estimateConsensus ballot ∧ ballot.mostVoted = .ok (.ok (.estimate price)) ∧
    before.AppendsOnly estimateKey (.float price) data ∧ mostVotedEstimate data = .ok price
  | .reset => ∃ opened, before.create keys = .ok opened ∧ data = opened.cleanup depth.toNat none

namespace Round

/-- The estimate that is handed on is the one that leads. -/
theorem estimate_of_endBlock {ballot : Ballot Payload Kind} {poll : Poll Kind} {required : UInt64}
    {taken : List (Transaction Payload)} {data : Store} {after : Round}
    (h : ballot.Took poll required taken) (hallowed : poll.allowed = .estimate)
    (hend : (estimateConsensus ballot).endBlock = .ok (some (data, .done), after)) :
    ∃ price, ballot.mostVoted = .ok (.ok (.estimate price)) ∧
      data = poll.store.update [(estimateKey, .float price)] := by
  have hstore : (estimateConsensus ballot).store = poll.store := congrArg Poll.store h.poll_eq
  simp only [endBlock, hstore] at hend
  obtain ⟨decision, asked, hdecide, hmade, rfl⟩ := handedOn_eq_ok .estimateConsensus hend
  rcases (h.decide hdecide).2 with rfl | rfl | ⟨payload, votes, threshold, rfl, hlead, ht, hvotes⟩
  · cases hmade
  · cases hmade
  · have hpos := ConsensusParams.threshold_pos ht
    obtain ⟨price, senders, rfl, -⟩ := Took.exists_estimate h hallowed hlead (by omega)
    cases hmade
    refine ⟨price, ?_, rfl⟩
    rw [Ballot.mostVoted_of_leader (h.poll_eq.symm ▸ ht) hlead, if_pos hvotes]

theorem Heard.handsOn {keys : List String} {depth required : UInt64} {poll : Poll Kind}
    {taken : List (Transaction Payload)} {kind : RoundKind} {round after : Round} {data : Store}
    {event : Event} (h : round.Heard keys depth poll required taken kind)
    (hallowed : poll.allowed = kind.allowed)
    (hend : round.endBlock = .ok (some (data, event), after)) :
    event = .noMajority ∧ data = poll.store ∨
      event = .done ∧ HandsOn keys depth round poll.store data kind := by
  cases h with
  | other hkind h =>
    have hcollection := h.collection_eq
    obtain ⟨-, houtcome⟩ := h.endBlock hallowed hend
    cases houtcome data event rfl with
    | noMajority => exact .inl ⟨rfl, rfl⟩
    | registered =>
      have hregistered := registered_senders poll.store (collected taken)
      rw [← hcollection] at hregistered ⊢
      exact .inr ⟨rfl, hregistered⟩
    | observed =>
      have hobserved := observed_prices h.poll_took hallowed poll.store
      rw [← hcollection] at hobserved ⊢
      exact .inr ⟨rfl, hobserved⟩
    | estimated =>
      cases h with
      | @estimateConsensus ballot h =>
        obtain ⟨price, hmost, heq⟩ := estimate_of_endBlock h hallowed hend
        rw [heq]
        refine .inr ⟨rfl, ballot, price, rfl, hmost, poll.store.appendsOnly_update _ _, ?_⟩
        exact mostVotedEstimate_of_value (by rw [Store.get?_update, if_pos rfl])
    | reset => exact absurd rfl hkind
  | @reset ballot h =>
    have hstore : (Round.reset ballot keys depth).store = poll.store :=
      congrArg Poll.store h.poll_eq
    simp only [Round.endBlock, hstore] at hend
    obtain ⟨decision, asked, hdecide, hmade, rfl⟩ := handedOn_eq_ok (.reset · keys depth) hend
    rcases (h.decide hdecide).2 with rfl | rfl | ⟨payload, votes, threshold, rfl, -⟩
    · cases hmade
    · cases hmade
      exact .inl ⟨rfl, rfl⟩
    · obtain ⟨next, hnext, heq⟩ := Checked.map_eq_ok_iff.1 hmade
      cases heq
      obtain ⟨opened, hopened, rfl⟩ := Checked.map_eq_ok_iff.1 hnext
      exact .inr ⟨rfl, opened, hopened, rfl⟩

end Round

theorem rounds_hand_on_their_results (keys : List String) (depth : UInt64) (kind : RoundKind)
    {context : RoundContext Kind} {participants : SortedSet String}
    (hread : context.store.participants = .ok participants) :
    ∃ opened, buildRound keys depth kind context = .ok opened ∧
      ∀ round, Round.Reached opened round → round.store = context.store ∧
        ∀ outcome after, round.endBlock = .ok (outcome, after) →
          after.store = context.store ∧
          ∀ data event, outcome = some (data, event) →
            event = .noMajority ∧ data = context.store ∨
              event = .done ∧ HandsOn keys depth round context.store data kind := by
  obtain ⟨opened, hbuild, hopened⟩ := Round.exists_build hread keys depth kind
  refine ⟨opened, hbuild, fun round hreached => ?_⟩
  obtain ⟨taken, hheard⟩ := hreached.heard rfl hopened
  refine ⟨congrArg Poll.store hheard.poll_eq, fun outcome after hend => ?_⟩
  refine ⟨congrArg Poll.store (hheard.endBlock rfl hend).poll_eq, ?_⟩
  rintro data event rfl
  exact hheard.handsOn rfl hend

/-- No block of confirmation is asked for. -/
def fourContext : RoundContext Kind := { Ballot.fourParticipants with requiredConfirmations := 0 }

/-- Payloads by which each round is done. One of the estimates is another one. -/
def decidingPayloads : List (RoundKind × List (Transaction Payload)) :=
  [(.registration, ["a", "b", "c", "d"].map (⟨·, .registration⟩)),
    (.collectObservation, ["a", "b", "c"].map (⟨·, .observation ⟨0x3ff0000000000000⟩⟩)),
    (.estimateConsensus, ⟨"a", .estimate ⟨0x4000000000000000⟩⟩ ::
      ["b", "c", "d"].map (⟨·, .estimate ⟨0x3ff0000000000000⟩⟩)),
    (.reset, ["a", "b", "c"].map (⟨·, .reset 1⟩))]

theorem rounds_hand_on_their_results_of_four :
    fourContext.store.participants = .ok fourAddresses ∧
      ∀ kind txs, (kind, txs) ∈ decidingPayloads → ∃ opened round data after,
        buildRound crossPeriodKeys 2 kind fourContext = .ok opened ∧
        opened.processAll txs = .ok (txs.map fun _ => .ok (), round) ∧
        round.endBlock = .ok (some (data, .done), after) ∧ after.store = fourContext.store ∧
        HandsOn crossPeriodKeys 2 round fourContext.store data kind := by
  have hread : fourContext.store.participants = .ok fourAddresses := rfl
  refine ⟨hread, fun kind txs hmem => ?_⟩
  obtain ⟨opened, hopen, hhands⟩ := rounds_hand_on_their_results crossPeriodKeys 2 kind hread
  have hall : ∀ entry ∈ decidingPayloads,
      (buildRound crossPeriodKeys 2 entry.1 fourContext).toOption.map (fun opened =>
        (opened.processAll entry.2).map fun out =>
          (out.1, out.2.endBlock.map fun ended => ended.1.map (·.2))) =
      some (.ok (entry.2.map fun _ => .ok (), .ok (some .done))) := by
    decide +kernel
  have hdone := hall _ hmem
  rw [hopen] at hdone
  obtain ⟨⟨answers, round⟩, hround, hseen⟩ := Checked.map_eq_ok_iff.1 (Option.some.inj hdone)
  obtain ⟨rfl, hended⟩ := Prod.mk.inj hseen
  obtain ⟨⟨outcome, after⟩, hend, hevent⟩ := Checked.map_eq_ok_iff.1 hended
  obtain ⟨⟨data, event⟩, rfl, rfl⟩ := Option.map_eq_some_iff.1 hevent
  obtain ⟨hstore, hresult⟩ := (hhands round (Round.Reached.opened.processAll hround)).2 _ after hend
  refine ⟨opened, round, data, after, hopen, hround, hend, hstore, ?_⟩
  rcases hresult data _ rfl with ⟨hnone, -⟩ | ⟨-, hhanded⟩
  · cases hnone
  · exact hhanded

end QuorumRounds.PriceOracle
