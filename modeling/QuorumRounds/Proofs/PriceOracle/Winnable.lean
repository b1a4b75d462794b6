import QuorumRounds.Proofs.Ballot.Agreement
import QuorumRounds.Proofs.Ballot.Reach
import QuorumRounds.Proofs.PriceOracle.Rounds

/-! # Rounds that can still be won

A round that votes on an estimate, or on the next period, says whether its threshold can still be
reached. `Voting kind poll required taken round` describes such a round by what it has taken; then
the answer depends on the potential of the vote alone (`Voting.isMajorityPossible`), which no further
payload raises (`Voting.processAll`) and which the absent participants can use up
(`Voting.exists_won`). -/

namespace QuorumRounds.PriceOracle
set_option autoImplicit false

namespace Payload

def isNaN : Payload → Bool
  | .observation price | .estimate price => price.isNaN
  | _ => false

theorem same_self (payload : Payload) : payload.same payload = !payload.isNaN := by
  cases payload <;> simp [same, isNaN, Binary64.equals_self]

end Payload

namespace Round

/-- The transactions that were not refused. -/
def accepted (txs : List (Transaction Payload)) (answers : List (Except InternalError Unit)) :
    List (Transaction Payload) := ((txs.zip answers).filter (·.2.isOk)).map (·.1)

def isReached : Round → Checked Bool
  | .registration gathering | .collectObservation gathering => gathering.isReached
  | .estimateConsensus ballot | .reset ballot _ _ => ballot.isReached

/-- What a round looks at before it asks its ballot. -/
def precheck (kind : RoundKind) (store : Store) (payload : Payload) :
    Checked (Except Rejection Unit) :=
  if kind = .reset then checkPeriod store payload else .ok (.ok ())

theorem exists_checkPeriod {store : Store} {next : UInt64} (hnext : Word.succ store.period = .ok next)
    (payload : Payload) : ∃ answer, checkPeriod store payload = .ok answer := by
  rw [checkPeriod, hnext, Checked.ok_bind]
  cases payload with
  | reset period => dsimp only; split <;> exact ⟨_, rfl⟩
  | registration | observation price | estimate price => exact ⟨_, rfl⟩

theorem exists_precheck {store : Store} {next : UInt64} (hnext : Word.succ store.period = .ok next)
    (kind : RoundKind) (payload : Payload) :
    ∃ answer, precheck kind store payload = .ok answer := by
  rw [precheck]
  split
  · exact exists_checkPeriod hnext payload
  · exact ⟨.ok (), rfl⟩

/-! ## Rounds that vote -/

/-- The round has not been asked for its decision yet. -/
inductive Voting (poll : Poll Kind) (required : UInt64) (taken : List (Transaction Payload)) :
    RoundKind → Round → Prop where
  | estimate {ballot : Ballot Payload Kind} (h : ballot.Took poll required taken)
    (hseen : ballot.confirmations.seen = 0) :
    Voting poll required taken .estimateConsensus (.estimateConsensus ballot)
  | reset {ballot : Ballot Payload Kind} {keys : List String} {depth : UInt64}
    (h : ballot.Took poll required taken) (hseen : ballot.confirmations.seen = 0)
    (hperiod : ∀ tx ∈ taken, checkPeriod poll.store tx.payload = .ok (.ok ())) :
    Voting poll required taken .reset (.reset ballot keys depth)

theorem voting_buildRound {keys : List String} {depth : UInt64} {kind : RoundKind}
    {context : RoundContext Kind} {opened : Round}
    (hkind : kind = .estimateConsensus ∨ kind = .reset)
    (hopen : buildRound keys depth kind context = .ok opened) :
    ∃ poll, Voting poll context.requiredConfirmations [] kind opened ∧
      poll.allowed = kind.allowed ∧ poll.store = context.store ∧ poll.params = context.params ∧
      poll.registry = context.registry := by
  have hballot : ∀ {ballot : Ballot Payload Kind},
      Ballot.ofContext (name kind) kind.allowed context = .ok ballot →
      ballot.Took ballot.poll context.requiredConfirmations [] ∧ ballot.confirmations.seen = 0 ∧
        ballot.poll.allowed = kind.allowed ∧ ballot.poll.store = context.store ∧
        ballot.poll.params = context.params ∧ ballot.poll.registry = context.registry := by
    intro ballot hballot
    refine ⟨Ballot.took_ofContext hballot, ?_⟩
    obtain ⟨poll, hpoll, rfl⟩ := Ballot.ofContext_eq_ok_iff.1 hballot
    obtain ⟨participants, _, rfl⟩ := Poll.ofContext_eq_ok_iff.1 hpoll
    exact ⟨rfl, rfl, rfl, rfl, rfl⟩
  rcases hkind with rfl | rfl
  · rw [buildRound] at hopen
    cases hnew : Ballot.ofContext (P := Payload) (name RoundKind.estimateConsensus) Kind.estimate
        context with
    | error e =>
      rw [hnew] at hopen
      cases hopen
    | ok ballot =>
      rw [hnew] at hopen
      cases hopen
      obtain ⟨htook, hseen, hpoll⟩ := hballot hnew
      exact ⟨_, .estimate htook hseen, hpoll⟩
  · rw [buildRound] at hopen
    cases hnew : Ballot.ofContext (P := Payload) (name RoundKind.reset) Kind.reset context with
    | error e =>
      rw [hnew] at hopen
      cases hopen
    | ok ballot =>
      rw [hnew] at hopen
      cases hopen
      obtain ⟨htook, hseen, hpoll⟩ := hballot hnew
      refine ⟨_, .reset htook hseen ?_, hpoll⟩
      intro tx htx
      cases htx

namespace Voting
variable {poll : Poll Kind} {required next : UInt64} {taken : List (Transaction Payload)}
  {kind : RoundKind} {round : Round} {threshold : Nat}

theorem poll_took (h : Voting poll required taken kind round) : poll.Took taken := by
  cases h with
  | estimate h => exact h.took
  | reset h => exact h.took

theorem precheck_of_mem (h : Voting poll required taken kind round) {tx : Transaction Payload}
    (htx : tx ∈ taken) : precheck kind poll.store tx.payload = .ok (.ok ()) := by
  cases h with
  | estimate h => rfl
  | reset h hseen hperiod => exact hperiod tx htx

/-! ## Reads -/

theorem isReached (h : Voting poll required taken kind round)
    (ht : poll.threshold = .ok threshold) :
    ∃ reached, round.isReached = .ok reached ∧
      (reached = true ↔ threshold ≤ (Tally.ofVotes (ballots taken)).mostVotes) := by
  have hpos := ConsensusParams.threshold_pos ht
  have hballot : ∀ {ballot : Ballot Payload Kind}, ballot.Took poll required taken →
      ballot.isReached = .ok (ballot.reachedAt threshold) := by
    intro ballot htook
    rw [Ballot.isReached, htook.poll_eq, ht]
    rfl
  cases h with
  | estimate h => exact ⟨_, hballot h, h.reachedAt_iff hpos⟩
  | reset h => exact ⟨_, hballot h, h.reachedAt_iff hpos⟩

theorem isMajorityPossible (h : Voting poll required taken kind round)
    (ht : poll.threshold = .ok threshold) :
    ∃ possible, round.isMajorityPossible = .ok possible ∧
      (possible = true ↔ threshold ≤ Ballot.potential poll taken) := by
  have hballot : ∀ {ballot : Ballot Payload Kind}, ballot.Took poll required taken →
      ballot.isMajorityPossible = .ok (ballot.isPossibleAt threshold) := by
    intro ballot htook
    rw [Ballot.isMajorityPossible, htook.poll_eq, ht]
    rfl
  cases h with
  | estimate h => exact ⟨_, hballot h, h.isPossibleAt_iff⟩
  | reset h => exact ⟨_, hballot h, h.isPossibleAt_iff⟩

theorem exists_handOn {α : Type} (store : Store) (decision : Decision α)
    (result : α → Checked Store) (h : ∀ value, ∃ after, result value = .ok after) :
    ∃ outcome, handOn store decision result = .ok outcome := by
  cases decision with
  | pending => exact ⟨_, rfl⟩
  | noMajority => exact ⟨_, rfl⟩
  | reached value =>
    obtain ⟨after, hafter⟩ := h value
    exact ⟨_, Checked.map_eq_ok_iff.2 ⟨after, hafter, rfl⟩⟩

theorem endBlock (h : Voting poll required taken kind round) (ht : poll.threshold = .ok threshold)
    (hnext : Word.succ poll.store.period = .ok next) :
    ∃ outcome after, round.endBlock = .ok (outcome, after) ∧
      (outcome.map (·.2) = some .noMajority ↔ Ballot.potential poll taken < threshold) := by
  have hballot : ∀ {ballot : Ballot Payload Kind}, ballot.Took poll required taken →
      ballot.confirmations.seen = 0 → ∃ decision after, ballot.decide = .ok (decision, after) ∧
        (decision = .noMajority ↔ Ballot.potential poll taken < threshold) := by
    intro ballot htook hseen
    rw [← htook.poll_eq] at ht
    obtain ⟨decision, after, hdecide, hnone⟩ :=
      Ballot.exists_decide ht (by rw [hseen]; decide)
    refine ⟨decision, after, hdecide, ?_⟩
    rw [hnone, ← Bool.not_eq_true, htook.isPossibleAt_iff, Nat.not_le]
  cases h with
  | @estimate ballot h hseen =>
    obtain ⟨decision, after, hdecide, hnone⟩ := hballot h hseen
    obtain ⟨outcome, houtcome⟩ := exists_handOn ballot.poll.store decision
      (fun payload => .ok (ballot.poll.store.update (mostVotedUpdates payload)))
      fun _ => ⟨_, rfl⟩
    refine ⟨outcome, .estimateConsensus after, ?_, ?_⟩
    · simp only [Round.endBlock, Round.store, Round.poll, hdecide, Checked.ok_bind, houtcome]
      rfl
    · rw [handOn_eq_noMajority_iff houtcome, hnone]
  | @reset ballot keys depth h hseen =>
    obtain ⟨decision, after, hdecide, hnone⟩ := hballot h hseen
    have hcreate : ∃ opened, ballot.poll.store.create keys = .ok opened := by
      rw [Store.create, h.poll_eq, hnext]
      exact ⟨_, rfl⟩
    obtain ⟨opened, hopened⟩ := hcreate
    obtain ⟨outcome, houtcome⟩ := exists_handOn ballot.poll.store decision
      (fun _ => (ballot.poll.store.create keys).map fun next =>
        next.cleanup depth.toNat none)
      fun _ => ⟨_, Checked.map_eq_ok_iff.2 ⟨opened, hopened, rfl⟩⟩
    refine ⟨outcome, .reset after keys depth, ?_, ?_⟩
    · simp only [Round.endBlock, Round.store, Round.poll, hdecide, Checked.ok_bind, houtcome]
      rfl
    · rw [handOn_eq_noMajority_iff houtcome, hnone]

/-! ## Processing -/

theorem checkCommon_eq_ok_iff (h : Voting poll required taken kind round)
    {tx : Transaction Payload} :
    round.checkCommon tx = .ok () ↔
      poll.check tx = .ok () ∧ (collected taken).contains tx.sender = false := by
  cases h with
  | @estimate ballot h | @reset ballot _ _ h =>
    change ballot.check tx = .ok () ↔ _
    rw [Ballot.check_eq_ok_iff, h.poll_eq, h.collection_eq]

theorem checkTimely_eq (h : Voting poll required taken kind round) (tx : Transaction Payload) :
    round.checkTimely tx = precheck kind poll.store tx.payload := by
  cases h with
  | estimate h => rfl
  | reset h =>
    rw [← h.poll_eq]
    rfl

theorem accept {tx : Transaction Payload} (h : Voting poll required taken kind round)
    (hcheck : round.check tx = .ok (.ok ())) :
    Voting poll required (taken ++ [tx]) kind (round.accept tx) := by
  obtain ⟨hcommon, htimely⟩ := check_eq_ok_iff.1 hcheck
  rw [h.checkTimely_eq] at htimely
  cases h with
  | estimate h hseen => exact .estimate (h.accept hcommon) hseen
  | reset h hseen hperiod =>
    refine .reset (h.accept hcommon) hseen ?_
    intro u hu
    rcases List.mem_append.1 hu with hold | hlast
    · exact hperiod u hold
    · rw [List.mem_singleton.1 hlast]
      exact htimely

/-- A transaction that passes is taken. -/
theorem process_of_passes {tx : Transaction Payload} (h : Voting poll required taken kind round)
    (hprecheck : precheck kind poll.store tx.payload = .ok (.ok ()))
    (hpass : poll.check tx = .ok ()) (hnew : (collected taken).contains tx.sender = false) :
    ∃ after, round.process tx = .ok (.ok (), after) ∧
      Voting poll required (taken ++ [tx]) kind after := by
  have hcheck : round.check tx = .ok (.ok ()) :=
    check_eq_ok_iff.2 ⟨h.checkCommon_eq_ok_iff.2 ⟨hpass, hnew⟩, (h.checkTimely_eq tx).trans hprecheck⟩
  exact ⟨round.accept tx, process_of_check hcheck, h.accept hcheck⟩

/-- Any other transaction is refused and changes nothing. -/
theorem process_cases (h : Voting poll required taken kind round)
    (hnext : Word.succ poll.store.period = .ok next) (tx : Transaction Payload) :
    (∃ e, round.process tx = .ok (.error e, round)) ∨
      ∃ after, round.process tx = .ok (.ok (), after) ∧
        Voting poll required (taken ++ [tx]) kind after := by
  obtain ⟨timely, htimely⟩ := exists_precheck hnext kind tx.payload
  rw [← h.checkTimely_eq] at htimely
  obtain ⟨answer, after, hprocess⟩ := exists_process_of_checkTimely htimely
  cases answer with
  | error e =>
    obtain ⟨rfl, _⟩ := process_eq_error hprocess
    exact .inl ⟨e, hprocess⟩
  | ok _ =>
    obtain ⟨hcheck, rfl⟩ := process_eq_ok_iff.1 hprocess
    exact .inr ⟨_, hprocess, h.accept hcheck⟩

/-- Whatever is processed, the potential does not rise. -/
theorem processAll (h : Voting poll required taken kind round)
    (hnext : Word.succ poll.store.period = .ok next) (txs : List (Transaction Payload)) :
    ∃ answers last, round.processAll txs = .ok (answers, last) ∧
      Voting poll required (taken ++ accepted txs answers) kind last ∧
      Ballot.potential poll (taken ++ accepted txs answers) ≤ Ballot.potential poll taken := by
  induction txs generalizing round taken with
  | nil => exact ⟨[], round, rfl, by simpa [accepted] using h, by simp [accepted]⟩
  | cons tx rest ih =>
    rcases h.process_cases hnext tx with ⟨e, hrefused⟩ | ⟨after, htaken, hafter⟩
    · obtain ⟨answers, last, hall, hlast, hle⟩ := ih h
      refine ⟨.error e :: answers, last, ?_, hlast, hle⟩
      simp only [Round.processAll, hrefused, Checked.ok_bind, hall, Checked.pure_eq_ok]
    · obtain ⟨answers, last, hall, hlast, hle⟩ := ih hafter
      have haccepted : taken ++ accepted (tx :: rest) (.ok () :: answers) =
          taken ++ [tx] ++ accepted rest answers := by
        rw [List.append_assoc]
        rfl
      refine ⟨.ok () :: answers, last, ?_, haccepted ▸ hlast, ?_⟩
      · simp only [Round.processAll, htaken, Checked.ok_bind, hall, Checked.pure_eq_ok]
      · rw [haccepted]
        exact hle.trans (Ballot.potential_concat_le hafter.poll_took)

/-- Transactions that pass, from senders who have not been taken yet, are all taken. -/
theorem processAll_of_passes {more : List (Transaction Payload)}
    (h : Voting poll required taken kind round) (hafter : poll.Took (taken ++ more))
    (hprecheck : ∀ tx ∈ more, precheck kind poll.store tx.payload = .ok (.ok ())) :
    ∃ last, round.processAll more = .ok (more.map fun _ => .ok (), last) ∧
      Voting poll required (taken ++ more) kind last := by
  induction more generalizing round taken with
  | nil => exact ⟨round, rfl, by simpa using h⟩
  | cons tx rest ih =>
    have hnew : (collected taken).contains tx.sender = false := by
      rw [← Bool.not_eq_true, contains_collected]
      have hnodup := hafter.senders_nodup
      rw [List.map_append, List.nodup_append] at hnodup
      exact fun hmem => hnodup.2.2 tx.sender hmem tx.sender (by simp) rfl
    obtain ⟨after, htaken, hvoting⟩ := h.process_of_passes (hprecheck tx (List.mem_cons_self ..))
      (hafter.passed tx (by simp)) hnew
    obtain ⟨last, hall, hlast⟩ := ih hvoting (by simpa using hafter)
      fun u hu => hprecheck u (List.mem_cons_of_mem _ hu)
    refine ⟨last, ?_, by simpa using hlast⟩
    simp only [Round.processAll, htaken, Checked.ok_bind, hall, Checked.pure_eq_ok, List.map_cons]

end Voting

/-! ## The votes that win -/

/-- Membership is all that a payload's sender is checked for. -/
theorem check_of_check {poll : Poll Kind} {payload : Payload} {s u : String}
    (h : poll.check ⟨s, payload⟩ = .ok ()) (hu : poll.participants.contains u = true) :
    poll.check ⟨u, payload⟩ = .ok () := by
  obtain ⟨hkind, hshape, _⟩ := Poll.check_eq_ok_iff.1 h
  exact Poll.check_eq_ok_iff.2 ⟨hkind, hshape, hu⟩

theorem check_shape {shape key : String} {data : SortedMap String Value}
    (h : data.keys = [key]) : (Shape.mk shape [key]).check data = .ok () := by
  rw [Shape.check, List.mergeSort_singleton, h]
  exact if_pos rfl

/-- Every participant can vote for zero, or for the next period. -/
theorem exists_vote {poll : Poll Kind} {next : UInt64} {kind : RoundKind}
    (hkind : kind = .estimateConsensus ∨ kind = .reset)
    (hregistry : registry = .ok poll.registry) (hallowed : poll.allowed = kind.allowed)
    (hnext : Word.succ poll.store.period = .ok next) :
    ∃ payload : Payload, payload.isNaN = false ∧
      precheck kind poll.store payload = .ok (.ok ()) ∧
      ∀ s, poll.participants.contains s = true → poll.check ⟨s, payload⟩ = .ok () := by
  have hshapes : ∀ entry ∈ Payload.shapes,
      poll.registry.shapes.get? entry.1 = some entry.2 := by
    have hbound : registry.toOption.all fun r =>
        Payload.shapes.all fun entry => r.shapes.get? entry.1 = some entry.2 := by decide
    rw [hregistry] at hbound
    simpa [Except.toOption] using hbound
  rcases hkind with rfl | rfl
  · refine ⟨.estimate ⟨0⟩, rfl, rfl, ?_⟩
    intro s hs
    refine Poll.check_eq_ok_iff.2
      ⟨hallowed.symm, ⟨⟨"EstimatePayload", ["estimate"]⟩, ?_, check_shape rfl⟩, hs⟩
    rw [hallowed]
    exact hshapes (.estimate, _) (by simp [Payload.shapes])
  · refine ⟨.reset next, rfl, ?_, ?_⟩
    · simp only [precheck, if_true, checkPeriod, hnext, Checked.ok_bind, Checked.pure_eq_ok]
    · intro s hs
      refine Poll.check_eq_ok_iff.2
        ⟨hallowed.symm, ⟨⟨"ResetPayload", ["period_count"]⟩, ?_, check_shape rfl⟩, hs⟩
      rw [hallowed]
      exact hshapes (.reset, _) (by simp [Payload.shapes])

theorem Voting.exists_won {poll : Poll Kind} {required next : UInt64}
    {taken : List (Transaction Payload)} {kind : RoundKind} {round : Round} {threshold : Nat}
    (h : Voting poll required taken kind round)
    (hkind : kind = .estimateConsensus ∨ kind = .reset)
    (hregistry : registry = .ok poll.registry) (hallowed : poll.allowed = kind.allowed)
    (hnext : Word.succ poll.store.period = .ok next) (ht : poll.threshold = .ok threshold)
    (hnumbers : ∀ tx ∈ taken, tx.payload.isNaN = false)
    (hpossible : threshold ≤ Ballot.potential poll taken) :
    ∃ more last, round.processAll more = .ok (more.map fun _ => .ok (), last) ∧
      last.isReached = .ok true := by
  have htook := h.poll_took
  have hself : ∀ tx ∈ taken, QuorumRounds.Payload.same tx.payload tx.payload = true := by
    intro tx htx
    exact (Payload.same_self tx.payload).trans (by rw [hnumbers tx htx, Bool.not_false])
  have hpayload : ∃ payload : Payload, QuorumRounds.Payload.same payload payload = true ∧
      ((Tally.ofVotes (ballots taken)).mostVotes ≤
        (ballots taken).countP fun v => QuorumRounds.Payload.same payload v.2) ∧
      precheck kind poll.store payload = .ok (.ok ()) ∧
      ∀ s, poll.participants.contains s = true → poll.check ⟨s, payload⟩ = .ok () := by
    by_cases hsome : taken = []
    · obtain ⟨payload, hnumber, hpre, hpass⟩ := exists_vote hkind hregistry hallowed hnext
      refine ⟨payload, ?_, ?_, hpre, hpass⟩
      · exact (Payload.same_self payload).trans (by rw [hnumber, Bool.not_false])
      · rw [hsome]
        exact Nat.zero_le _
    · obtain ⟨tx, htx, hleads⟩ := Ballot.exists_leading htook hsome hself
      exact ⟨tx.payload, hself tx htx, hleads, h.precheck_of_mem htx,
        fun s hs => check_of_check (htook.passed tx htx) hs⟩
  obtain ⟨payload, hsame, hleads, hpre, hpass⟩ := hpayload
  have hafter := Ballot.took_unanimous htook hpass
  obtain ⟨last, hall, hlast⟩ := h.processAll_of_passes hafter fun tx htx => by
    obtain ⟨s, _, rfl⟩ := List.mem_map.1 htx
    exact hpre
  obtain ⟨reached, hreached, hiff⟩ := hlast.isReached ht
  have hpos := ConsensusParams.threshold_pos ht
  have hmajority := Ballot.hasMajority_unanimous htook hafter hsame hleads hpos hpossible
  rw [hiff.2 ((Tally.hasMajority_iff_le_mostVotes hpos).1 hmajority)] at hreached
  exact ⟨_, last, hall, hreached⟩

end Round

/-- The votes that have been accepted decide alone whether the threshold can still be reached, and a
round is given up exactly when it cannot. There may be more participants than are admissible. -/
theorem possible_exactly_while_winnable {keys : List String} {depth : UInt64} {kind : RoundKind}
    {context : RoundContext Kind} {opened : Round}
    (hkind : kind = .estimateConsensus ∨ kind = .reset)
    (hregistry : registry = .ok context.registry)
    (hmax : context.params.maxParticipants.toNat < 2 ^ 63)
    (hperiod : context.store.period.toNat < 2 ^ 64 - 1)
    (hopen : buildRound keys depth kind context = .ok opened) (txs : List (Transaction Payload)) :
    ∃ answers round possible, opened.processAll txs = .ok (answers, round) ∧
      round.isMajorityPossible = .ok possible ∧
      (possible = false → ∀ more, ∃ replies last, round.processAll more = .ok (replies, last) ∧
        last.isReached = .ok false ∧ last.isMajorityPossible = .ok false) ∧
      (possible = true → (∀ tx ∈ Round.accepted txs answers, tx.payload.isNaN = false) →
        ∃ more last, round.processAll more = .ok (more.map fun _ => .ok (), last) ∧
          last.isReached = .ok true) ∧
      ∃ outcome after, round.endBlock = .ok (outcome, after) ∧
        (outcome.map (·.2) = some .noMajority ↔ possible = false) := by
  obtain ⟨poll, hvoting, hallowed, hstore, hparams, hsame⟩ := Round.voting_buildRound hkind hopen
  obtain ⟨threshold, ht⟩ := ConsensusParams.exists_threshold hmax
  obtain ⟨next, hnext⟩ := Word.exists_succ (a := context.store.period)
    (by simp only [UInt64.size]; omega)
  rw [← hparams] at ht
  rw [← hstore] at hnext
  rw [← hsame] at hregistry
  obtain ⟨answers, round, hall, hround, _⟩ := hvoting.processAll hnext txs
  rw [List.nil_append] at hround
  obtain ⟨possible, hpossible, hiff⟩ := hround.isMajorityPossible ht
  refine ⟨answers, round, possible, hall, hpossible, ?_, ?_, ?_⟩
  · rintro rfl more
    rw [Bool.false_eq_true, false_iff, Nat.not_le] at hiff
    obtain ⟨replies, last, hmore, hlast, hle⟩ := hround.processAll hnext more
    obtain ⟨reached, hreached, hreached'⟩ := hlast.isReached ht
    obtain ⟨later, hlater, hlater'⟩ := hlast.isMajorityPossible ht
    have hmost := Ballot.mostVotes_le_potential poll
      (Round.accepted txs answers ++ Round.accepted more replies)
    have hlost : reached = false := Bool.eq_false_iff.2 fun h => by
      have := hreached'.1 h
      omega
    have hgone : later = false := Bool.eq_false_iff.2 fun h => by
      have := hlater'.1 h
      omega
    exact ⟨replies, last, hmore, hlost ▸ hreached, hgone ▸ hlater⟩
  · rintro rfl hnumbers
    exact hround.exists_won hkind hregistry hallowed hnext ht hnumbers (hiff.1 rfl)
  · obtain ⟨outcome, after, hend, hnone⟩ := hround.endBlock ht hnext
    refine ⟨outcome, after, hend, ?_⟩
    rw [hnone, ← Nat.not_le, ← hiff, Bool.not_eq_true]

def twoVotes : List (Transaction Payload) :=
  [⟨"a", Ballot.zeroEstimate⟩, ⟨"b", Ballot.oneEstimate⟩]

def threeVotes : List (Transaction Payload) :=
  twoVotes ++ [⟨"c", .estimate ⟨0x4000000000000000⟩⟩]

/-- Three equal votes are needed. Two different ones leave the other two participants a choice, and
three different ones leave none. -/
theorem possible_exactly_while_winnable_by_four :
    let opened := Round.estimateConsensus Ballot.openedByFour
    (∃ answers round more last, opened.processAll twoVotes = .ok (answers, round) ∧
      round.isMajorityPossible = .ok true ∧
      round.processAll more = .ok (more.map fun _ => .ok (), last) ∧ last.isReached = .ok true) ∧
    ∃ answers round outcome after, opened.processAll threeVotes = .ok (answers, round) ∧
      round.isMajorityPossible = .ok false ∧ round.endBlock = .ok (outcome, after) ∧
      outcome.map (·.2) = some .noMajority := by
  have hopen : buildRound [] 0 .estimateConsensus Ballot.fourParticipants =
      .ok (.estimateConsensus Ballot.openedByFour) := rfl
  have hregistry : registry = .ok Ballot.fourParticipants.registry := rfl
  constructor
  · obtain ⟨answers, round, possible, hall, hpossible, _, hwon, _⟩ :=
      possible_exactly_while_winnable (.inl rfl) hregistry (by decide) (by decide) hopen twoVotes
    have hrun : ((Round.estimateConsensus Ballot.openedByFour).processAll twoVotes >>= fun out =>
        out.2.isMajorityPossible.map fun possible => (possible,
          (Round.accepted twoVotes out.1).all fun tx => !tx.payload.isNaN)) =
        .ok (true, true) := by decide +kernel
    rw [hall, Checked.ok_bind, hpossible] at hrun
    obtain ⟨rfl, hnumbers⟩ := Prod.mk.inj (Except.ok.inj hrun)
    obtain ⟨more, last, hmore, hlast⟩ := hwon rfl fun tx htx => by
      simpa using List.all_eq_true.1 hnumbers tx htx
    exact ⟨answers, round, more, last, hall, hpossible, hmore, hlast⟩
  · obtain ⟨answers, round, possible, hall, hpossible, _, _, outcome, after, hend, hnone⟩ :=
      possible_exactly_while_winnable (.inl rfl) hregistry (by decide) (by decide) hopen threeVotes
    have hrun : ((Round.estimateConsensus Ballot.openedByFour).processAll threeVotes >>= fun out =>
        out.2.isMajorityPossible) = .ok false := by decide +kernel
    rw [hall, Checked.ok_bind, hpossible] at hrun
    obtain rfl := Except.ok.inj hrun
    exact ⟨answers, round, outcome, after, hall, hpossible, hend, hnone.2 rfl⟩

end QuorumRounds.PriceOracle
