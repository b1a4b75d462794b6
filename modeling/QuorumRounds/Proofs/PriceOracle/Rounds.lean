import QuorumRounds.PriceOracle.Basic
import QuorumRounds.Proofs.Ballot.Votes
import QuorumRounds.Proofs.Gathering.Payloads

/-! # What the rounds of the price oracle take and hand on

`Round.Took depth poll required taken kind round` says that the round is of the given kind and has
taken the transactions in `taken`. A new round has taken none (`buildRound_eq`, `took_opened`), and
processing a transaction that passes the check takes it (`Took.process`). Checking and processing apply
the same two rules (`check_eq`, `process_eq`).

`Round.Outcome` lists what a round may hand on, in terms of what it has taken (`Took.endBlock`). -/

namespace QuorumRounds.PriceOracle
set_option autoImplicit false

namespace Payload

theorem eq_registration {payload : Payload} (h : payload.kind = .registration) :
    payload = .registration := by
  cases payload with
  | registration => rfl
  | observation price => cases h
  | estimate price => cases h
  | reset period => cases h

theorem exists_observation {payload : Payload} (h : payload.kind = .observation) :
    ∃ price, payload = .observation price := by
  cases payload with
  | observation price => exact ⟨price, rfl⟩
  | registration => cases h
  | estimate price => cases h
  | reset period => cases h

theorem exists_estimate {payload : Payload} (h : payload.kind = .estimate) :
    ∃ price, payload = .estimate price := by
  cases payload with
  | estimate price => exact ⟨price, rfl⟩
  | registration => cases h
  | observation price => cases h
  | reset period => cases h

theorem exists_reset {payload : Payload} (h : payload.kind = .reset) :
    ∃ period, payload = .reset period := by
  cases payload with
  | reset period => exact ⟨period, rfl⟩
  | registration => cases h
  | observation price => cases h
  | estimate price => cases h

/-- Only an estimate equals an estimate. -/
theorem exists_estimate_of_same {payload : Payload} {price : Binary64}
    (h : payload = .estimate price ∨ Payload.same payload (.estimate price) = true) :
    ∃ leading, payload = .estimate leading ∧
      (price = leading ∨ price.equals leading = true) := by
  cases payload with
  | estimate leading =>
    refine ⟨leading, rfl, ?_⟩
    rcases h with h | h
    · exact .inl (Payload.estimate.inj h).symm
    · exact .inr ((Binary64.equals_comm price leading).trans h)
  | registration => rcases h with h | h <;> cases h
  | observation other => rcases h with h | h <;> cases h
  | reset period => rcases h with h | h <;> cases h

end Payload

def RoundKind.allowed : RoundKind → Kind
  | .registration => .registration
  | .collectObservation => .observation
  | .estimateConsensus => .estimate
  | .reset => .reset

namespace Round

inductive Took (depth : UInt64) (poll : Poll Kind) (required : UInt64)
    (taken : List (Transaction Payload)) : RoundKind → Round → Prop where
  | registration {gathering : Gathering Payload Kind}
    (h : gathering.Took poll .everyone required taken) :
    Took depth poll required taken .registration (.registration gathering)
  | collectObservation {gathering : Gathering Payload Kind}
    (h : gathering.Took poll .threshold required taken) :
    Took depth poll required taken .collectObservation (.collectObservation gathering)
  | estimateConsensus {ballot : Ballot Payload Kind} (h : ballot.Took poll required taken) :
    Took depth poll required taken .estimateConsensus (.estimateConsensus ballot)
  | reset {ballot : Ballot Payload Kind} (h : ballot.Took poll required taken) :
    Took depth poll required taken .reset (.reset ballot crossPeriodKeys depth)

/-- What the end of a round has made of the poll's store, and with which event. -/
inductive Outcome (depth : UInt64) (poll : Poll Kind) (taken : List (Transaction Payload)) :
    RoundKind → Event → Store → Prop where
  | noMajority {kind : RoundKind} (h : kind ≠ .registration) :
    Outcome depth poll taken kind .noMajority poll.store
  | registered (heveryone : poll.participants.size ≤ (collected taken).size) :
    Outcome depth poll taken .registration .done
      (poll.store.update [(participantsKey, participantsValue (collected taken).keys)])
  | observed {threshold : Nat} (ht : poll.threshold = .ok threshold)
    (hle : threshold ≤ (collected taken).size) :
    Outcome depth poll taken .collectObservation .done
      (poll.store.update [(observationsKey, .ofMap (collectedObservations (collected taken)))])
  | estimated {threshold : Nat} {price : Binary64} {senders : Finset String}
    (ht : poll.threshold = .ok threshold) (hle : threshold ≤ senders.card)
    (hsub : senders ⊆ poll.participants.domain)
    (hback : ∀ s ∈ senders, ∃ x, ⟨s, .estimate x⟩ ∈ taken ∧ (x = price ∨ x.equals price = true)) :
    Outcome depth poll taken .estimateConsensus .done
      (poll.store.update [(estimateKey, .float price)])
  | reset {opened : Store} (h : poll.store.create crossPeriodKeys = .ok opened) :
    Outcome depth poll taken .reset .done (opened.cleanup depth.toNat none)

/-! ## Building a round -/

/-- The poll of a new round. -/
def pollOf (kind : RoundKind) (context : RoundContext Kind) (participants : SortedSet String) :
    Poll Kind :=
  ⟨name kind, kind.allowed, context.store, context.params, participants, context.registry⟩

/-- A round that has taken nothing. -/
def opened (depth required : UInt64) (poll : Poll Kind) : RoundKind → Round
  | .registration => .registration ⟨poll, .everyone, ∅, .ofRequired required⟩
  | .collectObservation => .collectObservation ⟨poll, .threshold, ∅, .ofRequired required⟩
  | .estimateConsensus => .estimateConsensus ⟨poll, ∅, ∅, .ofRequired required⟩
  | .reset => .reset ⟨poll, ∅, ∅, .ofRequired required⟩ crossPeriodKeys depth

theorem took_opened (depth required : UInt64) (poll : Poll Kind) (kind : RoundKind) :
    (opened depth required poll kind).Took depth poll required [] kind := by
  have hnone : poll.Took ([] : List (Transaction Payload)) := Poll.Took.nil poll
  cases kind with
  | registration => exact .registration ⟨rfl, rfl, rfl, hnone, rfl⟩
  | collectObservation => exact .collectObservation ⟨rfl, rfl, rfl, hnone, rfl⟩
  | estimateConsensus => exact .estimateConsensus ⟨rfl, rfl, hnone, rfl, rfl⟩
  | reset => exact .reset ⟨rfl, rfl, hnone, rfl, rfl⟩

theorem buildRound_eq {context : RoundContext Kind} {participants : SortedSet String}
    (h : context.store.participants = .ok participants) (depth : UInt64) (kind : RoundKind) :
    buildRound crossPeriodKeys depth kind context =
      .ok (opened depth context.requiredConfirmations (pollOf kind context participants) kind) := by
  have hpoll : Poll.ofContext (name kind) kind.allowed context =
      .ok (pollOf kind context participants) := Poll.ofContext_eq_ok_iff.2 ⟨participants, h, rfl⟩
  have hgathering : ∀ quota, Gathering.ofContext quota (name kind) kind.allowed context =
      .ok (⟨pollOf kind context participants, quota, ∅, .ofRequired context.requiredConfirmations⟩ :
        Gathering Payload Kind) :=
    fun quota => Gathering.ofContext_eq_ok_iff.2 ⟨_, hpoll, rfl⟩
  have hballot : Ballot.ofContext (name kind) kind.allowed context =
      .ok (⟨pollOf kind context participants, ∅, ∅, .ofRequired context.requiredConfirmations⟩ :
        Ballot Payload Kind) := Ballot.ofContext_eq_ok_iff.2 ⟨_, hpoll, rfl⟩
  cases kind with
  | registration => exact congrArg (Except.map Round.registration) (hgathering .everyone)
  | collectObservation =>
    exact congrArg (Except.map Round.collectObservation) (hgathering .threshold)
  | estimateConsensus => exact congrArg (Except.map Round.estimateConsensus) hballot
  | reset => exact congrArg (Except.map fun b => Round.reset b crossPeriodKeys depth) hballot

/-! ## What a round is and holds -/

def kind : Round → RoundKind
  | .registration _ => .registration
  | .collectObservation _ => .collectObservation
  | .estimateConsensus _ => .estimateConsensus
  | .reset _ _ _ => .reset

def collection : Round → SortedMap String Payload
  | .registration gathering | .collectObservation gathering => gathering.collection
  | .estimateConsensus ballot | .reset ballot _ _ => ballot.collection

/-! ## Taking a transaction -/

def accept (round : Round) (tx : Transaction Payload) : Round :=
  match round with
  | .registration gathering => .registration (gathering.accept tx)
  | .collectObservation gathering => .collectObservation (gathering.accept tx)
  | .estimateConsensus ballot => .estimateConsensus (ballot.accept tx)
  | .reset ballot keys depth => .reset (ballot.accept tx) keys depth

/-! ## What a transaction is checked for

Every round looks at the kind, the layout and the sender of a transaction. A reset looks at the period
that the payload names as well: after that when it checks, and before when it processes. -/

section Rules
variable {round : Round}

/-- No period follows the last one that can be numbered. -/
theorem checkPeriod_reset_iff {store : Store} {period : UInt64} :
    checkPeriod store (.reset period) = .ok (.ok ()) ↔
      period.toNat = store.period.toNat + 1 := by
  constructor
  · intro h
    obtain ⟨expected, hexpected, hrest⟩ := Checked.bind_eq_ok_iff.1 h
    by_cases hperiod : period = expected
    · rw [hperiod]
      exact Word.succ_eq_ok_iff.1 hexpected
    · simp only [if_neg hperiod] at hrest
      cases hrest
  · intro h
    rw [checkPeriod, Word.succ_eq_ok_iff.2 h, Checked.ok_bind]
    simp only [if_true]
    rfl

/-- Kind, layout, membership, and that the sender has not been heard yet. -/
def checkCommon (round : Round) (tx : Transaction Payload) : Except Rejection Unit :=
  match round with
  | .registration gathering | .collectObservation gathering => gathering.check tx
  | .estimateConsensus ballot | .reset ballot _ _ => ballot.check tx

/-- Only a reset looks at the period. -/
def checkTimely (round : Round) (tx : Transaction Payload) : Checked (Except Rejection Unit) :=
  match round with
  | .reset ballot _ _ => checkPeriod ballot.poll.store tx.payload
  | .registration _ | .collectObservation _ | .estimateConsensus _ => .ok (.ok ())

/-- A transaction is checked by the common rules, and then by its period. -/
theorem check_eq (round : Round) (tx : Transaction Payload) :
    round.check tx = match round.checkCommon tx with
      | .error reason => .ok (.error reason)
      | .ok () => round.checkTimely tx := by
  cases round with
  | registration gathering | collectObservation gathering =>
    change Except.ok (gathering.check tx) = match gathering.check tx with
      | .error reason => .ok (.error reason)
      | .ok () => .ok (.ok ())
    cases gathering.check tx <;> rfl
  | estimateConsensus ballot =>
    change Except.ok (ballot.check tx) = match ballot.check tx with
      | .error reason => .ok (.error reason)
      | .ok () => .ok (.ok ())
    cases ballot.check tx <;> rfl
  | reset ballot keys depth => rfl

theorem check_eq_ok_iff {tx : Transaction Payload} :
    round.check tx = .ok (.ok ()) ↔
      round.checkCommon tx = .ok () ∧ round.checkTimely tx = .ok (.ok ()) := by
  rw [check_eq]
  cases round.checkCommon tx with
  | error reason => simp
  | ok _ => simp

/-- What an answer to a transaction makes of the round. -/
def settle (round : Round) (tx : Transaction Payload) :
    Except Rejection Unit → Except InternalError Unit × Round
  | .error reason => (.error (.invalidPayload reason), round)
  | .ok () => (.ok (), round.accept tx)

/-- A transaction is processed by its period, and then by the common rules. -/
theorem process_eq (round : Round) (tx : Transaction Payload) :
    round.process tx = (round.checkTimely tx).map fun
      | .error reason => round.settle tx (.error reason)
      | .ok () => round.settle tx (round.checkCommon tx) := by
  cases round with
  | registration gathering | collectObservation gathering =>
    rw [process, Gathering.process]
    change _ = Except.ok (settle _ tx (gathering.check tx))
    cases gathering.check tx <;> rfl
  | estimateConsensus ballot =>
    rw [process, Ballot.process]
    change _ = Except.ok (settle _ tx (ballot.check tx))
    cases ballot.check tx <;> rfl
  | reset ballot keys depth =>
    rw [process, checkTimely, checkCommon, Ballot.process]
    cases checkPeriod ballot.poll.store tx.payload with
    | error e => rfl
    | ok timely =>
      cases timely with
      | error reason => rfl
      | ok _ => cases ballot.check tx <;> rfl

theorem process_eq_ok_iff {tx : Transaction Payload} {after : Round} :
    round.process tx = .ok (.ok (), after) ↔
      round.check tx = .ok (.ok ()) ∧ after = round.accept tx := by
  rw [check_eq, process_eq]
  cases round.checkTimely tx with
  | error e => cases round.checkCommon tx <;> simp [Except.map]
  | ok timely =>
    cases timely with
    | error reason => cases round.checkCommon tx <;> simp [Except.map, settle]
    | ok _ => cases round.checkCommon tx <;> simp [Except.map, settle, eq_comm]

theorem process_eq_error {tx : Transaction Payload} {e : InternalError} {after : Round}
    (h : round.process tx = .ok (.error e, after)) :
    after = round ∧ ∃ reason, e = .invalidPayload reason := by
  rw [process_eq] at h
  obtain ⟨timely, _, heq⟩ := Checked.map_eq_ok_iff.1 h
  cases timely with
  | error reason =>
    cases heq
    exact ⟨rfl, reason, rfl⟩
  | ok _ =>
    cases hcommon : round.checkCommon tx with
    | error reason =>
      rw [hcommon] at heq
      cases heq
      exact ⟨rfl, reason, rfl⟩
    | ok _ =>
      rw [hcommon] at heq
      cases heq

/-- Only the number of the next period can overflow. -/
theorem exists_process_of_checkTimely {tx : Transaction Payload} {timely : Except Rejection Unit}
    (h : round.checkTimely tx = .ok timely) :
    ∃ answer after, round.process tx = .ok (answer, after) := by
  rw [process_eq, h]
  exact ⟨_, _, rfl⟩

/-- A transaction that passes is taken. -/
theorem process_of_check {tx : Transaction Payload} (h : round.check tx = .ok (.ok ())) :
    round.process tx = .ok (.ok (), round.accept tx) :=
  process_eq_ok_iff.2 ⟨h, rfl⟩

/-- A round takes the transaction, or it stays as it was. -/
theorem process_cases {tx : Transaction Payload} {answer : Except InternalError Unit} {after : Round}
    (h : round.process tx = .ok (answer, after)) :
    answer = .ok () ∧ after = round.accept tx ∨ (∃ e, answer = .error e) ∧ after = round := by
  cases answer with
  | ok _ => exact .inl ⟨rfl, (process_eq_ok_iff.1 h).2⟩
  | error e => exact .inr ⟨⟨e, rfl⟩, (process_eq_error h).1⟩

end Rules

/-- A round asks for its decision, and hands on what comes of it. -/
theorem handedOn_eq_ok {α β : Type} {ask : Checked (Decision α × β)} {store : Store}
    {result : α → Checked Store} (rebuild : β → Round) {outcome : Option (Store × Event)}
    {after : Round} (h : (do
      let (decision, asked) ← ask
      let outcome ← handOn store decision result
      pure (outcome, rebuild asked)) = Except.ok (outcome, after)) :
    ∃ decision asked, ask = .ok (decision, asked) ∧
      handOn store decision result = .ok outcome ∧ after = rebuild asked := by
  obtain ⟨⟨decision, asked⟩, hask, hrest⟩ := Checked.bind_eq_ok_iff.1 h
  obtain ⟨made, hmade, heq⟩ := Checked.bind_eq_ok_iff.1 hrest
  cases heq
  exact ⟨decision, asked, hask, hmade, rfl⟩

/-- Only a round that is given up hands on its store with that event. -/
theorem handOn_eq_noMajority_iff {α : Type} {store : Store} {decision : Decision α}
    {result : α → Checked Store} {outcome : Option (Store × Event)}
    (h : handOn store decision result = .ok outcome) :
    outcome.map (·.2) = some .noMajority ↔ decision = .noMajority := by
  cases decision with
  | pending =>
    cases h
    simp
  | noMajority =>
    cases h
    simp
  | reached value =>
    obtain ⟨after, _, rfl⟩ := Checked.map_eq_ok_iff.1 h
    simp

namespace Took
variable {depth required : UInt64} {poll : Poll Kind} {taken : List (Transaction Payload)}
  {kind : RoundKind} {round after : Round}

theorem poll_eq (h : round.Took depth poll required taken kind) : round.poll = poll := by
  cases h with
  | registration h => exact h.poll_eq
  | collectObservation h => exact h.poll_eq
  | estimateConsensus h => exact h.poll_eq
  | reset h => exact h.poll_eq

theorem kind_eq (h : round.Took depth poll required taken kind) : round.kind = kind := by
  cases h <;> rfl

theorem collection_eq (h : round.Took depth poll required taken kind) :
    round.collection = collected taken := by
  cases h with
  | registration h => exact h.collection_eq
  | collectObservation h => exact h.collection_eq
  | estimateConsensus h => exact h.collection_eq
  | reset h => exact h.collection_eq

theorem store_eq (h : round.Took depth poll required taken kind) : round.store = poll.store :=
  congrArg Poll.store h.poll_eq

theorem poll_took (h : round.Took depth poll required taken kind) : poll.Took taken := by
  cases h with
  | registration h => exact h.took
  | collectObservation h => exact h.took
  | estimateConsensus h => exact h.took
  | reset h => exact h.took

/-! ## Processing a transaction -/

theorem accept {tx : Transaction Payload} (h : round.Took depth poll required taken kind)
    (hcheck : round.check tx = .ok (.ok ())) :
    (round.accept tx).Took depth poll required (taken ++ [tx]) kind := by
  cases h with
  | registration h => exact .registration (h.accept (Except.ok.inj hcheck))
  | collectObservation h => exact .collectObservation (h.accept (Except.ok.inj hcheck))
  | estimateConsensus h => exact .estimateConsensus (h.accept (Except.ok.inj hcheck))
  | reset h => exact .reset (h.accept (check_eq_ok_iff.1 hcheck).1)

theorem process {tx : Transaction Payload} {answer : Except InternalError Unit}
    (h : round.Took depth poll required taken kind) (hcheck : round.check tx = .ok (.ok ()))
    (hprocess : round.process tx = .ok (answer, after)) :
    answer = .ok () ∧ after.Took depth poll required (taken ++ [tx]) kind := by
  rw [process_of_check hcheck] at hprocess
  cases hprocess
  exact ⟨rfl, h.accept hcheck⟩

/-- Nobody is heard twice. -/
theorem check_of_sent {tx : Transaction Payload} (h : round.Took depth poll required taken kind)
    (hsent : tx.sender ∈ taken.map (·.sender)) : ∃ reason, round.check tx = .ok (.error reason) := by
  have hcontains := contains_collected.2 hsent
  have hrefused : ∀ answer : Except Rejection Unit,
      (answer = .ok () → (collected taken).contains tx.sender = false) →
      ∃ reason, answer = .error reason := by
    intro answer hanswer
    cases answer with
    | error reason => exact ⟨reason, rfl⟩
    | ok _ =>
      rw [hanswer rfl] at hcontains
      cases hcontains
  cases h with
  | @registration gathering h | @collectObservation gathering h =>
    obtain ⟨reason, hreason⟩ := hrefused (gathering.check tx) fun hok =>
      h.collection_eq ▸ (Gathering.check_eq_ok_iff.1 hok).2
    exact ⟨reason, congrArg Except.ok hreason⟩
  | @estimateConsensus ballot h =>
    obtain ⟨reason, hreason⟩ := hrefused (ballot.check tx) fun hok =>
      h.collection_eq ▸ (Ballot.check_eq_ok_iff.1 hok).2
    exact ⟨reason, congrArg Except.ok hreason⟩
  | @reset ballot h =>
    obtain ⟨reason, hreason⟩ := hrefused (ballot.check tx) fun hok =>
      h.collection_eq ▸ (Ballot.check_eq_ok_iff.1 hok).2
    exact ⟨reason, by rw [Round.check, hreason]⟩

/-! ## The end of a block -/

/-- Every payload that has been taken is of the kind that the round allows. -/
theorem kind_of_mem (h : poll.Took taken) {s : String} {payload : Payload}
    (hmem : ⟨s, payload⟩ ∈ taken) : payload.kind = poll.allowed :=
  (Poll.check_eq_ok_iff.1 (h.passed _ hmem)).1

/-- The leader of a vote on estimates is an estimate, and its backers have sent one that equals
it. -/
theorem exists_estimate {ballot : Ballot Payload Kind} {payload : Payload} {votes : Nat}
    (h : ballot.Took poll required taken) (hallowed : poll.allowed = .estimate)
    (hlead : ballot.tally.leader? = some (payload, votes)) (hpos : 0 < votes) :
    ∃ price senders, payload = .estimate price ∧ Finset.card senders = votes ∧
      senders ⊆ poll.participants.domain ∧
      ∀ s ∈ senders, ∃ x, ⟨s, .estimate x⟩ ∈ taken ∧ (x = price ∨ x.equals price = true) := by
  obtain ⟨senders, hcard, hsub, hback⟩ := h.backers hlead
  have hsent : ∀ s ∈ senders, ∃ x, ⟨s, .estimate x⟩ ∈ taken ∧
      (payload = .estimate x ∨ Payload.same payload (.estimate x) = true) := by
    intro s hs
    obtain ⟨q, hq, heq⟩ := hback s hs
    rw [h.collection_eq, h.took.get?_collected] at hq
    obtain ⟨x, rfl⟩ := Payload.exists_estimate ((kind_of_mem h.took hq).trans hallowed)
    exact ⟨x, hq, heq.imp_left Eq.symm⟩
  obtain ⟨first, hfirst⟩ := Finset.card_pos.1 (hcard ▸ hpos)
  obtain ⟨_, _, heq⟩ := hsent first hfirst
  obtain ⟨price, rfl, _⟩ := Payload.exists_estimate_of_same heq
  refine ⟨price, senders, rfl, hcard, hsub, ?_⟩
  intro s hs
  obtain ⟨x, hx, hsame⟩ := hsent s hs
  obtain ⟨leading, hleading, hequal⟩ := Payload.exists_estimate_of_same hsame
  cases hleading
  exact ⟨x, hx, hequal⟩

/-- Asking a round for its decision leaves it with what it has taken. -/
theorem endBlock (h : round.Took depth poll required taken kind)
    (hallowed : poll.allowed = kind.allowed) {outcome : Option (Store × Event)}
    (hend : round.endBlock = .ok (outcome, after)) :
    after.Took depth poll required taken kind ∧
      ∀ store event, outcome = some (store, event) →
        Outcome depth poll taken kind event store := by
  have hstore := h.store_eq
  cases h with
  | @registration gathering h =>
    simp only [Round.endBlock, hstore] at hend
    obtain ⟨decision, asked, hdecide, hmade, rfl⟩ := handedOn_eq_ok .registration hend
    obtain ⟨htook, hdecision⟩ := h.decide hdecide
    refine ⟨.registration htook, ?_⟩
    intro store event houtcome
    rw [houtcome] at hmade
    rcases hdecision with rfl | ⟨_, hquota⟩ | ⟨rfl, _, heveryone⟩
    · cases hmade
    · cases hquota
    · cases hmade
      exact .registered (heveryone rfl)
  | @collectObservation gathering h =>
    simp only [Round.endBlock, hstore] at hend
    obtain ⟨decision, asked, hdecide, hmade, rfl⟩ := handedOn_eq_ok .collectObservation hend
    obtain ⟨htook, hdecision⟩ := h.decide hdecide
    refine ⟨.collectObservation htook, ?_⟩
    intro store event houtcome
    rw [houtcome] at hmade
    rcases hdecision with rfl | ⟨rfl, _⟩ | ⟨rfl, hquota, _⟩
    · cases hmade
    · cases hmade
      exact .noMajority (by decide)
    · cases hmade
      obtain ⟨threshold, ht, hle⟩ := hquota rfl
      exact .observed ht hle
  | @estimateConsensus ballot h =>
    simp only [Round.endBlock, hstore] at hend
    obtain ⟨decision, asked, hdecide, hmade, rfl⟩ := handedOn_eq_ok .estimateConsensus hend
    obtain ⟨htook, hdecision⟩ := h.decide hdecide
    refine ⟨.estimateConsensus htook, ?_⟩
    intro store event houtcome
    rw [houtcome] at hmade
    rcases hdecision with rfl | rfl | ⟨payload, votes, threshold, rfl, hlead, ht, hvotes⟩
    · cases hmade
    · cases hmade
      exact .noMajority (by decide)
    · have hpos := ConsensusParams.threshold_pos ht
      obtain ⟨price, senders, rfl, hcard, hsub, hback⟩ :=
        exists_estimate h hallowed hlead (by omega)
      cases hmade
      exact .estimated ht (hcard ▸ hvotes) hsub hback
  | @reset ballot h =>
    simp only [Round.endBlock, hstore] at hend
    obtain ⟨decision, asked, hdecide, hmade, rfl⟩ := handedOn_eq_ok (.reset · crossPeriodKeys depth) hend
    obtain ⟨htook, hdecision⟩ := h.decide hdecide
    refine ⟨.reset htook, ?_⟩
    intro store event houtcome
    rw [houtcome] at hmade
    rcases hdecision with rfl | rfl | ⟨payload, votes, threshold, rfl, _⟩
    · cases hmade
    · cases hmade
      exact .noMajority (by decide)
    · obtain ⟨_, hclean, heq⟩ := Checked.map_eq_ok_iff.1 hmade
      cases heq
      obtain ⟨opened, hopen, rfl⟩ := Checked.map_eq_ok_iff.1 hclean
      exact .reset hopen

end Took

end Round

end QuorumRounds.PriceOracle
