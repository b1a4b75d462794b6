import QuorumRounds.Proofs.Ballot.Order
import QuorumRounds.Proofs.PriceOracle.Rounds
import QuorumRounds.Proofs.PriceOracle.Unsigned

/-! # Rounds without the order of their transactions

`Round.outline` leaves out of a round what depends on the order of its transactions: the tally of a
ballot, and the signs of zero estimates in the store. Taking two transactions of different senders in
either order gives one outline (`Round.accept_comm`), and a check sees nothing but the outline
(`Round.check_outline`).

Of what a round hands on, only the winner of a vote on estimates depends on the tally. A majority for
one estimate shares a sender with any majority for another, so that the two estimates are equal as
numbers, and the stores differ in the sign of a zero at most (`Round.Outcome.unsigned_eq`). -/

namespace QuorumRounds.PriceOracle
set_option autoImplicit false
open Checked (Both)

def unsignedPoll (poll : Poll Kind) : Poll Kind := { poll with store := unsigned poll.store }

namespace Round

/-! ## Outlines -/

def outlineGathering (gathering : Gathering Payload Kind) : Gathering Payload Kind :=
  { gathering with poll := unsignedPoll gathering.poll }

def outlineBallot (ballot : Ballot Payload Kind) : Ballot Payload Kind :=
  { ballot with poll := unsignedPoll ballot.poll, tally := ∅ }

def outline : Round → Round
  | .registration gathering => .registration (outlineGathering gathering)
  | .collectObservation gathering => .collectObservation (outlineGathering gathering)
  | .estimateConsensus ballot => .estimateConsensus (outlineBallot ballot)
  | .reset ballot keys depth => .reset (outlineBallot ballot) keys depth

theorem kind_outline (round : Round) : round.outline.kind = round.kind := by
  cases round <;> rfl

theorem collection_outline (round : Round) : round.outline.collection = round.collection := by
  cases round <;> rfl

theorem poll_outline (round : Round) : round.outline.poll = unsignedPoll round.poll := by
  cases round <;> rfl

theorem check_outline (round : Round) (tx : Transaction Payload) :
    round.outline.check tx = round.check tx := by
  cases round <;> rfl

/-- The round with one more payload, which is not counted. -/
def record (round : Round) (tx : Transaction Payload) : Round :=
  match round with
  | .registration gathering => .registration (gathering.accept tx)
  | .collectObservation gathering => .collectObservation (gathering.accept tx)
  | .estimateConsensus ballot =>
    .estimateConsensus { ballot with collection := ballot.collection.insert tx.sender tx.payload }
  | .reset ballot keys depth =>
    .reset { ballot with collection := ballot.collection.insert tx.sender tx.payload } keys depth

theorem outline_accept (round : Round) (tx : Transaction Payload) :
    (round.accept tx).outline = round.outline.record tx := by
  cases round <;> rfl

theorem outline_opened (depth required : UInt64) (poll : Poll Kind) (kind : RoundKind) :
    (opened depth required poll kind).outline = opened depth required (unsignedPoll poll) kind := by
  cases kind <;> rfl

theorem samePayloads_of_outline {gathering other : Gathering Payload Kind}
    (h : outlineGathering gathering = outlineGathering other) : gathering.SamePayloads other where
  params_eq := congrArg (·.poll.params) h
  participants_eq := congrArg (·.poll.participants) h
  quota_eq := congrArg (·.quota) h
  collection_eq := congrArg (·.collection) h
  confirmations_eq := congrArg (·.confirmations) h

theorem sameVotes_of_outline {ballot other : Ballot Payload Kind}
    (h : outlineBallot ballot = outlineBallot other) : ballot.SameVotes other where
  params_eq := congrArg (·.poll.params) h
  participants_eq := congrArg (·.poll.participants) h
  collection_eq := congrArg (·.collection) h
  confirmations_eq := congrArg (·.confirmations) h

/-! ## Transactions of different senders -/

theorem check_accept {round : Round} {tx other : Transaction Payload}
    (h : tx.sender ≠ other.sender) : (round.accept tx).check other = round.check other := by
  cases round with
  | registration gathering => exact congrArg Except.ok (Gathering.check_accept h)
  | collectObservation gathering => exact congrArg Except.ok (Gathering.check_accept h)
  | estimateConsensus ballot => exact congrArg Except.ok (Ballot.check_accept h)
  | reset ballot keys depth =>
    rw [accept, Round.check, Ballot.check_accept h, Round.check]
    rfl

theorem record_comm {round : Round} {tx other : Transaction Payload}
    (h : tx.sender ≠ other.sender) :
    (round.record tx).record other = (round.record other).record tx := by
  have hcollection := SortedMap.insert_comm round.collection h tx.payload other.payload
  cases round with
  | registration gathering =>
    exact congrArg (fun c => registration { gathering with collection := c }) hcollection
  | collectObservation gathering =>
    exact congrArg (fun c => collectObservation { gathering with collection := c }) hcollection
  | estimateConsensus ballot =>
    exact congrArg (fun c => estimateConsensus { ballot with collection := c }) hcollection
  | reset ballot keys depth =>
    exact congrArg (fun c => reset { ballot with collection := c } keys depth) hcollection

theorem accept_comm {round : Round} {tx other : Transaction Payload}
    (h : tx.sender ≠ other.sender) :
    ((round.accept tx).accept other).outline = ((round.accept other).accept tx).outline := by
  simp only [outline_accept, record_comm h]

theorem checkPeriod_eq_error {store : Store} {payload : Payload} {e : Overflow}
    (h : checkPeriod store payload = .error e) : e = .add := by
  rw [checkPeriod] at h
  cases hnext : Word.succ store.period with
  | error e =>
    rw [hnext] at h
    cases h
    exact Word.eq_add_of_succ hnext
  | ok expected =>
    rw [hnext, Checked.ok_bind] at h
    cases payload with
    | reset period =>
      simp only at h
      split at h <;> cases h
    | registration => cases h
    | observation price => cases h
    | estimate price => cases h

/-- Only the number of the next period may overflow. -/
theorem check_eq_error {round : Round} {tx : Transaction Payload} {e : Overflow}
    (h : round.check tx = .error e) : e = .add := by
  cases round with
  | registration gathering => cases h
  | collectObservation gathering => cases h
  | estimateConsensus ballot => cases h
  | reset ballot keys depth =>
    rw [Round.check] at h
    cases hpass : ballot.check tx with
    | error reason =>
      rw [hpass] at h
      cases h
    | ok _ =>
      simp only [hpass] at h
      exact checkPeriod_eq_error h

/-! ## Outcomes -/

section Outcome
variable {depth required required' : UInt64} {poll poll' : Poll Kind}
  {taken taken' : List (Transaction Payload)} {kind : RoundKind}

/-- The majorities have a sender in common, and the two estimates equal the one that it has sent. -/
theorem unsignedZero_eq {threshold threshold' : Nat} {price price' : Binary64}
    {senders senders' : Finset String} (htook : poll.Took taken) (htook' : poll'.Took taken')
    (hpoll : unsignedPoll poll = unsignedPoll poll') (hcollected : collected taken = collected taken')
    (hsize : poll.participants.size ≤ poll.params.maxParticipants.toNat)
    (ht : poll.threshold = .ok threshold) (hle : threshold ≤ senders.card)
    (hsub : senders ⊆ poll.participants.domain)
    (hback : ∀ s ∈ senders, ∃ x, ⟨s, .estimate x⟩ ∈ taken ∧ (x = price ∨ x.equals price = true))
    (ht' : poll'.threshold = .ok threshold') (hle' : threshold' ≤ senders'.card)
    (hsub' : senders' ⊆ poll'.participants.domain)
    (hback' : ∀ s ∈ senders', ∃ x, ⟨s, .estimate x⟩ ∈ taken' ∧
      (x = price' ∨ x.equals price' = true)) :
    price.unsignedZero = price'.unsignedZero := by
  have hparams : poll.params = poll'.params := congrArg (·.params) hpoll
  have hparticipants : poll.participants = poll'.participants := congrArg (·.participants) hpoll
  rw [Poll.threshold, ← hparams] at ht'
  rw [Poll.threshold, ht'] at ht
  cases ht
  rw [← hparticipants] at hsub'
  obtain ⟨s, hs, hs'⟩ := exists_mem_both hsub hsub' ((SortedMap.card_domain _).trans_le hsize) hle
    hle' (ConsensusParams.lt_two_mul_threshold ht')
  obtain ⟨x, hx, hprice⟩ := hback s hs
  obtain ⟨y, hy, hprice'⟩ := hback' s hs'
  have hxy : (⟨s, .estimate x⟩ : Transaction Payload) ∈ taken' := by
    rw [← htook'.get?_collected, ← hcollected, htook.get?_collected]
    exact hx
  rw [← htook'.get?_collected] at hxy hy
  rw [hxy] at hy
  cases hy
  rw [← Binary64.unsignedZero_congr hprice, Binary64.unsignedZero_congr hprice']

/-- What is handed on depends on the order of the votes only in signs of zero estimates. -/
theorem Outcome.unsigned_eq {event : Event} {store store' : Store}
    (h : Outcome depth poll taken kind event store)
    (h' : Outcome depth poll' taken' kind event store') (htook : poll.Took taken)
    (htook' : poll'.Took taken') (hpoll : unsignedPoll poll = unsignedPoll poll')
    (hcollected : collected taken = collected taken')
    (hsize : poll.participants.size ≤ poll.params.maxParticipants.toNat) :
    unsigned store = unsigned store' := by
  have hstore : unsigned poll.store = unsigned poll'.store := congrArg (·.store) hpoll
  cases h with
  | noMajority =>
    cases h' with
    | noMajority => exact hstore
  | registered =>
    cases h' with
    | registered => rw [unsigned_update, unsigned_update, hstore, hcollected]
  | observed =>
    cases h' with
    | observed => rw [unsigned_update, unsigned_update, hstore, hcollected]
  | estimated ht hle hsub hback =>
    cases h' with
    | estimated ht' hle' hsub' hback' =>
      have hprices := unsignedZero_eq htook htook' hpoll hcollected hsize ht hle hsub hback ht' hle'
        hsub' hback'
      rw [unsigned_update, unsigned_update, hstore, unsign_estimate, unsign_estimate, hprices]
  | reset hopen =>
    cases h' with
    | @reset _ hopen' =>
      have hcreate := unsigned_create poll.store crossPeriodKeys
      have hcreate' := unsigned_create poll'.store crossPeriodKeys
      rw [hopen] at hcreate
      rw [hopen', ← hstore, hcreate] at hcreate'
      rw [unsigned_cleanup, unsigned_cleanup, Except.ok.inj hcreate']

end Outcome

/-! ## The end of a block -/

/-- The events depend on whether there is an outcome, and not on which. -/
theorem handOn_events {α : Type} {store store' : Store} {decision decision' : Decision α}
    {result result' : α → Checked Store}
    (hform : decision.map (fun _ => ()) = decision'.map (fun _ => ()))
    (hresult : ∀ x y, Both (fun _ _ => True) (result x) (result' y)) :
    Both (fun x y => x.map Prod.snd = y.map Prod.snd) (handOn store decision result)
      (handOn store' decision' result') := by
  cases decision with
  | pending =>
    cases decision' with
    | pending => exact .ok rfl
    | reached _ => cases hform
    | noMajority => cases hform
  | reached x =>
    cases decision' with
    | pending => cases hform
    | reached y => exact Both.map (hresult x y) fun _ _ _ => rfl
    | noMajority => cases hform
  | noMajority =>
    cases decision' with
    | pending => cases hform
    | reached _ => cases hform
    | noMajority => exact .ok rfl

theorem create_overflow {s t : Store} (h : s.period = t.period) (keys : List String) :
    Both (fun _ _ => True) (s.create keys) (t.create keys) := by
  rw [Store.create, Store.create, h]
  exact Both.bind (Both.of_eq rfl fun _ _ => rfl) fun _ _ _ => .ok trivial

variable {depth required required' : UInt64} {poll poll' : Poll Kind}
  {taken taken' : List (Transaction Payload)} {kind : RoundKind} {a b : Round}

/-- Rounds with one outline answer alike, and keep one outline. -/
theorem endBlock_outline (htook : a.Took depth poll required taken kind)
    (htook' : b.Took depth poll' required' taken' kind) (h : a.outline = b.outline) :
    Both (fun x y => x.1.map Prod.snd = y.1.map Prod.snd ∧ x.2.outline = y.2.outline)
      a.endBlock b.endBlock := by
  cases htook with
  | @registration gathering =>
    cases htook' with
    | @registration gathering' =>
      have houtline := Round.registration.inj h
      apply Both.bind (samePayloads_of_outline houtline).decide
      rintro ⟨decision, _⟩ ⟨_, _⟩ ⟨rfl, confirmations, rfl, rfl⟩
      apply Both.bind (handOn_events rfl fun _ _ => .ok trivial)
      intro outcome outcome' hevents
      exact .ok ⟨hevents, congrArg (fun g : Gathering Payload Kind =>
        registration { g with confirmations := confirmations }) houtline⟩
  | @collectObservation gathering =>
    cases htook' with
    | @collectObservation gathering' =>
      have houtline := Round.collectObservation.inj h
      apply Both.bind (samePayloads_of_outline houtline).decide
      rintro ⟨decision, _⟩ ⟨_, _⟩ ⟨rfl, confirmations, rfl, rfl⟩
      apply Both.bind (handOn_events rfl fun _ _ => .ok trivial)
      intro outcome outcome' hevents
      exact .ok ⟨hevents, congrArg (fun g : Gathering Payload Kind =>
        collectObservation { g with confirmations := confirmations }) houtline⟩
  | @estimateConsensus ballot hballot =>
    cases htook' with
    | @estimateConsensus ballot' hballot' =>
      have houtline := Round.estimateConsensus.inj h
      apply Both.bind ((sameVotes_of_outline houtline).decide hballot hballot')
      rintro ⟨decision, _⟩ ⟨decision', _⟩ ⟨hform, confirmations, rfl, rfl⟩
      apply Both.bind (handOn_events hform fun _ _ => .ok trivial)
      intro outcome outcome' hevents
      exact .ok ⟨hevents, congrArg (fun b : Ballot Payload Kind =>
        estimateConsensus { b with confirmations := confirmations }) houtline⟩
  | @reset ballot hballot =>
    cases htook' with
    | @reset ballot' hballot' =>
      have houtline := (Round.reset.inj h).1
      have hperiod : (reset ballot crossPeriodKeys depth).store.period =
          (reset ballot' crossPeriodKeys depth).store.period :=
        congrArg (·.poll.store.period) houtline
      apply Both.bind ((sameVotes_of_outline houtline).decide hballot hballot')
      rintro ⟨decision, _⟩ ⟨decision', _⟩ ⟨hform, confirmations, rfl, rfl⟩
      apply Both.bind (handOn_events hform fun _ _ =>
        Both.map (create_overflow hperiod crossPeriodKeys) fun _ _ _ => trivial)
      intro outcome outcome' hevents
      exact .ok ⟨hevents, congrArg (fun b : Ballot Payload Kind =>
        reset { b with confirmations := confirmations } crossPeriodKeys depth) houtline⟩

end Round

end QuorumRounds.PriceOracle
