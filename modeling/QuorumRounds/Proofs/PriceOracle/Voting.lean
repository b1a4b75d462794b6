import QuorumRounds.Proofs.Machine.Calls
import QuorumRounds.Proofs.PriceOracle.Service

/-! # Votes for a reset

A vote for a reset passes its check only in a reset, and only if it names the next period
(`Running.reset_vote`). So all votes that a reset has taken name it (`NamesNext`), and so does the one
that is agreed on (`Voting.agreed`). -/

namespace QuorumRounds.PriceOracle
set_option autoImplicit false

/-- Only the same vote equals a vote for a reset. -/
theorem Payload.eq_reset_of_same {payload : Payload} {period : UInt64}
    (h : Payload.same payload (.reset period) = true) : payload = .reset period := by
  cases payload with
  | reset other =>
    have hsame : (other == period) = true := h
    rw [eq_of_beq hsame]
  | registration => cases h
  | observation price => cases h
  | estimate price => cases h

/-- Each reset opens the next period. -/
theorem Round.Outcome.period_of_reset {depth : UInt64} {poll : Poll Kind}
    {taken : List (Transaction Payload)} {kind : RoundKind} {store : Store}
    (h : Round.Outcome depth poll taken kind .done store) (hkind : kind = .reset) :
    store.period.toNat = poll.store.period.toNat + 1 := by
  subst hkind
  cases h with
  | reset hcreate =>
    rw [Store.period_cleanup]
    exact Word.succ_eq_ok_iff.1 (Store.create_eq_ok hcreate).1

section Votes
variable {settings : Settings} {config : Config RoundKind} {participants : SortedSet String}
  {current : RoundKind × Poll Kind} {taken : List (Transaction Payload)}
  {machine after : OracleMachine}

theorem Running.kind_of_check {tx : Transaction Payload}
    (h : Running settings config current taken machine)
    (hcheck : machine.checkTransaction tx = .ok (.ok ())) : tx.payload.kind = current.1.allowed := by
  obtain ⟨round, hcurrent, htook⟩ := h.round
  have hpass := Machine.checkTransaction_eq_ok hcurrent hcheck
  have hmem : ⟨tx.sender, tx.payload⟩ ∈ taken ++ [tx] :=
    List.mem_append_right _ (List.mem_singleton_self _)
  exact (Round.Took.kind_of_mem (htook.accept hpass).poll_took hmem).trans h.allowed_eq

/-- A vote for a reset passes only in a reset, and only for the next period. -/
theorem Running.reset_vote {sender : String} {period : UInt64}
    (h : Running settings config current taken machine)
    (hcheck : machine.checkTransaction ⟨sender, .reset period⟩ = .ok (.ok ())) :
    period.toNat = current.2.store.period.toNat + 1 := by
  have hkind := h.kind_of_check hcheck
  obtain ⟨round, hcurrent, htook⟩ := h.round
  have hpass := Machine.checkTransaction_eq_ok hcurrent hcheck
  obtain ⟨kind, poll⟩ := current
  cases htook with
  | registration => cases hkind
  | collectObservation => cases hkind
  | estimateConsensus => cases hkind
  | reset hballot =>
    have hperiod := (Round.check_eq_ok_iff.1 hpass).2
    rw [Round.checkTimely, hballot.poll_eq] at hperiod
    exact Round.checkPeriod_reset_iff.1 hperiod

/-- All that a reset has taken are votes for the next period. -/
def NamesNext (current : RoundKind × Poll Kind) (taken : List (Transaction Payload)) : Prop :=
  current.1 = .reset → ∀ tx ∈ taken, ∃ period,
    tx.payload = .reset period ∧ period.toNat = current.2.store.period.toNat + 1

def Voting (settings : Settings) (config : Config RoundKind) (participants : SortedSet String)
    (current : RoundKind × Poll Kind) (taken : List (Transaction Payload))
    (machine : OracleMachine) : Prop :=
  Serving settings config participants current taken machine ∧ NamesNext current taken

namespace Voting

theorem entered (h : Serving settings config participants current [] machine) :
    Voting settings config participants current [] machine := ⟨h, fun _ => nofun⟩

theorem processTransaction {tx : Transaction Payload} {answer : Except Error Unit}
    (h : Voting settings config participants current taken machine)
    (hcheck : machine.checkTransaction tx = .ok (.ok ()))
    (hprocess : machine.processTransaction tx = .ok (answer, after)) :
    answer = .ok () ∧ Voting settings config participants current (taken ++ [tx]) after := by
  obtain ⟨⟨hrunning, hasked⟩, hnames⟩ := h
  obtain ⟨hanswer, hafter⟩ := hrunning.processTransaction hcheck hprocess
  refine ⟨hanswer, ⟨hafter, hasked⟩, fun hkind other hother => ?_⟩
  rcases List.mem_append.1 hother with hold | hnew
  · exact hnames hkind other hold
  · obtain rfl := List.mem_singleton.1 hnew
    have hallowed := hrunning.kind_of_check hcheck
    rw [hkind] at hallowed
    obtain ⟨sender, payload⟩ := other
    obtain ⟨period, rfl⟩ := Payload.exists_reset hallowed
    exact ⟨period, rfl, hrunning.reset_vote hcheck⟩

/-- A timeout ends a round without a result. -/
theorem updateTime {now : Duration} {answer : Except Error (Option Event)}
    (h : Voting settings config participants current taken machine)
    (htime : machine.updateTime now = .ok (answer, after)) :
    after.store = machine.store ∧
      (answer = .ok none ∧ Voting settings config participants current taken after ∨
        ∃ event next, answer = .ok (some event) ∧ event ≠ .done ∧
          Voting settings config participants next [] after) := by
  obtain ⟨⟨hrunning, rfl⟩, hnames⟩ := h
  rcases hrunning.updateTime htime with ⟨hanswer, hsame⟩ | ⟨event, next, hanswer, hevent, hstore,
    hnew⟩
  · exact ⟨hsame.store_eq.trans hrunning.store_eq.symm, .inl ⟨hanswer, ⟨hsame, rfl⟩, hnames⟩⟩
  · refine ⟨hnew.store_eq.trans (hstore.trans hrunning.store_eq.symm),
      .inr ⟨event, next, hanswer, hevent, entered (serving_of_participants hnew ?_)⟩⟩
    rw [hstore]
    exact hrunning.participants_eq

theorem endBlock {answer : Except Error (Option Event)}
    (h : Voting settings config participants current taken machine)
    (hend : machine.endBlock = .ok (answer, after)) :
    (answer = .ok none ∧ after.store = machine.store ∧
        Voting settings config participants current taken after) ∨
      ∃ event next, answer = .ok (some event) ∧
        Round.Outcome settings.periodHistoryDepth current.2 taken current.1 event after.store ∧
        Voting settings config participants next [] after := by
  obtain ⟨⟨hrunning, rfl⟩, hnames⟩ := h
  rcases hrunning.endBlock hend with ⟨hanswer, hsame⟩ | ⟨event, next, hanswer, hresult, hnew⟩
  · exact .inl ⟨hanswer, hsame.store_eq.trans hrunning.store_eq.symm, ⟨hsame, rfl⟩, hnames⟩
  · obtain ⟨_, _, htook⟩ := hrunning.round
    have hkept := hresult.participants_eq htook.poll_took hrunning.participants_eq
    refine .inr ⟨event, next, hanswer, ?_, entered (serving_of_participants hnew hkept)⟩
    rw [hnew.store_eq]
    exact hresult

section Ballot
variable {ballot asked : Ballot Payload Kind} {keys : List String} {depth : UInt64}

theorem ballot_took (h : Voting settings config participants current taken machine)
    (hcurrent : machine.current = some (.reset, .reset ballot keys depth)) :
    current.1 = .reset ∧ ballot.Took current.2 (config.requiredConfirmations .reset) taken := by
  obtain ⟨round, hround, htook⟩ := h.1.1.round
  obtain ⟨kind, poll⟩ := current
  cases hround.symm.trans hcurrent
  cases htook with
  | reset hballot => exact ⟨rfl, hballot⟩

theorem votes {sender : String} {payload : Payload}
    (h : Voting settings config participants current taken machine)
    (hcurrent : machine.current = some (.reset, .reset ballot keys depth))
    (hvote : ballot.collection.get? sender = some payload) :
    ∃ period, payload = .reset period ∧ period.toNat = machine.store.period.toNat + 1 := by
  obtain ⟨hkind, hballot⟩ := h.ballot_took hcurrent
  rw [hballot.collection_eq, hballot.took.get?_collected] at hvote
  rw [h.1.1.store_eq]
  exact h.2 hkind _ hvote

/-- The payload that leads a vote on the period is one that has been sent. -/
theorem leader {payload : Payload} {votes : Nat}
    (h : Voting settings config participants current taken machine)
    (hcurrent : machine.current = some (.reset, .reset ballot keys depth))
    (hlead : ballot.tally.leader? = some (payload, votes)) (hpos : 0 < votes) :
    ∃ period, payload = .reset period ∧ period.toNat = machine.store.period.toNat + 1 := by
  obtain ⟨_, hballot⟩ := h.ballot_took hcurrent
  obtain ⟨senders, hcard, _, hback⟩ := hballot.backers hlead
  obtain ⟨sender, hsender⟩ := Finset.card_pos.1 (hcard ▸ hpos)
  obtain ⟨vote, hvote, hsame⟩ := hback sender hsender
  obtain ⟨period, rfl, hperiod⟩ := h.votes hcurrent hvote
  rcases hsame with rfl | hsame
  · exact ⟨period, rfl, hperiod⟩
  · exact ⟨period, Payload.eq_reset_of_same hsame, hperiod⟩

/-- The period that is opened is the one that has been agreed on. -/
theorem agreed {payload : Payload} {answer : Except Error (Option Event)}
    (h : Voting settings config participants current taken machine)
    (hcurrent : machine.current = some (.reset, .reset ballot keys depth))
    (hdecide : ballot.decide = .ok (.reached payload, asked))
    (hend : machine.endBlock = .ok (answer, after)) :
    answer = .ok (some .done) ∧ payload = .reset after.store.period := by
  obtain ⟨threshold, _, ht, _, _, hdecision⟩ := Ballot.decide_eq_ok hdecide
  have hleader : ∃ votes, ballot.tally.leader? = some (payload, votes) ∧ threshold ≤ votes := by
    rcases hdecision with hf | hf | ⟨leading, votes, heq, hlead, hvotes⟩
    · cases hf
    · cases hf
    · cases heq
      exact ⟨votes, hlead, hvotes⟩
  obtain ⟨votes, hlead, hvotes⟩ := hleader
  have hpos := ConsensusParams.threshold_pos ht
  obtain ⟨period, rfl, hperiod⟩ := h.leader hcurrent hlead (by omega)
  have hdone : ∃ moved : Except Error Unit, answer = moved.map fun _ => some .done := by
    obtain ⟨outcome, last, hasked, hcases⟩ := Machine.endBlock_eq_ok hcurrent hend
    obtain ⟨decision, _, hdecide', hmade, rfl⟩ :=
      Round.handedOn_eq_ok (.reset · keys depth) hasked
    cases hdecide.symm.trans hdecide'
    obtain ⟨opened, _, rfl⟩ := Checked.map_eq_ok_iff.1 hmade
    rcases hcases with ⟨hf, _⟩ | ⟨store, event, heq, hfire⟩
    · cases hf
    · cases heq
      obtain ⟨moved, hanswer, _⟩ := Machine.fire_outcome hfire
      exact ⟨moved, hanswer⟩
  obtain ⟨moved, hanswer⟩ := hdone
  have hkind := (h.ballot_took hcurrent).1
  have hstore := h.1.1.store_eq
  rcases h.endBlock hend with ⟨hnone, _⟩ | ⟨event, next, rfl, hresult, _⟩
  · cases moved <;> cases hanswer.symm.trans hnone
  · cases moved with
    | error e => cases hanswer
    | ok _ =>
      cases hanswer
      refine ⟨rfl, ?_⟩
      have hnumber := hresult.period_of_reset hkind
      rw [hstore] at hperiod
      rw [UInt64.toNat_inj.1 (hperiod.trans hnumber.symm)]

end Ballot

end Voting

theorem voting_tracks (settings : Settings) (config : Config RoundKind)
    (participants : SortedSet String) :
    Machine.Tracks (Voting settings config participants) where
  updateTime := by
    intro current taken machine now answer after h htime
    rcases (h.updateTime htime).2 with ⟨hanswer, hsame⟩ | ⟨event, next, hanswer, _, hnew⟩
    · exact ⟨none, hanswer, .stays hsame⟩
    · exact ⟨some event, hanswer, .moves hnew⟩
  processTransaction := fun h hcheck hprocess => h.processTransaction hcheck hprocess
  endBlock := by
    intro current taken machine answer after h hend
    rcases h.endBlock hend with ⟨hanswer, _, hsame⟩ | ⟨event, next, hanswer, _, hnew⟩
    · exact ⟨none, hanswer, .stays hsame⟩
    · exact ⟨some event, hanswer, .moves hnew⟩

end Votes

end QuorumRounds.PriceOracle
