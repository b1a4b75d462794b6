import QuorumRounds.Proofs.PriceOracle.Account
import QuorumRounds.Proofs.PriceOracle.Backed
import QuorumRounds.Proofs.PriceOracle.Voting

/-! # Periods of the price oracle -/

namespace QuorumRounds.PriceOracle
set_option autoImplicit false

open Replica (Recounts)

variable {settings : Settings} {config : Config RoundKind} {participants : SortedSet String}
  {start replica : OracleReplica} {endings : List OracleEnding}

/-- The history of the estimate in a period that is opened after these endings. -/
def CarriedEstimate (endings : List OracleEnding) (history : Option (List Value)) : Prop :=
  match (doneIn .estimateConsensus endings).getLast? with
  | none => history = none
  | some ending =>
    ∃ price, mostVotedEstimate ending.result = .ok price ∧ history = some [.float price]

/-- What a period holds when it has just been opened. -/
structure Reopening (participants : SortedSet String) (endings : List OracleEnding)
    (store : Store) : Prop where
  participants_eq : store.participants = .ok participants
  participants_history :
    store.history? participantsKey = some [participantsValue participants.toList]
  estimate_history : CarriedEstimate endings (store.history? estimateKey)
  nothing_else : ∀ key, key ≠ participantsKey → key ≠ estimateKey → store.history? key = none

structure Periodic (settings : Settings) (participants : SortedSet String)
    (endings : List OracleEnding) (machine : OracleMachine) : Prop where
  period_eq : machine.store.period.toNat = (doneIn .reset endings).length
  held : ∀ period, period ∈ machine.store.heldPeriods ↔
    (doneIn .reset endings).length - (max settings.periodHistoryDepth.toNat 1 - 1) ≤ period.toNat ∧
      period.toNat ≤ (doneIn .reset endings).length
  /-- Votes that would be accepted. -/
  acceptable : ∀ sender period,
    machine.checkTransaction ⟨sender, .reset period⟩ = .ok (.ok ()) →
      period.toNat = machine.store.period.toNat + 1
  /-- Votes that have been accepted. -/
  accepted : ∀ ballot keys depth, machine.current = some (.reset, .reset ballot keys depth) →
    ∀ sender payload, ballot.collection.get? sender = some payload →
      ∃ period, payload = .reset period ∧ period.toNat = machine.store.period.toNat + 1
  /-- The vote that is agreed on. -/
  agreed : ∀ ballot keys depth payload asked answer after,
    machine.current = some (.reset, .reset ballot keys depth) →
      ballot.decide = .ok (.reached payload, asked) → machine.endBlock = .ok (answer, after) →
        answer = .ok (some .done) ∧ payload = .reset after.store.period
  reopened : ∀ earlier result, endings = earlier ++ [⟨.reset, .done, result⟩] →
    machine.store = result ∧ Reopening participants earlier result

namespace Account
variable {store : Store}

theorem reopening {earlier : List OracleEnding} {result : Store}
    (h : Account settings participants (earlier ++ [⟨.reset, .done, result⟩]) store) :
    store = result ∧ Reopening participants earlier result := by
  obtain ⟨rfl, hopened⟩ := h.opened earlier result rfl
  have hestimate := h.estimate_eq
  have hestimated := h.estimated
  rw [doneIn_of_kind _ _ (by decide)] at hestimate hestimated
  refine ⟨rfl, ?_, ?_, ?_, ?_⟩
  · rw [Store.participants_of_value h.participants_eq, SortedSet.ofList_toList]
  · rw [hopened, if_pos (by simp [crossPeriodKeys]), h.participants_eq]
    rfl
  · rw [hopened, if_pos (by simp [crossPeriodKeys]), hestimate, CarriedEstimate]
    cases hlast : (doneIn .estimateConsensus earlier).getLast? with
    | none => rfl
    | some ending =>
      obtain ⟨price, hprice⟩ := hestimated ending (List.mem_of_getLast? hlast)
      refine ⟨price, mostVotedEstimate_of_value hprice, ?_⟩
      rw [Option.bind_some, hprice]
      rfl
  · intro key hparticipants hother
    rw [hopened, if_neg]
    simp [crossPeriodKeys, hparticipants, hother]

end Account

/-! ## Every step -/

/-- The machine is in a round, and its store accounts for the rounds that have ended. -/
def Accounts (settings : Settings) (config : Config RoundKind) (participants : SortedSet String)
    (endings : List OracleEnding) (machine : OracleMachine) : Prop :=
  ∃ current taken, Voting settings config participants current taken machine ∧
    Account settings participants endings machine.store

namespace Accounts
variable {machine after : OracleMachine}

theorem periodic (h : Accounts settings config participants endings machine) :
    Periodic settings participants endings machine := by
  obtain ⟨current, taken, hvoting, haccount⟩ := h
  refine ⟨haccount.period_eq, ?_, ?_, ?_, ?_, ?_⟩
  · intro period
    rw [← haccount.period_eq]
    exact haccount.window period
  · intro sender period hcheck
    rw [hvoting.1.1.store_eq]
    exact hvoting.1.1.reset_vote hcheck
  · intro ballot keys depth hcurrent sender payload hvote
    exact hvoting.votes hcurrent hvote
  · intro ballot keys depth payload asked answer after hcurrent hdecide hend
    exact hvoting.agreed hcurrent hdecide hend
  · rintro earlier result rfl
    exact haccount.reopening

theorem updateTime {now : Duration} {answer : Except Error (Option Event)}
    (h : Accounts settings config participants endings machine)
    (htime : machine.updateTime now = .ok (answer, after)) :
    Accounts settings config participants
      (endings ++ Ending.ofAnswer machine.currentKind answer after.store) after := by
  obtain ⟨current, taken, hvoting, haccount⟩ := h
  obtain ⟨round, hcurrent, _⟩ := hvoting.1.1.round
  have hkind := Machine.currentKind_of_current hcurrent
  obtain ⟨hstore, ⟨rfl, hsame⟩ | ⟨event, next, rfl, hevent, hnew⟩⟩ := hvoting.updateTime htime
  · refine ⟨current, taken, hsame, ?_⟩
    rw [hstore, Ending.ofAnswer_none, List.append_nil]
    exact haccount
  · refine ⟨next, [], hnew, ?_⟩
    rw [hkind, hstore]
    exact haccount.unchanged current.1 hevent

theorem endBlock {answer : Except Error (Option Event)}
    (h : Accounts settings config participants endings machine)
    (hend : machine.endBlock = .ok (answer, after)) :
    Accounts settings config participants
      (endings ++ Ending.ofAnswer machine.currentKind answer after.store) after := by
  obtain ⟨current, taken, hvoting, haccount⟩ := h
  obtain ⟨round, hcurrent, htook⟩ := hvoting.1.1.round
  have hkind := Machine.currentKind_of_current hcurrent
  rcases hvoting.endBlock hend with ⟨rfl, hstore, hsame⟩ | ⟨event, next, rfl, hresult, hnew⟩
  · refine ⟨current, taken, hsame, ?_⟩
    rw [hstore, Ending.ofAnswer_none, List.append_nil]
    exact haccount
  · refine ⟨next, [], hnew, ?_⟩
    rw [hvoting.1.1.store_eq, ← hvoting.1.2] at haccount
    rw [hkind, ← hvoting.1.2]
    exact haccount.outcome htook.poll_took hresult

theorem processTransaction {tx : Transaction Payload} {answer : Except Error Unit}
    (h : Accounts settings config participants endings machine)
    (hcheck : machine.checkTransaction tx = .ok (.ok ()))
    (hprocess : machine.processTransaction tx = .ok (answer, after)) :
    Accounts settings config participants endings after := by
  obtain ⟨current, taken, hvoting, haccount⟩ := h
  obtain ⟨_, hafter⟩ := hvoting.processTransaction hcheck hprocess
  refine ⟨current, taken ++ [tx], hafter, ?_⟩
  rw [hafter.1.1.store_eq, ← hvoting.1.1.store_eq]
  exact haccount

end Accounts

/-! ## Every run -/

theorem SetUp.store_eq (h : SetUp settings participants config start) :
    start.machine.store = Store.ofSetup (Settings.setupData participants.toList) := by
  obtain ⟨machine, hmachine, hsetup⟩ := h
  obtain ⟨⟨answer, entered⟩, henter, heq⟩ := Checked.bind_eq_ok_iff.1 hsetup
  cases heq
  obtain ⟨happ, _, _, hstore, _⟩ := machine_eq hmachine
  obtain ⟨_, _, _, _, rfl⟩ := Machine.setup_eq_ok (build_eq happ hstore _) henter
  obtain ⟨shapes, hnew⟩ := ofApplication_of_machine hmachine
  have hopened : machine.setupStore = Store.ofSetup (Settings.setupData participants.toList) := by
    rw [Machine.ofApplication_eq_ok hnew]
  rw [Machine.store_of_current rfl, ← hopened]
  exact (Round.took_opened _ _ _ _).store_eq

theorem SetUp.accounts (h : SetUp settings participants config start) :
    Accounts settings config participants [] start.machine := by
  obtain ⟨_, _, current, hrunning, hasked⟩ := h.running
  refine ⟨current, [], Voting.entered ⟨hrunning, hasked⟩, ?_⟩
  rw [h.store_eq]
  exact .ofSetup settings participants

theorem accounts_of_recounts (hsetUp : SetUp settings participants config start)
    (h : Recounts start replica endings) :
    Accounts settings config participants endings replica.machine := by
  have htracks := voting_tracks settings config participants
  -- Only a timestamp that a timeout has waited for and the end of a block lengthen the history.
  induction h with
  | start => exact hsetUp.accounts
  | refused _ hbegin ih =>
    obtain ⟨current, taken, hvoting, _⟩ := id ih
    rw [Replica.beginBlock_eq_error htracks hvoting hbegin]
    exact ih
  | begun _ htime hbegin ih =>
    obtain ⟨_, _, fired, timed, htime', rfl⟩ := Replica.beginBlock_eq_ok hbegin
    cases htime.symm.trans htime'
    exact ih.updateTime htime
  | @delivered replica after endings bytes answer _ hdeliver ih =>
    cases answer with
    | error e =>
      obtain ⟨current, taken, hvoting, _⟩ := id ih
      rw [(Replica.deliverTx_eq_error htracks hvoting hdeliver).1]
      exact ih
    | ok _ =>
      obtain ⟨block, tx, machine, _, _, hcheck, hprocess, rfl⟩ := Replica.deliverTx_eq_ok hdeliver
      exact ih.processTransaction hcheck hprocess
  | ended _ hend ih =>
    rcases Replica.endBlock_cases hend with ⟨_, ⟨e, rfl⟩, rfl⟩ | ⟨block, machine, height, _, hended,
      _, rfl⟩
    · rw [Ending.ofAnswer_error, List.append_nil]
      exact ih
    · exact ih.endBlock hended
  | committed _ hcommit ih =>
    rcases Replica.commit_cases hcommit with ⟨_, rfl⟩ | ⟨block, _, _, rfl⟩
    · exact ih
    · exact ih
  | aborted _ ih => exact ih

/-- In every state that blocks lead to, also in the middle of a block: the periods are those that have
been agreed on, every vote names the next one, and no vote passes in two of them. -/
theorem periods_are_agreed_on (hsetUp : SetUp settings participants config start) :
    (∀ blocks outcomes replica, start.processAll blocks = .ok (outcomes, replica) →
      ∃ endings, Recounts start replica endings) ∧
    (∀ replica endings, Recounts start replica endings →
      Periodic settings participants endings replica.machine) ∧
    ∀ replica endings other otherEndings sender otherSender period,
      Recounts start replica endings → Recounts start other otherEndings →
      replica.machine.checkTransaction ⟨sender, .reset period⟩ = .ok (.ok ()) →
      other.machine.checkTransaction ⟨otherSender, .reset period⟩ = .ok (.ok ()) →
      replica.machine.store.period = other.machine.store.period := by
  refine ⟨fun blocks outcomes replica hall => Recounts.start.processAll hall, ?_, ?_⟩
  · intro replica endings h
    exact (accounts_of_recounts hsetUp h).periodic
  · intro replica endings other otherEndings sender otherSender period h hother hcheck hcheck'
    have hnext := (accounts_of_recounts hsetUp h).periodic.acceptable sender period hcheck
    have hnext' := (accounts_of_recounts hsetUp hother).periodic.acceptable otherSender period hcheck'
    exact UInt64.toNat_inj.1 (Nat.succ.inj (hnext.symm.trans hnext'))

/-- Three of four agree on an estimate, open a period, and agree on an estimate in it. -/
def twoPeriods : List Block :=
  untilEstimates ++
    [blockFrom 3 ["b", "c", "d"] (.estimate ⟨0x3ff0000000000000⟩),
      blockFrom 4 ["a", "c", "d"] (.reset 1),
      blockFrom 5 ["a", "b", "d"] (.observation ⟨0x4000000000000000⟩),
      blockFrom 6 ["a", "b", "c"] (.estimate ⟨0x4000000000000000⟩)]

theorem periods_are_agreed_on_by_four :
    ∃ (start replica : OracleReplica) (endings : List OracleEnding),
      SetUp {} fourAddresses fourConfig start ∧ Recounts start replica endings ∧
      Periodic {} fourAddresses endings replica.machine ∧ (doneIn .reset endings).length = 1 ∧
      replica.machine.store.heldPeriods = [0, 1] ∧
      replica.machine.checkTransaction ⟨"a", .reset 2⟩ = .ok (.ok ()) := by
  have hrun : (({} : Settings).start? fourAddresses fourConfig).map (fun start =>
      (start.processAll twoPeriods).map fun (_, replica) =>
        (replica.machine.store.period, replica.machine.store.heldPeriods,
          (replica.machine.checkTransaction ⟨"a", .reset 2⟩).map Except.toOption)) =
      some (.ok (1, [0, 1], .ok (some ()))) := by
    decide +kernel
  obtain ⟨start, ⟨outcomes, replica⟩, hsetUp, hall, hseen⟩ := exists_after hrun
  simp only [Prod.mk.injEq] at hseen
  obtain ⟨hperiod, hheld, hchecked⟩ := hseen
  obtain ⟨checked, hcheck, hpasses⟩ := Checked.map_eq_ok_iff.1 hchecked
  obtain rfl := Checked.eq_ok_of_toOption hpasses
  obtain ⟨hcovered, hperiodic, _⟩ := periods_are_agreed_on hsetUp
  obtain ⟨endings, hrecounts⟩ := hcovered _ _ _ hall
  have hresult := hperiodic replica endings hrecounts
  have hcount := hresult.period_eq
  rw [hperiod] at hcount
  exact ⟨start, replica, endings, hsetUp, hrecounts, hresult, hcount.symm, hheld, hcheck⟩

end QuorumRounds.PriceOracle
